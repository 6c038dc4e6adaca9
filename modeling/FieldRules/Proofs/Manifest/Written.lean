import FieldRules.Proofs.Analysis.Annotation
import FieldRules.Proofs.Json.Written
import FieldRules.Proofs.Manifest

/-!
# Written declarations are read back

The text of declarations is an array of objects. What the analysis attaches is not written, and a
location only if there is one; an empty package, an empty tag and a line zero may be left out.
Whatever gaps and escapes are chosen, the manifest has the declarations that were written.
-/

namespace FieldRules.Manifest

open Json

/-! ### The texts of declarations -/

/-- The members of a location. -/
def locationMembers (location : SourceLocation) : List Member := [
  { key := "file", text := StringText location.file },
  { key := "line", text := (· = Numeral.digits location.line), optional := location.line = 0 }]

/-- The members of a field. -/
def fieldMembers (field : Field) : List Member := [
  { key := "name", text := StringText field.name },
  { key := "type", text := StringText field.type },
  { key := "tag", text := StringText field.tag, optional := field.tag = "" }]

/-- The members of a declaration. -/
def declarationMembers (d : Declaration) : List Member :=
  [{ key := "name", text := StringText d.name },
    { key := "package", text := StringText d.package, optional := d.package = "" }] ++
  d.location.toList.map (fun location =>
    { key := "location", text := ObjectText (locationMembers location) }) ++
  [{ key := "fields", text := ArrayText (ObjectText <| fieldMembers ·) d.fields }]

/-- The text of an array of declarations. -/
def DeclarationsText : List Declaration → List Char → Prop :=
  ArrayText (ObjectText <| declarationMembers ·)

/-- Every list of declarations can be written. -/
theorem exists_declarationsText (ds : List Declaration) : ∃ w, DeclarationsText ds w := by
  have hfield (field : Field) : ∃ w, ObjectText (fieldMembers field) w :=
    exists_objectText (by simp [fieldMembers, exists_stringText])
  have hlocation (location : SourceLocation) : ∃ w, ObjectText (locationMembers location) w :=
    exists_objectText (by simp [locationMembers, exists_stringText])
  have hfields (fields : List Field) : ∃ w, ArrayText (ObjectText <| fieldMembers ·) fields w :=
    exists_arrayText fun field _ => hfield field
  refine exists_arrayText fun d _ => exists_objectText ?_
  cases hd : d.location <;>
    simp [declarationMembers, hd, exists_stringText, hlocation, hfields]

/-! ### Reading them -/

theorem locationForm_reads {location : SourceLocation} (hline : location.line < 1 <<< 32) :
    (readRecord locationForm).Reads (ObjectText (locationMembers location)) location := by
  refine readRecord_reads ⟨⟨_, _, rfl, rfl, (readString_reads _).map _, ?_⟩, False.elim⟩
  refine ⟨⟨_, _, rfl, rfl, (readWord_reads hline).map _, rfl⟩, fun hzero => ?_⟩
  obtain ⟨file, line⟩ := location
  obtain rfl : line = 0 := hzero
  rfl

theorem fieldForm_reads (field : Field) :
    (readRecord fieldForm).Reads (ObjectText (fieldMembers field)) field.unannotated := by
  refine readRecord_reads ⟨⟨_, _, rfl, rfl, (readString_reads _).map _, ?_⟩, False.elim⟩
  refine ⟨⟨_, _, rfl, rfl, (readString_reads _).map _, ?_⟩, False.elim⟩
  refine ⟨⟨_, _, rfl, rfl, (readString_reads _).map _, rfl⟩, fun htag => ?_⟩
  obtain ⟨name, type, tag, rules⟩ := field
  obtain rfl : tag = "" := htag
  rfl

/-- The last members of a declaration, once its name and its package are in the draft. -/
theorem declarationForm_fills {d : Declaration}
    (hline : ∀ location, d.location = some location → location.line < 1 <<< 32)
    {package : Option String} (hpackage : package.getD "" = d.package) :
    Fills declarationForm d.unannotated
      (d.location.toList.map (fun location =>
          { key := "location", text := ObjectText (locationMembers location) }) ++
        [{ key := "fields", text := ArrayText (ObjectText <| fieldMembers ·) d.fields }])
      { name := some d.name, package := package } := by
  have hfields : (readList (readRecord fieldForm)).Reads
      (ArrayText (ObjectText <| fieldMembers ·) d.fields) (d.fields.map Field.unannotated) :=
    readList_reads fun field _ => fieldForm_reads field
  cases hd : d.location with
  | none =>
    refine ⟨⟨_, _, rfl, rfl, hfields.map _, ?_⟩, False.elim⟩
    simp [Fills, declarationForm, Declaration.unannotated, hd, hpackage]
  | some location =>
    have hlocation := readOptional_reads (locationForm_reads (hline location hd)) ?_
    · refine ⟨⟨_, _, rfl, rfl, hlocation.map _, ?_⟩, False.elim⟩
      refine ⟨⟨_, _, rfl, rfl, hfields.map _, ?_⟩, False.elim⟩
      simp [Fills, declarationForm, Declaration.unannotated, hd, hpackage]
    · rintro w ⟨cs, -, rfl⟩
      simp

theorem declarationForm_reads {d : Declaration}
    (hline : ∀ location, d.location = some location → location.line < 1 <<< 32) :
    (readRecord declarationForm).Reads (ObjectText (declarationMembers d)) d.unannotated := by
  refine readRecord_reads ⟨⟨_, _, rfl, rfl, (readString_reads _).map _, ?_⟩, False.elim⟩
  refine ⟨⟨_, _, rfl, rfl, (readString_reads _).map _, ?_⟩, fun hpackage => ?_⟩
  · exact declarationForm_fills hline rfl
  · exact declarationForm_fills hline (hpackage : d.package = "").symm

/-- Written declarations are read back, without what the analysis has attached to them. -/
theorem ofJson_of_declarationsText {ds : List Declaration}
    (hlines : ∀ d ∈ ds, ∀ location, d.location = some location → location.line < 1 <<< 32)
    {g w g' : List Char} (hg : IsGap g) (hw : DeclarationsText ds w) (hg' : IsGap g') :
    ofJson (String.ofList (g ++ w ++ g')) = .ok ⟨none, ds.map Declaration.unannotated⟩ := by
  have hreads := readList_reads fun d hd => declarationForm_reads (hlines d hd)
  obtain ⟨q, hread⟩ := (hreads hw).2 g hg ⟨1, 0⟩ g' (delimited_of_isGap hg')
  have hbracket : (Text.trimStart (g ++ w ++ g')).head? = some '[' := by
    obtain ⟨cs, -, rfl⟩ := hw
    rw [List.append_assoc]
    exact head?_trimStart_gap hg rfl
  simp only [ofJson, String.toList_ofList, hbracket, if_true]
  exact map_eq_ok_iff.2 ⟨_, hread, rfl⟩

/-- A declaration at a known line, with a name beyond the basic plane. -/
def smiley : Declaration :=
  { name := "😀\"", package := "", location := some ⟨"a.rs", 7⟩,
    fields := [{ name := "x", type := "u8", tag := "" }] }

/-- Its text, with escapes in a key and in the name, and without package and tag. -/
def smileyText : String :=
  "[ \x7b\"n\\u0061me\":\"\\uD83d\\uDE00\\\"\"," ++
    "\"location\": \x7b\"file\":\"a.rs\",\"line\":7\x7d," ++
    "\"fields\":[\x7b\"name\":\"x\",\"type\":\"u8\"\x7d]\n\x7d]"

theorem smiley_written : DeclarationsText [smiley] smileyText.toList := by
  have hfresh : IsSeparator true [] := isGap_nil
  have hcomma : IsSeparator false [','] := ⟨[], [], isGap_nil, isGap_nil, rfl⟩
  have hblank : IsGap [' '] := List.all_eq_true.1 rfl
  have hkey : StringText "name" "\"n\\u0061me\"".toList :=
    ⟨_, .char (charText_self (c := 'n') rfl) (.char (.unicode (c := 'a')
      ⟨'0', '0', '6', '1', by decide, by decide, by decide, by decide, rfl⟩)
      (.char (charText_self (c := 'm') rfl) (.char (charText_self (c := 'e') rfl) .close))), rfl⟩
  have hname : StringText smiley.name "\"\\uD83d\\uDE00\\\"\"".toList :=
    ⟨_, .char (.pair (c := '😀') (by decide)
      ⟨'D', '8', '3', 'd', by decide, by decide, by decide, by decide, rfl⟩
      ⟨'D', 'E', '0', '0', by decide, by decide, by decide, by decide, rfl⟩)
      (.char (.letter (by decide)) .close), rfl⟩
  have hlocation : ObjectText (locationMembers ⟨"a.rs", 7⟩)
      "\x7b\"file\":\"a.rs\",\"line\":7\x7d".toList :=
    ⟨_, .member hfresh (stringText_self rfl) isGap_nil isGap_nil (stringText_self rfl)
      (.member hcomma (stringText_self rfl) isGap_nil isGap_nil rfl (.close isGap_nil)), rfl⟩
  have hfield : ObjectText (fieldMembers { name := "x", type := "u8", tag := "" })
      "\x7b\"name\":\"x\",\"type\":\"u8\"\x7d".toList :=
    ⟨_, .member hfresh (stringText_self rfl) isGap_nil isGap_nil (stringText_self rfl)
      (.member hcomma (stringText_self rfl) isGap_nil isGap_nil (stringText_self rfl)
        (.without rfl (.close isGap_nil))), rfl⟩
  have hfields : ArrayText (ObjectText <| fieldMembers ·) smiley.fields
      "[\x7b\"name\":\"x\",\"type\":\"u8\"\x7d]".toList :=
    ⟨_, .element hfresh hfield (.close isGap_nil), rfl⟩
  have hsmiley : ObjectText (declarationMembers smiley) _ :=
    ⟨_, .member hfresh hkey isGap_nil isGap_nil hname
      (.without rfl (.member hcomma (stringText_self rfl) isGap_nil hblank hlocation
        (.member hcomma (stringText_self rfl) isGap_nil isGap_nil hfields
          (.close (g := ['\n']) (List.all_eq_true.1 rfl))))), rfl⟩
  exact ⟨_, .element hblank hsmiley (.close isGap_nil), rfl⟩

theorem smiley_read_back :
    (∀ d ∈ [smiley], ∀ location, d.location = some location → location.line < 1 <<< 32) ∧
      IsGap ['\n'] ∧ DeclarationsText [smiley] smileyText.toList ∧
      ofJson (String.ofList (['\n'] ++ smileyText.toList ++ ['\n'])) = .ok ⟨none, [smiley]⟩ := by
  have hline : ∀ d ∈ [smiley], ∀ location, d.location = some location →
      location.line < 1 <<< 32 := by
    rintro d hd location hlocation
    obtain rfl : d = smiley := by simpa using hd
    cases hlocation
    decide
  have hgap : IsGap ['\n'] := List.all_eq_true.1 rfl
  exact ⟨hline, hgap, smiley_written,
    ofJson_of_declarationsText hline hgap smiley_written hgap⟩

end FieldRules.Manifest
