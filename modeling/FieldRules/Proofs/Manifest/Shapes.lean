import FieldRules.Proofs.Json.Written
import FieldRules.Proofs.Manifest

/-!
# The two shapes of a manifest

An array of declarations may stand alone or be the `types` of a document. Both are read in the same
way: the same declarations, or a failure of the same cause at the same place inside the array, to
which the path in the document only adds the key.
-/

namespace FieldRules.Manifest

open Json

/-! ### The forms of records -/

theorem locationForm_determined : locationForm.Determined := by
  simp only [RecordForm.Determined, locationForm, List.forall_mem_cons]
  refine ⟨fun d => readString_determined.map _, fun d => readWord_determined.map _, ?_⟩
  simp

theorem fieldForm_determined : fieldForm.Determined := by
  simp only [RecordForm.Determined, fieldForm, List.forall_mem_cons]
  refine ⟨fun d => readString_determined.map _, fun d => readString_determined.map _,
    fun d => readString_determined.map _, ?_⟩
  simp

theorem declarationForm_determined : declarationForm.Determined := by
  have hlocation := readRecord_determined locationForm_determined
  have hfield := readRecord_determined fieldForm_determined
  simp only [RecordForm.Determined, declarationForm, List.forall_mem_cons]
  refine ⟨fun d => readString_determined.map _, fun d => readString_determined.map _,
    fun d => (readOptional_determined hlocation).map _,
    fun d => (readList_determined hfield).map _, ?_⟩
  simp

/-! ### Documents -/

/-- One array, with gaps around it. -/
def IsArrayText (cs : List Char) : Prop :=
  ∃ g members g', IsGap g ∧ IsMembers .list true members ∧ IsGap g' ∧
    cs = g ++ '[' :: members ++ g'

/-- A document with declarations. -/
def typesDocument (array : String) : String :=
  String.join ["\x7b\"types\": ", array, "\x7d"]

/-- A document with declarations that also chooses the support module. -/
def supportDocument (path array : String) : String :=
  String.join
    ["\x7b\"options\": \x7b\"support_path\": ", path, "\x7d, \"types\": ", array, "\x7d"]

/-- The declarations of an array, wherever it stands; a failure lies in one of its elements. -/
theorem declarations_answers {members : List Char} (h : IsMembers .list true members) :
    ∃ a, (∀ g, IsGap g →
        Answers (readList (readRecord declarationForm)).read (g ++ '[' :: members) a) ∧
      ∀ path cause, a = .error (path, cause) → ∃ i tail, path = .index i :: tail := by
  obtain ⟨a, ha, hpath⟩ :=
    readElements_determined (readRecord_determined declarationForm_determined) h 0 rfl
  exact ⟨a, fun g hg => readList_startsAtToken.answers (begins_cons.2 rfl) hg (readList_answers ha),
    hpath⟩

/-- The member `types` at the end of a document. -/
theorem types_answers {first : Bool} {separator g members g' : List Char} {draft : DocumentDraft}
    {a : Answer (List Declaration)} (hseparator : IsSeparator first separator)
    (hdraft : draft.types = none) (hg' : IsGap g')
    (ha : Answers (readList (readRecord declarationForm)).read (g ++ '[' :: members) a) :
    Answers (readMembers documentForm first draft)
      (separator ++ ('"' :: ("types".toList ++ ['"']) ++
        (':' :: (g ++ '[' :: members) ++ (g' ++ ['\x7d']))))
      ((a.within (.key "types")).map fun types => { draft with types := some types }) := by
  have hself : "types".toList.all standsForItself = true := rfl
  have hkey := (quotedText_self hself).answers
  have htypes : Answers (readMembers documentForm first draft) _ _ :=
    Answers.slot hkey rfl (congrArg Option.isSome hdraft) hseparator isGap_nil
      (Reader.map_answers ha _)
      ((delimited_of_isGap hg').append (delimited_cons.2 rfl))
      fun filled _ => answers_noMembers hg'
  refine cast (congrArg _ ?_) htypes
  cases a <;> rfl

/-- A text that decodes to a string is one value behind a gap, and decodes to it everywhere. -/
theorem reads_of_readString {s : List Char} {path : String} {q : Position}
    (h : readString.read (.start s) = .ok (path, ⟨q, []⟩)) :
    ∃ g v, IsGap g ∧ s = g ++ v ∧ readString.Reads (· = v) path := by
  obtain ⟨g, v, hg, hv, ht⟩ := readString_takesValue h
  have hs : s = g ++ v := by simpa [Cursor.start] using ht.rest_eq
  obtain ⟨a, ha⟩ := readString_determined hv
  obtain ⟨q', hq'⟩ := ha g hg ⟨1, 0⟩ [] delimited_nil
  rw [List.append_nil, ← hs] at hq'
  have hok : a = .ok path := by
    rcases a with ⟨tail, cause⟩ | x
    · cases h.symm.trans hq'
    · cases h.symm.trans hq'
      rfl
  refine ⟨g, v, hg, hs, ?_⟩
  rintro _ rfl
  exact ⟨hv.begins, hok ▸ ha⟩

/-- The text of options, from behind the opening brace on. -/
def optionsTail (path : List Char) : List Char :=
  '"' :: ("support_path".toList ++ ['"']) ++ (':' :: ' ' :: path ++ ['\x7d'])

theorem options_reads {g v : List Char} {path : String} (hg : IsGap g)
    (hv : readString.Reads (· = v) path) :
    (readOptional (readRecord optionsForm)).Reads (· = '\x7b' :: optionsTail (g ++ v))
      (some ⟨path⟩) := by
  have hrecord : (readRecord optionsForm).Reads
      (ObjectText [{ key := "support_path", text := (· = v) }]) ⟨path⟩ :=
    readRecord_reads ⟨⟨_, _, rfl, rfl, hv.map _, rfl⟩, False.elim⟩
  have hblank : IsGap [' '] := List.all_eq_true.1 rfl
  have hkey : StringText "support_path" _ := stringText_self rfl
  have htext : ObjectText [{ key := "support_path", text := (· = v) }]
      ('\x7b' :: optionsTail (g ++ v)) :=
    ⟨_, .member isGap_nil hkey isGap_nil (hblank.append hg) rfl (.close isGap_nil), rfl⟩
  have hread := readOptional_reads hrecord (by rintro w ⟨cs, -, rfl⟩; simp)
  rintro _ rfl
  exact hread htext

/-- The member `options` at the start of a document. -/
theorem options_answers {g v cs : List Char} {path : String} {b : Answer DocumentDraft}
    (hg : IsGap g) (hv : readString.Reads (· = v) path) (hcs : Delimited cs)
    (hb : Answers (readMembers documentForm false { options := some (some ⟨path⟩) }) cs b) :
    Answers (readMembers documentForm true documentForm.blank)
      ('"' :: ("options".toList ++ ['"']) ++
        (':' :: (' ' :: '\x7b' :: optionsTail (g ++ v)) ++ cs)) b := by
  have hself : "options".toList.all standsForItself = true := rfl
  have hkey := (quotedText_self hself).answers
  have hblank : IsGap [' '] := List.all_eq_true.1 rfl
  obtain ⟨-, hread⟩ := options_reads hg hv rfl
  have hoptions : Answers (readMembers documentForm true documentForm.blank) _ _ :=
    Answers.slot (b := fun _ => b) hkey rfl rfl isGap_nil isGap_nil
      (Reader.map_answers (hread [' '] hblank) _) hcs (by rintro _ ⟨⟩; exact hb)
  exact hoptions

/-- What is made of a document whose members are read. -/
theorem ofJson_document {members : List Char} {a : Answer (List Declaration)}
    {options : Option (Option Options)}
    (h : Answers (readMembers documentForm true documentForm.blank) members
      (a.map fun types => { options := options, types := some types })) :
    ∃ q, ofJson (String.ofList ('\x7b' :: members)) =
      (a.at q []).map fun (types, _) => ⟨options.getD none, types⟩ := by
  obtain ⟨q, hread⟩ := readRecord_answers h ⟨1, 0⟩ [] delimited_nil
  have hbrace : (Text.trimStart ('\x7b' :: members)).head? = some '\x7b' :=
    head?_trimStart_gap isGap_nil rfl
  refine ⟨q, ?_⟩
  rw [List.append_nil] at hread
  simp only [ofJson, String.toList_ofList, hbrace, Option.some.injEq, Cursor.start, hread]
  rcases a with ⟨path, cause⟩ | types <;> rfl

/-- What is made of an array that stands alone. -/
theorem ofJson_array {g members g' : List Char} {a : Answer (List Declaration)} (hg : IsGap g)
    (hg' : IsGap g')
    (ha : Answers (readList (readRecord declarationForm)).read (g ++ '[' :: members) a) :
    ∃ q, ofJson (String.ofList (g ++ '[' :: members ++ g')) =
      (a.at q g').map fun (types, _) => ⟨none, types⟩ := by
  obtain ⟨q, hread⟩ := ha ⟨1, 0⟩ g' (delimited_of_isGap hg')
  have hbracket : (Text.trimStart (g ++ '[' :: members ++ g')).head? = some '[' := by
    rw [List.append_assoc]
    exact head?_trimStart_gap hg rfl
  refine ⟨q, ?_⟩
  simp only [ofJson, String.toList_ofList, hbracket, if_true, Cursor.start, hread]

section

variable {array : String} {g members g' : List Char} {a : Answer (List Declaration)}

theorem ofJson_typesDocument (htext : array.toList = g ++ '[' :: members ++ g') (hg' : IsGap g')
    (ha : Answers (readList (readRecord declarationForm)).read (' ' :: g ++ '[' :: members) a) :
    ∃ q, ofJson (typesDocument array) =
      ((a.within (.key "types")).at q []).map fun (types, _) => ⟨none, types⟩ := by
  have hfresh : IsSeparator true [] := isGap_nil
  have htypes : Answers (readMembers documentForm true documentForm.blank) _ _ :=
    types_answers hfresh rfl hg' ha
  obtain ⟨q, hq⟩ := ofJson_document htypes
  refine ⟨q, (congrArg ofJson (String.toList_injective ?_)).trans hq⟩
  simp [typesDocument, htext]

theorem ofJson_supportDocument {s path : String} {gs v : List Char}
    (htext : array.toList = g ++ '[' :: members ++ g') (hg' : IsGap g')
    (ha : Answers (readList (readRecord declarationForm)).read (' ' :: g ++ '[' :: members) a)
    (hs : s.toList = gs ++ v) (hgs : IsGap gs) (hv : readString.Reads (· = v) path) :
    ∃ q, ofJson (supportDocument s array) =
      ((a.within (.key "types")).at q []).map fun (types, _) => ⟨some ⟨path⟩, types⟩ := by
  have hcomma : IsSeparator false [',', ' '] :=
    ⟨[], [' '], isGap_nil, List.all_eq_true.1 rfl, rfl⟩
  have htypes : Answers (readMembers documentForm false { options := some (some ⟨path⟩) }) _ _ :=
    types_answers hcomma rfl hg' ha
  have hoptions := options_answers hgs hv (hcomma.delimited _) htypes
  obtain ⟨q, hq⟩ := ofJson_document hoptions
  refine ⟨q, (congrArg ofJson (String.toList_injective ?_)).trans hq⟩
  simp [supportDocument, optionsTail, htext, hs]

end

/-- The text of a path in a document is `types` and the text of the path in the array. -/
theorem pathText_types (i : Nat) (tail : List Segment) :
    Json.pathText (.key "types" :: .index i :: tail) =
      "types" ++ Json.pathText (.index i :: tail) := by
  simp [Json.pathText, Json.pathText.first, Json.pathText.later, String.append_assoc]

/-- **Both shapes of a manifest are read in the same way.** An array of declarations is read alone
if and only if it is read as the `types` of a document, and the declarations are the same; a failure
in a document has the same cause, and its path is `types` and the path in the array. -/
theorem ofJson_shapes {array s path : String} {q : Position} (harray : IsArrayText array.toList)
    (hs : readString.read (.start s.toList) = .ok (path, ⟨q, []⟩)) :
    (∃ types, ofJson array = .ok ⟨none, types⟩ ∧
      ofJson (typesDocument array) = .ok ⟨none, types⟩ ∧
      ofJson (supportDocument s array) = .ok ⟨some ⟨path⟩, types⟩) ∨
    ∃ f f₁ f₂, ofJson array = .error f ∧
      ofJson (typesDocument array) = .error f₁ ∧ ofJson (supportDocument s array) = .error f₂ ∧
      f₁.path = .key "types" :: f.path ∧ f₂.path = .key "types" :: f.path ∧
      Json.pathText f₁.path = "types" ++ Json.pathText f.path ∧
      Json.pathText f₂.path = "types" ++ Json.pathText f.path ∧
      f₁.fault.cause = f.fault.cause ∧ f₂.fault.cause = f.fault.cause := by
  obtain ⟨g, members, g', hg, hmembers, hg', htext⟩ := harray
  obtain ⟨gs, v, hgs, hv, hread⟩ := reads_of_readString hs
  obtain ⟨a, ha, hpath⟩ := declarations_answers hmembers
  have hblank : IsGap [' '] := List.all_eq_true.1 rfl
  obtain ⟨q₀, h₀⟩ := ofJson_array hg hg' (ha g hg)
  obtain ⟨q₁, h₁⟩ := ofJson_typesDocument htext hg' (ha _ (hblank.append hg))
  obtain ⟨q₂, h₂⟩ := ofJson_supportDocument htext hg' (ha _ (hblank.append hg)) hv hgs hread
  rw [← htext, String.ofList_toList] at h₀
  rcases a with ⟨tail, cause⟩ | types
  · obtain ⟨i, tail, rfl⟩ := hpath _ _ rfl
    have htext := pathText_types i tail
    exact .inr ⟨_, _, _, h₀, h₁, h₂, rfl, rfl, htext, htext, rfl, rfl⟩
  · exact .inl ⟨types, h₀, h₁, h₂⟩

/-- An array with a declaration whose name is a number. -/
def numberedArray : String :=
  " [\x7b\"name\": 7\x7d]\n"

theorem numberedArray_isArrayText : IsArrayText numberedArray.toList := by
  have hkey : IsQuoted "name\"".toList :=
    .plain (by decide) (by decide) (by decide) <|
      .plain (by decide) (by decide) (by decide) <|
        .plain (by decide) (by decide) (by decide) <|
          .plain (by decide) (by decide) (by decide) .close
  have hblank : IsGap [' '] := List.all_eq_true.1 rfl
  have hfresh : IsSeparator true [] := isGap_nil
  have hmember : IsMembers .map true "\"name\": 7\x7d".toList :=
    .scalar hfresh (.map hkey isGap_nil hblank) (.number (digits_isNumber 7)) (.close isGap_nil)
  have hmembers : IsMembers .list true "\x7b\"name\": 7\x7d]".toList :=
    .nested hfresh .list hmember (.close isGap_nil)
  exact ⟨[' '], _, ['\n'], hblank, hmembers, List.all_eq_true.1 rfl, rfl⟩

theorem numberedArray_shapes :
    IsArrayText numberedArray.toList ∧
      readString.read (.start "\"crate::\\u0073upport\"".toList) =
        .ok ("crate::support", ⟨⟨1, 21⟩, []⟩) ∧
      ∃ f f₁ f₂, ofJson numberedArray = .error f ∧ Json.pathText f.path = "[0].name" ∧
        ofJson (typesDocument numberedArray) = .error f₁ ∧
        Json.pathText f₁.path = "types[0].name" ∧
        ofJson (supportDocument "\"crate::\\u0073upport\"" numberedArray) = .error f₂ ∧
        Json.pathText f₂.path = "types[0].name" := by
  have hs : readString.read (.start "\"crate::\\u0073upport\"".toList) =
      .ok ("crate::support", ⟨⟨1, 21⟩, []⟩) := by decide +kernel
  refine ⟨numberedArray_isArrayText, hs, ?_⟩
  have hpath : (ofJson numberedArray).mapError (Json.pathText ·.path) = .error "[0].name" := by
    decide +kernel
  obtain ⟨types, h, -⟩ | ⟨f, f₁, f₂, h, h₁, h₂, -, -, hpath₁, hpath₂, -⟩ :=
    ofJson_shapes numberedArray_isArrayText hs
  · rw [h] at hpath
    cases hpath
  · rw [h] at hpath
    have hf : Json.pathText f.path = "[0].name" := Except.error.inj hpath
    exact ⟨f, f₁, f₂, h, hf, h₁, by rw [hpath₁, hf]; rfl, h₂, by rw [hpath₂, hf]; rfl⟩

end FieldRules.Manifest
