import FieldRules.Proofs.Tag.Entry
import FieldRules.Proofs.Tag.Splitting

/-!
# Canonical tags

`Validation.text` writes a validation as an entry. What an entry can state is `Representable`: every
validation that is read is (`representable_of_ofEntry`), and the text of a representable one is read
as that validation again (`ofEntry_text`). No other text of a validation is, which makes the two
inverse to each other exactly on representable validations (`ofEntry_text_eq_ok_iff`).

A tag is made of such texts with commas between them. The splitting of tags and the reading of lists
have different rules for quotes, and splitting looks at the character in front of an apostrophe,
which writing changes. `validations_canonical` says that the two still agree on what is written:
the canonical tag of the validations of a tag has their texts as its entries, and states them again.
-/

namespace FieldRules

open Text

/-! ### Lists of targets -/

namespace Tag

/-- Texts between apostrophes, with spaces between them. -/
def apostrophedTexts (texts : List (List Char)) : List Char :=
  [' '].intercalate (texts.map fun text => '\'' :: (text ++ ['\'']))

variable {text : List Char} {texts : List (List Char)}

theorem apostrophedTexts_singleton (text : List Char) :
    apostrophedTexts [text] = '\'' :: (text ++ ['\'']) := by
  simp [apostrophedTexts, List.intercalate_singleton]

theorem apostrophedTexts_cons_cons (text next : List Char) (texts : List (List Char)) :
    apostrophedTexts (text :: next :: texts) =
      '\'' :: (text ++ '\'' :: ' ' :: apostrophedTexts (next :: texts)) := by
  simp [apostrophedTexts, List.intercalate_cons_cons]

/-- Such texts begin and end with an apostrophe. -/
theorem exists_apostrophedTexts (h : texts ≠ []) :
    ∃ middle, apostrophedTexts texts = ['\''] ++ middle ++ ['\''] := by
  induction texts with
  | nil => exact absurd rfl h
  | cons text texts ih =>
    cases texts with
    | nil => exact ⟨text, apostrophedTexts_singleton text⟩
    | cons next texts =>
      obtain ⟨middle, hmiddle⟩ := ih (List.cons_ne_nil next texts)
      refine ⟨text ++ '\'' :: ' ' :: ('\'' :: middle), ?_⟩
      rw [apostrophedTexts_cons_cons, hmiddle]
      simp

theorem not_mem_apostrophedTexts {c : Char} (hquote : c ≠ '\'') (hspace : c ≠ ' ')
    (h : ∀ text ∈ texts, c ∉ text) : c ∉ apostrophedTexts texts := by
  induction texts with
  | nil => exact List.not_mem_nil
  | cons text texts ih =>
    obtain ⟨htext, htexts⟩ := List.forall_mem_cons.1 h
    cases texts with
    | nil => simp [apostrophedTexts_singleton, hquote, htext]
    | cons next texts =>
      rw [apostrophedTexts_cons_cons]
      simp [hquote, hspace, htext, ih htexts]

/-- Texts between apostrophes are a quoted list. -/
theorem quotedList_apostrophedTexts (h : ∀ text ∈ texts, '\'' ∉ text) :
    QuotedList texts (apostrophedTexts texts) := by
  induction texts with
  | nil => exact .nil
  | cons text texts ih =>
    obtain ⟨htext, htexts⟩ := List.forall_mem_cons.1 h
    cases texts with
    | nil =>
      rw [apostrophedTexts_singleton]
      exact .cons htext (List.forall_mem_nil _) .nil
    | cons next texts =>
      have hspace : ∀ b ∈ [' '], isBlank b = true := List.forall_mem_singleton.2 rfl
      rw [apostrophedTexts_cons_cons]
      exact .cons htext hspace (ih htexts)

/-- They are trimmed. -/
theorem trim_apostrophedTexts (texts : List (List Char)) :
    trim (apostrophedTexts texts) = apostrophedTexts texts := by
  by_cases hne : texts = []
  · rw [hne]
    rfl
  · obtain ⟨middle, hmiddle⟩ := exists_apostrophedTexts hne
    rw [hmiddle]
    exact trim_append_append middle (by simp) (by simp) rfl rfl

/-- A list of targets is read from the text that writes it. -/
theorem targetList_apostrophedTexts {op : Operation} {values : List String} (hne : values ≠ [])
    (h : ∀ value ∈ values, '\'' ∉ value.toList) :
    targetList op (apostrophedTexts (values.map String.toList)) = .ok values := by
  have htexts : values.map String.toList ≠ [] := mt List.map_eq_nil_iff.1 hne
  obtain ⟨middle, hmiddle⟩ := exists_apostrophedTexts htexts
  have hquote : '\'' ∈ apostrophedTexts (values.map String.toList) := by simp [hmiddle]
  rw [targetList_eq_ok_iff hquote (trim_apostrophedTexts _)]
  exact quotedList_apostrophedTexts (List.forall_mem_map.2 h)

/-- Each of the texts stands among them. -/
theorem infix_apostrophedTexts (h : text ∈ texts) :
    text <:+: apostrophedTexts texts := by
  induction texts with
  | nil => cases h
  | cons first rest ih =>
    have hfirst : ∀ behind, first <:+: '\'' :: (first ++ '\'' :: behind) :=
      fun behind => ⟨['\''], '\'' :: behind, by simp⟩
    cases rest with
    | nil =>
      obtain rfl := List.mem_singleton.1 h
      rw [apostrophedTexts_singleton]
      exact hfirst []
    | cons next rest =>
      rw [apostrophedTexts_cons_cons]
      rcases List.mem_cons.1 h with rfl | h
      · exact hfirst _
      · have hbehind : apostrophedTexts (next :: rest) <:+
            '\'' :: (first ++ '\'' :: ' ' :: apostrophedTexts (next :: rest)) :=
          ⟨'\'' :: (first ++ ['\'', ' ']), by simp⟩
        exact (ih h).trans hbehind.isInfix

/-- Texts between apostrophes are a piece, whatever commas they hold. -/
theorem isPiece_apostrophedTexts {previous : Option Char} (hopens : opensQuote previous = true)
    (h : ∀ text ∈ texts, '\'' ∉ text) : IsPiece false previous (apostrophedTexts texts) := by
  have hrest := (quotedList_apostrophedTexts h).isPiece_append hopens []
  rw [List.append_nil] at hrest
  exact hrest.2 (isPiece_nil.2 rfl)

end Tag

/-! ### What an entry can state -/

namespace Validation

/-- The validation can be written as an entry. -/
inductive Representable (v : Validation) : Prop where
  /-- The name alone. -/
  | zero : v.operation.arity = .zero → v.values = [] → Representable v
  /-- The name and a trimmed target. -/
  | one {value : String} : v.operation.arity = .one → v.values = [value] → value ≠ "" →
      trim value.toList = value.toList → '=' ∉ value.toList → Representable v
  /-- The name and a list of targets between apostrophes. -/
  | many : v.operation.arity = .many → v.values ≠ [] →
      (∀ value ∈ v.values, '\'' ∉ value.toList ∧ '=' ∉ value.toList) → Representable v

variable {v : Validation} {entry : String}

theorem toList_text_zero (h : v.operation.arity = .zero) :
    v.text.toList = v.operation.name.toList := by
  simp only [text, h]

theorem toList_text_one {value : String} (h : v.operation.arity = .one)
    (hvalue : v.values = [value]) :
    v.text.toList = v.operation.name.toList ++ '=' :: value.toList := by
  simp [text, h, hvalue, String.join]

theorem toList_apostrophedList (values : List String) :
    (apostrophedList values).toList = Tag.apostrophedTexts (values.map String.toList) := by
  have hquote : ∀ value : String,
      (apostrophed value).toList = '\'' :: (value.toList ++ ['\'']) := by
    simp [apostrophed]
  simp [apostrophedList, Tag.apostrophedTexts, String.toList_intercalate, hquote,
    Function.comp_def]

theorem toList_text_many (h : v.operation.arity = .many) :
    v.text.toList =
      v.operation.name.toList ++ '=' :: Tag.apostrophedTexts (v.values.map String.toList) := by
  simp [text, h, toList_apostrophedList]

/-- What is read from an entry can be written as one. -/
theorem representable_of_ofEntry (h : ofEntry entry = .ok v) : v.Representable := by
  obtain ⟨target, hnames, htargets⟩ := ofEntry_eq_ok_iff.1 h
  obtain ⟨htrim, hequals⟩ := hnames.plain
  have harity := hasArity_of_ofEntry h
  unfold HasArity at harity
  cases hop : v.operation.arity with
  | zero =>
    rw [hop] at harity
    exact .zero hop harity
  | one =>
    obtain ⟨hne, hvalues⟩ := (Tag.targets_one_eq_ok_iff hop).1 htargets
    refine .one hop hvalues ?_ ?_ ?_
    · rwa [Ne, String.ofList_eq_empty_iff]
    · rw [String.toList_ofList, htrim]
    · rwa [String.toList_ofList]
  | many =>
    rw [Tag.targets, hop] at htargets
    rw [hop] at harity
    exact .many hop harity (Tag.forall_mem_targetList htargets htrim hequals)

/-- **The text of what can be written is read as it was.** -/
theorem ofEntry_text (h : v.Representable) : ofEntry v.text = .ok v := by
  obtain ⟨-, -, -, hname, -⟩ := v.operation.name_plain
  rw [ofEntry_eq_ok_iff]
  cases h with
  | zero hop hvalues =>
    refine ⟨[], .alone ?_, ?_⟩
    · rw [toList_text_zero hop, hname]
    · rw [Tag.targets, hop, hvalues]
      rfl
  | one hop hvalues hne htrim hequals =>
    refine ⟨_, .before (toList_text_one hop hvalues) hequals hname, ?_⟩
    rw [Tag.targets_one_eq_ok_iff hop, htrim, hvalues, String.ofList_toList]
    exact ⟨mt String.toList_eq_nil_iff.1 hne, rfl⟩
  | many hop hne hplain =>
    have hequals : ∀ text ∈ v.values.map String.toList, '=' ∉ text :=
      List.forall_mem_map.2 fun value hvalue => (hplain value hvalue).2
    refine ⟨_, .before (toList_text_many hop)
      (Tag.not_mem_apostrophedTexts (by decide) (by decide) hequals) hname, ?_⟩
    rw [Tag.targets, hop, Tag.trim_apostrophedTexts]
    exact Tag.targetList_apostrophedTexts hne fun value hvalue => (hplain value hvalue).1

/-- **Texts and entries are inverse exactly on what can be written.** The text of a validation is read
as that validation if and only if it is representable, and nothing else is ever read: what an entry
states is representable, and its text states it again. -/
theorem ofEntry_text_eq_ok_iff :
    (∀ v : Validation, ofEntry v.text = .ok v ↔ v.Representable) ∧
      ∀ entry v, ofEntry entry = .ok v → v.Representable ∧ ofEntry v.text = .ok v := by
  constructor
  · intro v
    constructor
    · exact representable_of_ofEntry
    · exact ofEntry_text
  · intro entry v h
    have hv := representable_of_ofEntry h
    exact ⟨hv, ofEntry_text hv⟩

/-- Words with commas between them are written between apostrophes. -/
theorem words_read_back :
    ofEntry " in = red,, green " = .ok ⟨.member false, ["red", "green"]⟩ ∧
      ofEntry "in='red' 'green'" = .ok ⟨.member false, ["red", "green"]⟩ := by
  have hwords : ofEntry " in = red,, green " = .ok ⟨.member false, ["red", "green"]⟩ := by decide
  exact ⟨hwords, (ofEntry_text_eq_ok_iff.2 _ _ hwords).2⟩

/-! ### Texts as entries of a tag -/

/-- The text of what can be written is not empty, and has no blanks around it. -/
theorem trim_text (h : v.Representable) : trim v.text.toList = v.text.toList ∧ v.text ≠ "" := by
  obtain ⟨-, -, -, htrim, hname⟩ := v.operation.name_plain
  have hname' : v.operation.name.toList ≠ [] := mt String.toList_eq_nil_iff.1 hname
  have hne : ∀ {rest}, v.text.toList = v.operation.name.toList ++ rest → v.text ≠ "" := by
    intro rest htext hempty
    rw [hempty] at htext
    exact hname' (List.append_eq_nil_iff.1 htext.symm).1
  cases h with
  | zero hop _ =>
    have htext := toList_text_zero hop
    exact ⟨by rw [htext, htrim], hne (htext.trans (List.append_nil _).symm)⟩
  | @one value hop hvalues hvalue htrimmed _ =>
    have htext := toList_text_one hop hvalues
    refine ⟨?_, hne htext⟩
    rw [htext, List.append_cons]
    exact trim_append_append ['='] hname' (mt String.toList_eq_nil_iff.1 hvalue) htrim htrimmed
  | many hop hvalues _ =>
    have htext := toList_text_many hop
    have htexts : v.values.map String.toList ≠ [] := mt List.map_eq_nil_iff.1 hvalues
    have hlist : Tag.apostrophedTexts (v.values.map String.toList) ≠ [] := by
      obtain ⟨middle, hmiddle⟩ := Tag.exists_apostrophedTexts htexts
      simp [hmiddle]
    refine ⟨?_, hne htext⟩
    rw [htext, List.append_cons]
    exact trim_append_append ['='] hname' hlist htrim (Tag.trim_apostrophedTexts _)

/-- **The text of a validation is a piece of a tag, if the entry that it was read from is.** -/
theorem isPiece_text (h : ofEntry entry = .ok v) (hentry : Tag.IsPiece false none entry.toList) :
    Tag.IsPiece false none v.text.toList := by
  obtain ⟨hcomma, hquote, -⟩ := v.operation.name_plain
  have hname : ∀ {target}, Tag.IsPiece false none (v.operation.name.toList ++ '=' :: target) ↔
      Tag.IsPiece false (some '=') target :=
    Tag.isPiece_append_plain hcomma hquote (by decide)
  cases representable_of_ofEntry h with
  | zero hop _ =>
    rw [toList_text_zero hop]
    exact Tag.isPiece_plain hcomma hquote
  | @one value hop hvalues hvalue _ _ =>
    rw [toList_text_one hop hvalues, hname]
    obtain ⟨target, hnames, htargets⟩ := ofEntry_eq_ok_iff.1 h
    have htarget : value.toList = target := by
      obtain ⟨-, hread⟩ := (Tag.targets_one_eq_ok_iff hop).1 htargets
      rw [hvalues] at hread
      rw [List.singleton_inj.1 hread, String.toList_ofList]
    cases hnames with
    | alone _ => exact absurd (String.toList_eq_nil_iff.1 htarget) hvalue
    | before htext _ htrim =>
      -- The entry has the same target, with blanks around it, behind the same equals sign.
      obtain ⟨hcomma', hquote', -⟩ := Operation.plain_of_trim_eq_name htrim
      rw [htext, Tag.isPiece_append_plain hcomma' hquote' (by decide)] at hentry
      rw [htarget]
      exact (Tag.isPiece_trim rfl).2 hentry
  | many hop _ hplain =>
    rw [toList_text_many hop, hname]
    exact Tag.isPiece_apostrophedTexts rfl
      (List.forall_mem_map.2 fun value hvalue => (hplain value hvalue).1)

end Validation

namespace Tag

/-- **A canonical tag has the texts of the validations as its entries, and states them again.** The
separator may be a comma alone, or a comma and any blanks. -/
theorem validations_canonical {tag : String} {vs : List Validation} {blanks : List Char}
    (h : validations tag = .ok vs) (hblanks : ∀ b ∈ blanks, isBlank b = true) :
    entries ((String.ofList (',' :: blanks)).intercalate (vs.map Validation.text)) =
        .ok (vs.map Validation.text) ∧
      validations ((String.ofList (',' :: blanks)).intercalate (vs.map Validation.text)) =
        .ok vs := by
  obtain ⟨es, hes, hvs⟩ := validations_eq_ok_iff.1 h
  have hentries : entries ((String.ofList (',' :: blanks)).intercalate (vs.map Validation.text)) =
      .ok (vs.map Validation.text) := by
    refine entries_intercalate hblanks (List.forall_mem_map.2 fun v hv => ?_)
    obtain ⟨e, he, hev⟩ := forall₂_mem_right hvs hv
    exact ⟨Validation.isPiece_text hev (isPiece_of_mem_entries hes he rfl),
      Validation.trim_text (Validation.representable_of_ofEntry hev)⟩
  refine ⟨hentries, validations_eq_ok_iff.2 ⟨_, hentries, ?_⟩⟩
  rw [List.forall₂_map_left_iff, List.forall₂_same]
  intro v hv
  obtain ⟨e, -, hev⟩ := forall₂_mem_right hvs hv
  exact Validation.ofEntry_text (Validation.representable_of_ofEntry hev)

/-- Commas and tabs between quotes, and an apostrophe inside of a word. -/
theorem membership_canonical :
    validations "in = 'it, is'\t'\tno' ,, eq= o'neil,required=" =
        .ok [⟨.member false, ["it, is", "\tno"]⟩, ⟨.compare .eq, ["o'neil"]⟩, ⟨.required, []⟩] ∧
      validations "in='it, is' '\tno', eq=o'neil, required" =
        .ok [⟨.member false, ["it, is", "\tno"]⟩, ⟨.compare .eq, ["o'neil"]⟩, ⟨.required, []⟩] ∧
      validations "in='it, is' '\tno',eq=o'neil,required" =
        .ok [⟨.member false, ["it, is", "\tno"]⟩, ⟨.compare .eq, ["o'neil"]⟩, ⟨.required, []⟩] := by
  have hvs : validations "in = 'it, is'\t'\tno' ,, eq= o'neil,required=" =
      .ok [⟨.member false, ["it, is", "\tno"]⟩, ⟨.compare .eq, ["o'neil"]⟩, ⟨.required, []⟩] := by
    decide
  have hspace : ∀ b ∈ [' '], isBlank b = true := List.forall_mem_singleton.2 rfl
  have hnone : ∀ b ∈ ([] : List Char), isBlank b = true := List.forall_mem_nil _
  exact ⟨hvs, (validations_canonical hvs hspace).2, (validations_canonical hvs hnone).2⟩

end Tag

end FieldRules
