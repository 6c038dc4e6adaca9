import FieldRules.Proofs.Analysis.Attached
import FieldRules.Proofs.FieldType.Spelling

/-!
# Nested containers

Only one container is peeled off a spelling, and only one option around it. What then still has the
form of a container or an option is no primitive: its brackets are in no name of a primitive, and it
does not begin like a reference, so that none of it is cut off (`categoryOf_of_hasContainerForm`).
A field whose type is such a container cannot have any entry in its tag (`nested_container_rejected`).
-/

namespace FieldRules

open Text

namespace FieldType

variable {base inside cs : List Char} {shape : Shape}

/-! ### The base type -/

/-- The text has the form of an option, a list, an array or a dictionary. Any text may stand where
the length of an array does: digits of every script, and numbers that are too large to be read. -/
inductive HasContainerForm (cs : List Char) : Prop where
  /-- As `name<inside>`. -/
  | applied {inside : List Char} : Applied genericNames inside cs → HasContainerForm cs
  /-- As `[element; length]`. -/
  | array {element length : List Char} : cs = '[' :: (element ++ ';' :: length ++ [']']) →
      HasContainerForm cs

theorem HasContainerForm.trim_eq (h : HasContainerForm cs) : trim cs = cs := by
  cases h with
  | applied happlied => exact happlied.trim_eq fun _ hname => hname
  | @array element length hcs =>
    rw [hcs]
    exact trim_append_append (element ++ ';' :: length) (List.cons_ne_nil '[' [])
      (List.cons_ne_nil ']' []) (by decide) (by decide)

/-- It begins with a letter or a bracket, so it is no reference. -/
theorem HasContainerForm.head?_ne (h : HasContainerForm cs) : cs.head? ≠ some '&' := by
  cases h with
  | @applied inside happlied =>
    obtain ⟨name, hname, blanks, -, rfl⟩ := happlied
    have hheads : ∀ name ∈ genericNames, name.toList.head? ≠ some '&' := by decide +kernel
    rw [List.append_assoc, List.head?_append_of_ne_nil _ (genericNames_plain name hname).1]
    exact hheads name hname
  | array hcs =>
    rw [hcs]
    exact nofun

theorem HasContainerForm.bracket_mem (h : HasContainerForm cs) : '<' ∈ cs ∨ '[' ∈ cs := by
  cases h with
  | applied happlied =>
    obtain ⟨name, -, blanks, -, rfl⟩ := happlied
    exact .inl (by simp)
  | array hcs => exact .inr (by simp [hcs])

theorem HasContainerForm.ne_nil (h : HasContainerForm cs) : cs ≠ [] := by
  rintro rfl
  rcases h.bracket_mem with hmem | hmem <;> cases hmem

/-- What does not begin with an ampersand refers to itself. -/
theorem referent_of_head?_ne (h : (trim cs).head? ≠ some '&') : referent cs = trim cs := by
  unfold referent
  split
  case h_1 rest heq => exact absurd (congrArg List.head? heq) h
  case h_2 => rfl

/-- **A container is no primitive.** -/
theorem categoryOf_of_hasContainerForm (h : HasContainerForm cs) : categoryOf cs = .other := by
  have hself : referent cs = cs := by
    rw [referent_of_head?_ne (by rw [h.trim_eq]; exact h.head?_ne), h.trim_eq]
  have hplain : ∀ category ∈ Category.all, ∀ name ∈ primitiveNames category,
      '<' ∉ name.toList ∧ '[' ∉ name.toList := by
    decide +kernel
  have hnone : ∀ category ∈ Category.all,
      ¬ (primitiveNames category).contains (String.ofList cs) = true := by
    intro category hcategory hname
    obtain ⟨hless, hsquare⟩ := hplain category hcategory _ (List.contains_iff_mem.1 hname)
    rw [String.toList_ofList] at hless hsquare
    exact h.bracket_mem.elim hless hsquare
  rw [categoryOf, hself, List.find?_eq_none.2 hnone]
  rfl

/-! ### Spellings -/

/-- The text is `cs`, or an option around it. Blanks may stand between the two. -/
inductive PerhapsOptional (cs : List Char) : List Char → Prop where
  /-- By itself. -/
  | bare : PerhapsOptional cs cs
  /-- As `Option<cs>`. -/
  | option {inside wrapped : List Char} : Padded cs inside → '\n' ∉ inside →
      Applied optionNames inside wrapped → PerhapsOptional cs wrapped

/-- Blanks around a spelling do not matter. -/
theorem ofSpelling_ofList_trim (raw : String) :
    ofSpelling (String.ofList (trim raw.toList)) = ofSpelling raw := by
  simp [ofSpelling]

/-- A list, an array or a dictionary of containers is read as such, with all of the inner container
as its base type. -/
theorem ofSpelling_of_nested {raw : String} (hbase : HasContainerForm base)
    (hspells : Spells base shape cs) (hline : '\n' ∉ cs)
    (hraw : PerhapsOptional cs (trim raw.toList)) :
    (ofSpelling raw).category = .other ∧ (ofSpelling raw).shape = shape := by
  have hother := categoryOf_of_hasContainerForm hbase
  obtain ⟨hbare, hoption⟩ := ofSpelling_of_spells hbase.ne_nil hbase.trim_eq hline hspells
  rw [← ofSpelling_ofList_trim]
  generalize trim raw.toList = text at hraw
  cases hraw with
  | bare =>
    rw [hbare]
    exact ⟨hother, rfl⟩
  | option hpadded hinside happlied =>
    rw [hoption _ _ hpadded hinside happlied]
    exact ⟨hother, rfl⟩

/-- An option of an option is a plain type, with the inner option as its base type. -/
theorem ofSpelling_of_option_option {inner : List Char} {raw : String}
    (hbase : Applied optionNames inner base) (hpadded : Padded base inside) (hline : '\n' ∉ inside)
    (hraw : Applied optionNames inside (trim raw.toList)) : (ofSpelling raw).category = .other := by
  have hform : HasContainerForm base := .applied (hbase.mono optionNames_subset)
  have houter : argumentsOfAny optionNames (trim raw.toList) = some inside :=
    (argumentsOfAny_eq_some_iff optionNames_subset).2
      ⟨hraw, isArgument_iff.2 ⟨hpadded.ne_nil hform.ne_nil, hline⟩⟩
  have hshape : shapeOf base = (.plain, base) := by
    rw [shapeOf,
      argumentsOfAny_eq_none optionNames_subset listNames_subset (by decide +kernel) hbase,
      arrayParts_eq_none_of_applied optionNames_subset hbase,
      argumentsOfAny_eq_none optionNames_subset dictNames_subset (by decide +kernel) hbase]
  simp only [ofSpelling, houter, Option.map_some, Option.getD_some, hpadded.trim_eq hform.trim_eq,
    hshape]
  exact categoryOf_of_hasContainerForm hform

end FieldType

/-! ### Entries -/

/-- A container of something else than primitives understands no validation at all, so that its
field can have no entry in its tag. -/
theorem exists_fault_of_nested {types : List Declaration} {d : Declaration} {field : Field}
    (hd : d ∈ types) (hfield : field ∈ d.fields) (hnested : field.fieldType.isPrimitive = false)
    (hshape : field.fieldType.shape ≠ .plain) (hentries : Tag.entries field.tag ≠ .ok []) :
    ∃ fault, analyze types = .error fault := by
  cases h : analyze types with
  | error fault => exact ⟨fault, rfl⟩
  | ok analyzed =>
    obtain ⟨scope, -, hall⟩ := analyze_eq_ok_iff.1 h
    obtain ⟨annotated, -, fields, hfields, -⟩ := forall₂_mem_right hall.flip hd
    obtain ⟨field', -, hfield'⟩ := forall₂_mem_right hfields.flip hfield
    obtain ⟨rules, ⟨vs, hvs, hrules⟩, rfl⟩ := id hfield'
    obtain ⟨es, hes, hread⟩ := Tag.validations_eq_ok_iff.1 hvs
    have hne : rules ≠ [] := by
      rintro rfl
      rw [List.forall₂_nil_right_iff] at hrules
      rw [hrules, List.forall₂_nil_right_iff] at hread
      exact hentries (hread ▸ hes)
    obtain ⟨rule, hrule⟩ := List.exists_mem_of_ne_nil _ hne
    exact absurd (Analysis.AnnotatesField.required_of_nested hfield' hrule hnested).2 hshape

/-- **Nested containers are not looked into.** A list, an array or a dictionary of containers or
options is no primitive, and neither is an option around it or an option of an option. Declarations
that annotate a field of such a list, array or dictionary are rejected. -/
theorem nested_containers_rejected {base : List Char} (hbase : FieldType.HasContainerForm base) :
    (∀ shape cs raw, shape ≠ .plain → FieldType.Spells base shape cs → '\n' ∉ cs →
      FieldType.PerhapsOptional cs (trim raw.toList) →
        (FieldType.ofSpelling raw).isPrimitive = false ∧
        ∀ types : List Declaration, ∀ d ∈ types, ∀ field ∈ d.fields, field.type = raw →
          Tag.entries field.tag ≠ .ok [] → ∃ fault, analyze types = .error fault) ∧
    ∀ inner inside raw, FieldType.Applied FieldType.optionNames inner base →
      FieldType.Padded base inside → '\n' ∉ inside →
      FieldType.Applied FieldType.optionNames inside (trim raw.toList) →
        (FieldType.ofSpelling raw).isPrimitive = false := by
  constructor
  · intro shape cs raw hshape hspells hline hraw
    obtain ⟨hother, hread⟩ := FieldType.ofSpelling_of_nested hbase hspells hline hraw
    have hnested := FieldType.isPrimitive_eq_false_iff.2 hother
    refine ⟨hnested, fun types d hd field hfield htype hentries => ?_⟩
    obtain rfl : field.type = raw := htype
    exact exists_fault_of_nested hd hfield hnested (hread ▸ hshape) hentries
  · intro inner inside raw hoption hpadded hline hraw
    exact FieldType.isPrimitive_eq_false_iff.2
      (FieldType.ofSpelling_of_option_option hoption hpadded hline hraw)

/-- A dictionary whose keys are arrays of pairs, in an option, and an option of an option. -/
theorem grid_rejected :
    (FieldType.ofSpelling " Option<HashMap< [(u8, i8); 3] ,f64> >").isPrimitive = false ∧
    (∃ fault, analyze [⟨"Grid", "", none,
      [⟨"cells", " Option<HashMap< [(u8, i8); 3] ,f64> >", "required", []⟩], false⟩] =
        .error fault) ∧
    (FieldType.ofSpelling "Option<std::option::Option<u8>>").isPrimitive = false := by
  have harray : FieldType.HasContainerForm "[(u8, i8); 3]".toList :=
    @FieldType.HasContainerForm.array _ "(u8, i8)".toList " 3".toList (by decide +kernel)
  have hoption : FieldType.Applied FieldType.optionNames "u8".toList
      "std::option::Option<u8>".toList :=
    ⟨"std::option::Option", by decide +kernel, [], List.forall_mem_nil _, by decide +kernel⟩
  have hspells : FieldType.Spells "[(u8, i8); 3]".toList .dict
      "HashMap< [(u8, i8); 3] ,f64>".toList := by
    refine @FieldType.Spells.dict _ " [(u8, i8); 3] ".toList "f64".toList _ ?_ (by decide +kernel) ?_
    · exact ⟨[' '], [' '], List.forall_mem_singleton.2 rfl, List.forall_mem_singleton.2 rfl,
        by decide +kernel⟩
    · exact ⟨"HashMap", by decide +kernel, [], List.forall_mem_nil _, by decide +kernel⟩
  have hraw : FieldType.PerhapsOptional "HashMap< [(u8, i8); 3] ,f64>".toList
      (trim " Option<HashMap< [(u8, i8); 3] ,f64> >".toList) := by
    refine @FieldType.PerhapsOptional.option _ "HashMap< [(u8, i8); 3] ,f64> ".toList _ ?_
      (by decide +kernel) ?_
    · exact ⟨[], [' '], List.forall_mem_nil _, List.forall_mem_singleton.2 rfl, by decide +kernel⟩
    · exact ⟨"Option", by decide +kernel, [], List.forall_mem_nil _, by decide +kernel⟩
  obtain ⟨hnested, hrejected⟩ := (nested_containers_rejected harray).1 .dict _ _ (by decide) hspells
    (by decide +kernel) hraw
  refine ⟨hnested, ?_, ?_⟩
  · exact hrejected _ _ List.mem_cons_self _ List.mem_cons_self rfl (by decide +kernel)
  · refine (nested_containers_rejected (.applied (hoption.mono FieldType.optionNames_subset))).2 _
      "std::option::Option<u8>".toList _ hoption ?_ (by decide +kernel) ?_
    · exact ⟨[], [], List.forall_mem_nil _, List.forall_mem_nil _, by decide +kernel⟩
    · exact ⟨"Option", by decide +kernel, [], List.forall_mem_nil _, by decide +kernel⟩

end FieldRules
