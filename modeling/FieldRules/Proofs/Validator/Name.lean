import FieldRules.Validator.Name
import Mathlib.Data.List.Chain

/-!
# What a function name keeps of a type name

The name of a validator keeps the letters of the type name, and loses their case and the underscores
between them (`filter_snakeCase`). So two types share a function name only if their names agree in
that respect. Names in camel case, in which no two capitals meet, can be read back from it
(`camelCase_snakeCase`) and never share one. `validatorName_ne` puts the two together.
-/

namespace FieldRules

open Text

/-! ### Letters and underscores -/

/-- A name letter by letter in lower case, without its underscores. -/
def squeezed (name : List Char) : List Char :=
  (name.filter (· ≠ '_')).flatMap lowerChar

theorem lowerChar_underscore : lowerChar '_' = ['_'] := by
  decide +kernel

/-- No row of the table reaches the underscore. -/
theorem inRun_underscore_shift : ∀ row ∈ lowerShifts,
    inRun (('_'.toNat : Int) - row.2.2.2).toNat (row.1, row.2.1, row.2.2.1) = false := by
  decide +kernel

theorem eq_underscore_of_ofNat {n : Nat} (h : Char.ofNat n = '_') : n = '_'.toNat := by
  unfold Char.ofNat at h
  by_cases hvalid : n.isValidChar
  · rw [dif_pos hvalid] at h
    exact congrArg Char.toNat h
  · rw [dif_neg hvalid] at h
    cases h

/-- Only the underscore has an underscore in its lower case. -/
theorem underscore_notMem_lowerChar {c : Char} (h : c ≠ '_') : '_' ∉ lowerChar c := by
  unfold lowerChar
  split
  · decide
  · split
    · rename_i row hrow
      rw [List.mem_singleton]
      intro heq
      have hshift := eq_underscore_of_ofNat heq.symm
      have hc : (('_'.toNat : Int) - row.2.2.2).toNat = c.toNat := by
        have : '_'.toNat = 95 := rfl
        omega
      have hrun := inRun_underscore_shift row (List.mem_of_find?_eq_some hrow)
      rw [hc] at hrun
      have := List.find?_some hrow
      simp [hrun] at this
    · simpa using h.symm

/-- **A function name keeps the letters of the type name**, up to case and underscores. -/
theorem filter_snakeCase (previous : Option Char) (name : List Char) :
    (snakeCase previous name).filter (· ≠ '_') = squeezed name := by
  induction name generalizing previous with
  | nil => rfl
  | cons c name ih =>
    have hmark : ∀ b : Bool, (if b then ['_'] else []).filter (· ≠ '_') = [] := by decide
    rw [snakeCase, List.filter_append, List.filter_append, hmark, List.nil_append, ih]
    by_cases hc : c = '_'
    · subst hc
      rw [lowerChar_underscore]
      simp [squeezed]
    · have hkeep : (lowerChar c).filter (· ≠ '_') = lowerChar c := by
        refine List.filter_eq_self.2 fun d hd => ?_
        have hd' : d ≠ '_' := by
          rintro rfl
          exact underscore_notMem_lowerChar hc hd
        simpa using hd'
      rw [hkeep]
      simp [squeezed, hc]

theorem validatorName_eq_iff {left right : String} :
    validatorName left = validatorName right ↔
      snakeCase none left.toList = snakeCase none right.toList := by
  constructor
  · intro h
    simpa [validatorName] using congrArg String.toList h
  · intro h
    rw [validatorName, validatorName, h]

/-- Two types share a function name only if their names agree up to case and underscores. -/
theorem squeezed_eq_of_validatorName_eq {left right : String}
    (h : validatorName left = validatorName right) :
    squeezed left.toList = squeezed right.toList := by
  rw [← filter_snakeCase none, ← filter_snakeCase none, validatorName_eq_iff.1 h]

/-! ### Camel case -/

/-- A name of letters and digits that starts with a capital and has no two capitals together. -/
structure IsCamelCase (name : List Char) : Prop where
  /-- A capital comes first. -/
  starts : ∀ c ∈ name.head?, c.isUpper = true
  /-- There are only letters and digits. -/
  plain : ∀ c ∈ name, c.isAlphanum = true
  /-- No capital follows another. -/
  apart : name.IsChain fun c d => ¬ (c.isUpper = true ∧ d.isUpper = true)

instance (name : List Char) : Decidable (IsCamelCase name) :=
  haveI : DecidableRel fun c d : Char => ¬ (c.isUpper = true ∧ d.isUpper = true) :=
    fun _ _ => inferInstance
  decidable_of_iff (name.head?.all Char.isUpper = true ∧ name.all Char.isAlphanum = true ∧
      name.IsChain fun c d => ¬ (c.isUpper = true ∧ d.isUpper = true))
    ⟨fun h => ⟨(Option.all_eq_true _ _).1 h.1, List.all_eq_true.1 h.2.1, h.2.2⟩,
      fun h => ⟨(Option.all_eq_true _ _).2 h.1, List.all_eq_true.2 h.2, h.3⟩⟩

/-- Reads a name back: an underscore says that a capital follows. -/
def camelCase (capital : Bool) : List Char → List Char
  | [] => []
  | c :: cs =>
    if c = '_' then camelCase true cs
    else (if capital then c.toUpper else c) :: camelCase false cs

/-- The tables agree with the classes of plain letters and digits. -/
theorem tables_of_ofNat : ∀ n < 128, (Char.ofNat n).isAlphanum = true →
    isUppercase (Char.ofNat n) = (Char.ofNat n).isUpper ∧
      lowerChar (Char.ofNat n) = [(Char.ofNat n).toLower] ∧ (Char.ofNat n).toLower ≠ '_' ∧
      if (Char.ofNat n).isUpper then (Char.ofNat n).toLower.toUpper = Char.ofNat n
      else (Char.ofNat n).toLower = Char.ofNat n ∧
        (isLowercase (Char.ofNat n) || (Char.ofNat n).isDigit) = true := by
  decide +kernel

theorem toNat_lt_of_isAlphanum {c : Char} (h : c.isAlphanum = true) : c.toNat < 128 := by
  unfold Char.isAlphanum Char.isAlpha Char.isUpper Char.isLower Char.isDigit at h
  simp only [Bool.or_eq_true, Bool.and_eq_true, decide_eq_true_eq, ge_iff_le,
    UInt32.le_iff_toNat_le] at h
  have hc : c.toNat = c.val.toNat := rfl
  have hZ : 'Z'.val.toNat = 90 := rfl
  have hz : 'z'.val.toNat = 122 := rfl
  have h9 : '9'.val.toNat = 57 := rfl
  omega

section

variable {c : Char}

/-- A plain letter or digit is written as one character, which is no underscore. -/
theorem lowerChar_of_isAlphanum (h : c.isAlphanum = true) :
    isUppercase c = c.isUpper ∧ lowerChar c = [c.toLower] ∧ c.toLower ≠ '_' := by
  have htables := tables_of_ofNat c.toNat (toNat_lt_of_isAlphanum h)
  rw [Char.ofNat_toNat] at htables
  obtain ⟨hupper, hlower, hunderscore, -⟩ := htables h
  exact ⟨hupper, hlower, hunderscore⟩

/-- A capital is the upper case of its lower case. -/
theorem toUpper_toLower_of_isUpper (h : c.isAlphanum = true) (hupper : c.isUpper = true) :
    c.toLower.toUpper = c := by
  have htables := tables_of_ofNat c.toNat (toNat_lt_of_isAlphanum h)
  rw [Char.ofNat_toNat] at htables
  simpa [hupper] using (htables h).2.2.2

/-- Any other plain character stays as it is, and a capital behind it starts a word. -/
theorem toLower_of_not_isUpper (h : c.isAlphanum = true) (hupper : c.isUpper = false) :
    c.toLower = c ∧ ∀ next, startsWord (some c) next = true := by
  have htables := tables_of_ofNat c.toNat (toNat_lt_of_isAlphanum h)
  rw [Char.ofNat_toNat] at htables
  obtain ⟨hsame, hword⟩ : c.toLower = c ∧ (isLowercase c || c.isDigit) = true := by
    simpa [hupper] using (htables h).2.2.2
  exact ⟨hsame, fun next => by simp [startsWord, hword]⟩

end

/-- Behind the first character, a name in camel case is read back from its words. -/
theorem camelCase_snakeCase_some {previous : Char} {name : List Char}
    (hplain : ∀ c ∈ previous :: name, c.isAlphanum = true)
    (hapart : (previous :: name).IsChain fun c d => ¬ (c.isUpper = true ∧ d.isUpper = true)) :
    camelCase false (snakeCase (some previous) name) = name := by
  induction name generalizing previous with
  | nil => rfl
  | cons c name ih =>
    obtain ⟨hprevious, hplain⟩ := List.forall_mem_cons.1 hplain
    obtain ⟨htogether, hapart⟩ := List.isChain_cons_cons.1 hapart
    have hc := hplain c List.mem_cons_self
    obtain ⟨hisUpper, hlower, hunderscore⟩ := lowerChar_of_isAlphanum hc
    rw [snakeCase, hisUpper, hlower]
    cases hupper : c.isUpper with
    | true =>
      have hsmall : previous.isUpper = false := by simpa [hupper] using htogether
      have hword := (toLower_of_not_isUpper hprevious hsmall).2 name.head?
      simp [hword, camelCase, hunderscore, toUpper_toLower_of_isUpper hc hupper, ih hplain hapart]
    | false =>
      have hsame := (toLower_of_not_isUpper hc hupper).1
      rw [hsame] at hunderscore
      simp [camelCase, hsame, hunderscore, ih hplain hapart]

/-- **A name in camel case can be read back** from the name of its validator. -/
theorem camelCase_snakeCase {name : List Char} (h : IsCamelCase name) :
    camelCase true (snakeCase none name) = name := by
  obtain ⟨hstarts, hplain, hapart⟩ := h
  cases name with
  | nil => rfl
  | cons c name =>
    have hc := hplain c List.mem_cons_self
    obtain ⟨-, hlower, hunderscore⟩ := lowerChar_of_isAlphanum hc
    have hupper := hstarts c rfl
    rw [snakeCase, hlower]
    simp [startsWord, camelCase, hunderscore, toUpper_toLower_of_isUpper hc hupper,
      camelCase_snakeCase_some hplain hapart]

/-- Names that differ in more than case and underscores, or are both in camel case. -/
def FarApart (left right : String) : Prop :=
  squeezed left.toList ≠ squeezed right.toList ∨
    IsCamelCase left.toList ∧ IsCamelCase right.toList

instance (left right : String) : Decidable (FarApart left right) :=
  inferInstanceAs (Decidable (_ ∨ _))

/-- Two types with names in camel case do not share a function name. -/
theorem eq_of_validatorName_eq {left right : String} (hleft : IsCamelCase left.toList)
    (hright : IsCamelCase right.toList) (h : validatorName left = validatorName right) :
    left = right := by
  have hread := congrArg (camelCase true) (validatorName_eq_iff.1 h)
  rw [camelCase_snakeCase hleft, camelCase_snakeCase hright] at hread
  exact String.toList_inj.1 hread

/-- **Different names that are far apart belong to different functions.** -/
theorem validatorName_ne {left right : String} (hne : left ≠ right) (h : FarApart left right) :
    validatorName left ≠ validatorName right := by
  intro hsame
  rcases h with hsqueezed | ⟨hleft, hright⟩
  · exact hsqueezed (squeezed_eq_of_validatorName_eq hsame)
  · exact hne (eq_of_validatorName_eq hleft hright hsame)

end FieldRules
