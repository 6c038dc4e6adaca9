import FieldRules.Proofs.FieldType.Integer
import FieldRules.Proofs.Numeral.Decimal
import FieldRules.Proofs.Text.Blank
import FieldRules.Validator.Source

/-!
# Integer targets

A target of an integer field is a signed decimal numeral of a number within the bounds, and all of
these are read (`integer_target_exactness`). The constant that stands for the number is signed as far
as the signed integers of 128 bits reach, and unsigned above them, so it never wraps. What is written
for the constant in source is read as the same constant again.
-/

namespace FieldRules

open Text

/-- The constant stands for the integer: as a signed integer of 128 bits if there is such a one, and
otherwise as an unsigned one. -/
inductive Literal.StandsFor : Literal → Int → Prop where
  /-- A signed integer. -/
  | int {n : Int} : (IntegerType.signed .w128).Holds n → StandsFor (.int n) n
  /-- An integer above the signed ones. -/
  | unsigned {n : Nat} : (IntegerType.signed .w128).greatest < n →
      (IntegerType.unsigned .w128).Holds n → StandsFor (.unsigned n) n

/-- The decimal text of its integer is written for a constant. -/
theorem Literal.StandsFor.source_eq {l : Literal} {n : Int} (h : l.StandsFor n) :
    l.source = String.ofList (Numeral.integerText n) := by
  cases h with
  | int => rfl
  | unsigned => rfl

/-- Signs and digits are not blank. -/
theorem trim_integerText (n : Int) : trim (Numeral.integerText n) = Numeral.integerText n := by
  have hdigits : ∀ c ∈ Numeral.digits n.natAbs, isBlank c = false := fun c hc =>
    isBlank_of_isDigit (Numeral.isDigit_of_mem_digits hc)
  refine trim_eq_self fun c hc => ?_
  unfold Numeral.integerText at hc
  split_ifs at hc
  · rcases List.mem_cons.1 hc with rfl | hc
    · rfl
    · exact hdigits c hc
  · exact hdigits c hc

namespace TargetKind

variable {min max n : Int} {value : String}

/-- Every integer from the least signed to the greatest unsigned one of 128 bits has a constant. -/
theorem standsFor_integerLiteral (hleast : (IntegerType.signed .w128).least ≤ n)
    (hgreatest : n ≤ (IntegerType.unsigned .w128).greatest) : (integerLiteral n).StandsFor n := by
  by_cases hn : n ≤ (IntegerType.signed .w128).greatest
  · rw [show integerLiteral n = .int n from if_pos hn]
    exact .int ⟨hleast, hn⟩
  · have hzero : (0 : Int) ≤ (IntegerType.signed .w128).greatest := by decide
    have hnat : (n.toNat : Int) = n := Int.toNat_of_nonneg (by omega)
    have hstands : (Literal.unsigned n.toNat).StandsFor n.toNat := by
      refine .unsigned (by omega) ⟨?_, by omega⟩
      exact Int.natCast_nonneg n.toNat
    rw [hnat] at hstands
    rwa [show integerLiteral n = .unsigned n.toNat from if_neg hn]

/-- An integer target is read as the constant of the number that it denotes. -/
theorem read_integer_eq_some_iff {l : Literal} :
    (integer min max).read value = some l ↔ ∃ n, Numeral.SignedDecimal (trim value.toList) n ∧
      min ≤ n ∧ n ≤ max ∧ l = integerLiteral n := by
  simp only [← Numeral.readInteger_eq_some_iff, read, readTrimmed]
  cases Numeral.readInteger (trim value.toList) with
  | none => simp
  | some m =>
    by_cases hm : min ≤ m ∧ m ≤ max
    · simp [hm, eq_comm (a := l)]
    · simp only [if_neg hm, Option.some.injEq, exists_eq_left']
      exact ⟨nofun, fun h => (hm ⟨h.1, h.2.1⟩).elim⟩

/-- The text of an integer within the bounds is read as its constant. -/
theorem read_integerText (hmin : min ≤ n) (hmax : n ≤ max) :
    (integer min max).read (String.ofList (Numeral.integerText n)) = some (integerLiteral n) := by
  refine read_integer_eq_some_iff.2 ⟨n, ?_, hmin, hmax, rfl⟩
  rw [String.toList_ofList, trim_integerText]
  exact Numeral.readInteger_eq_some_iff.1 (Numeral.readInteger_integerText n)

end TargetKind

/-- **Integer targets are read exactly.** For bounds that are integers of 128 bits, the least one
signed and the greatest one unsigned, a target can be read if and only if it is a signed decimal
numeral, with or without blanks around it, of a number within the bounds. Then it is read as the
constant that stands for the number, and so is the text of that constant in source. -/
theorem integer_target_exactness {min max : Int} (hmin : (IntegerType.signed .w128).Holds min)
    (hmax : (IntegerType.unsigned .w128).Holds max) (value : String) :
    ((∃ l, (TargetKind.integer min max).read value = some l) ↔
      ∃ n, Numeral.SignedDecimal (trim value.toList) n ∧ min ≤ n ∧ n ≤ max) ∧
    ∀ l, (TargetKind.integer min max).read value = some l →
      (∀ n, Numeral.SignedDecimal (trim value.toList) n → l.StandsFor n) ∧
      (TargetKind.integer min max).read l.source = some l := by
  constructor
  · simp only [TargetKind.read_integer_eq_some_iff]
    constructor
    · rintro ⟨l, n, hn, hleast, hgreatest, -⟩
      exact ⟨n, hn, hleast, hgreatest⟩
    · rintro ⟨n, hn, hleast, hgreatest⟩
      exact ⟨_, n, hn, hleast, hgreatest, rfl⟩
  · intro l h
    obtain ⟨n, hn, hleast, hgreatest, rfl⟩ := TargetKind.read_integer_eq_some_iff.1 h
    have hstands : (TargetKind.integerLiteral n).StandsFor n :=
      TargetKind.standsFor_integerLiteral (Int.le_trans hmin.1 hleast)
        (Int.le_trans hgreatest hmax.2)
    constructor
    · intro m hm
      -- The numeral denotes a single number, the one that the reader finds.
      have hsame : some m = some n :=
        (Numeral.readInteger_eq_some_iff.2 hm).symm.trans (Numeral.readInteger_eq_some_iff.2 hn)
      rwa [Option.some.inj hsame]
    · rw [hstands.source_eq]
      exact TargetKind.read_integerText hleast hgreatest

/-- The first number above the signed ones, with a sign, zeros and blanks around it, is read, and the
first one below them is not. -/
theorem outermost_targets_exact :
    (TargetKind.integer (-170141183460469231731687303715884105728)
        340282366920938463463374607431768211455).read
      " +00170141183460469231731687303715884105728\t" =
        some (.unsigned 170141183460469231731687303715884105728) ∧
    (TargetKind.integer (-170141183460469231731687303715884105728)
        340282366920938463463374607431768211455).read
      (Literal.unsigned 170141183460469231731687303715884105728).source =
        some (.unsigned 170141183460469231731687303715884105728) ∧
    ¬ ∃ l, (TargetKind.integer (-170141183460469231731687303715884105728)
        340282366920938463463374607431768211455).read
      "-170141183460469231731687303715884105729" = some l := by
  have hread : (TargetKind.integer (-170141183460469231731687303715884105728)
      340282366920938463463374607431768211455).read
    " +00170141183460469231731687303715884105728\t" =
      some (.unsigned 170141183460469231731687303715884105728) := by
    decide +kernel
  have hbelow : Numeral.readInteger (trim "-170141183460469231731687303715884105729".toList) =
      some (-170141183460469231731687303715884105729) := by
    decide +kernel
  have hexact := @integer_target_exactness (-170141183460469231731687303715884105728)
    340282366920938463463374607431768211455 (by decide) (by decide)
  refine ⟨hread, ((hexact _).2 _ hread).2, fun h => ?_⟩
  obtain ⟨n, hn, hleast, -⟩ := (hexact _).1.1 h
  cases (Numeral.readInteger_eq_some_iff.2 hn).symm.trans hbelow
  exact absurd hleast (by decide)

end FieldRules
