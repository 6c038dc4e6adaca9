import FieldRules.Numeral.Integer
import Mathlib.Data.List.Induction

/-!
# Decimal numerals

What a sequence of digits denotes, apart from how it is read: a digit denotes its number, and with
another digit behind it a numeral denotes ten times as much and that digit more (`Decimal`). A sign
may stand in front of it (`SignedDecimal`). The readers find just these numbers, whatever their size
and however many zeros come first (`readDigits_eq_some_iff`, `readInteger_eq_some_iff`).
-/

namespace FieldRules.Numeral

variable {cs : List Char} {n : Nat}

/-- The digits denote the number. -/
inductive Decimal : List Char → Nat → Prop where
  /-- A single digit. -/
  | digit {d : Nat} : d < 10 → Decimal [Nat.digitChar d] d
  /-- A numeral with one more digit behind it. -/
  | append {cs : List Char} {n d : Nat} : Decimal cs n → d < 10 →
      Decimal (cs ++ [Nat.digitChar d]) (10 * n + d)

/-- The digits denote the integer, with a sign in front of them or without. -/
inductive SignedDecimal : List Char → Int → Prop where
  /-- Without a sign. -/
  | bare {cs : List Char} {n : Nat} : Decimal cs n → SignedDecimal cs n
  /-- With a plus sign. -/
  | plus {cs : List Char} {n : Nat} : Decimal cs n → SignedDecimal ('+' :: cs) n
  /-- With a minus sign. -/
  | minus {cs : List Char} {n : Nat} : Decimal cs n → SignedDecimal ('-' :: cs) (-n)

/-! ### Digits -/

/-- The decimal digits are those of the numbers below ten. -/
theorem isDigit_iff {c : Char} : c.isDigit = true ↔ ∃ d < 10, c = Nat.digitChar d := by
  constructor
  · intro h
    have hbounds : 48 ≤ c.toNat ∧ c.toNat ≤ 57 := by
      simpa [Char.isDigit, UInt32.le_iff_toNat_le] using h
    refine ⟨c.toNat - 48, by omega, Char.toNat_inj.1 ?_⟩
    rw [Nat.toNat_digitChar_of_lt_ten (by omega)]
    omega
  · rintro ⟨d, hd, rfl⟩
    rw [Nat.isDigit_digitChar, decide_eq_true hd]

/-- A digit behind others counts once, and they count ten times as much. -/
theorem ofDigitChars_concat {d : Nat} (hd : d < 10) :
    Nat.ofDigitChars 10 (cs ++ [Nat.digitChar d]) 0 = 10 * Nat.ofDigitChars 10 cs 0 + d := by
  rw [Nat.ofDigitChars_append]
  simp [Nat.ofDigitChars_cons, Nat.toNat_digitChar_of_lt_ten hd]

theorem readDigits_eq_some_iff : readDigits cs = some n ↔ Decimal cs n := by
  unfold readDigits
  constructor
  · intro h
    split_ifs at h with hdigits
    obtain ⟨hne, hall⟩ := hdigits
    cases h
    induction cs using List.reverseRecOn with
    | nil => exact absurd rfl hne
    | append_singleton cs c ih =>
      rw [List.all_append, Bool.and_eq_true] at hall
      obtain ⟨d, hd, rfl⟩ := isDigit_iff.1 (by simpa using hall.2)
      rw [ofDigitChars_concat hd]
      cases cs with
      | nil => simpa using Decimal.digit hd
      | cons first rest => exact .append (ih (List.cons_ne_nil first rest) hall.1) hd
  · intro h
    induction h with
    | digit hd =>
      rw [if_pos ⟨List.cons_ne_nil _ _, by simp [isDigit_iff.2 ⟨_, hd, rfl⟩]⟩]
      exact congrArg some (by simpa using @ofDigitChars_concat [] _ hd)
    | append _ hd ih =>
      split_ifs at ih with hdigits
      have hall := hdigits.2
      rw [if_pos ⟨by simp, by simp [hall, isDigit_iff.2 ⟨_, hd, rfl⟩]⟩, ofDigitChars_concat hd,
        Option.some.inj ih]

/-! ### Signs -/

/-- A numeral begins with a digit. -/
theorem Decimal.head?_isDigit (h : Decimal cs n) : ∃ c, cs.head? = some c ∧ c.isDigit = true := by
  induction h with
  | digit hd => exact ⟨_, rfl, isDigit_iff.2 ⟨_, hd, rfl⟩⟩
  | append _ _ ih =>
    obtain ⟨c, hc, hdigit⟩ := ih
    exact ⟨c, by rw [List.head?_append, hc]; rfl, hdigit⟩

theorem readInteger_eq_some_iff {n : Int} : readInteger cs = some n ↔ SignedDecimal cs n := by
  constructor
  · intro h
    unfold readInteger readNatural at h
    split at h
    case h_1 cs =>
      obtain ⟨m, hm, rfl⟩ := Option.map_eq_some_iff.1 h
      exact .minus (readDigits_eq_some_iff.1 hm)
    case h_2 cs hminus =>
      obtain ⟨m, hm, rfl⟩ := Option.map_eq_some_iff.1 h
      split at hm
      case h_1 cs => exact .plus (readDigits_eq_some_iff.1 hm)
      case h_2 cs hplus => exact .bare (readDigits_eq_some_iff.1 hm)
  · intro h
    cases h with
    | @bare cs m hcs =>
      have hread := readDigits_eq_some_iff.2 hcs
      -- Neither sign is a digit, so the text is read as it stands.
      obtain ⟨c, hc, hdigit⟩ := hcs.head?_isDigit
      cases cs with
      | nil => cases hc
      | cons first rest =>
        cases hc
        have hminus : ¬ c = '-' := by rintro rfl; cases hdigit
        have hplus : ¬ c = '+' := by rintro rfl; cases hdigit
        simp [readInteger, readNatural, hminus, hplus, hread]
    | plus hcs => simp [readInteger, readNatural, readDigits_eq_some_iff.2 hcs]
    | minus hcs => simp [readInteger, readDigits_eq_some_iff.2 hcs]

end FieldRules.Numeral
