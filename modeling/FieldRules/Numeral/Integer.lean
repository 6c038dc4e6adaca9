/-!
# Decimal integers

The written form of whole numbers: ASCII decimal digits, after an optional sign where a sign is
allowed. Leading zeros are allowed everywhere, blanks nowhere. Bounds are the reader's business, so
the values here are unbounded. What `integerText` writes, `readInteger` reads back.
-/

namespace FieldRules.Numeral

/-- The value of one or more decimal digits. -/
def readDigits (cs : List Char) : Option Nat :=
  if cs ≠ [] ∧ cs.all Char.isDigit then some (Nat.ofDigitChars 10 cs 0) else none

/-- The value of decimal digits after an optional plus sign. -/
def readNatural : List Char → Option Nat
  | '+' :: cs => readDigits cs
  | cs => readDigits cs

/-- The value of decimal digits after an optional sign. -/
def readInteger : List Char → Option Int
  | '-' :: cs => (readDigits cs).map fun n : Nat => -(n : Int)
  | cs => (readNatural cs).map fun n : Nat => (n : Int)

/-- The largest length or count: sizes are 64 bits wide. -/
def maxSize : Nat := 1 <<< 64 - 1

/-- A power of ten. -/
def tenPow (n : Nat) : Nat := Nat.pow 10 n

/-- The decimal digits of a number, without leading zeros. -/
def digits (n : Nat) : List Char :=
  Nat.toDigits 10 n

/-- The decimal text of an integer. -/
def integerText (n : Int) : List Char :=
  if n < 0 then '-' :: digits n.natAbs else digits n.natAbs

/-- Digits written without leading zeros are read back. -/
theorem readDigits_digits (n : Nat) : readDigits (digits n) = some n := by
  have hne : Nat.toDigits 10 n ≠ [] := Nat.toDigits_ne_nil
  have hall : (Nat.toDigits 10 n).all Char.isDigit = true :=
    List.all_eq_true.2 fun c hc => Nat.isDigit_of_mem_toDigits (by decide) (by decide) hc
  simp [readDigits, digits, hne, hall, Nat.ofDigitChars_toDigits]

/-- A number has at least one digit. -/
theorem digits_ne_nil (n : Nat) : digits n ≠ [] := Nat.toDigits_ne_nil

/-- Digits are digits. -/
theorem isDigit_of_mem_digits {n : Nat} {c : Char} (h : c ∈ digits n) : c.isDigit = true :=
  Nat.isDigit_of_mem_toDigits (by decide) (by decide) h

/-- A written natural number is read back. -/
theorem readNatural_digits (n : Nat) : readNatural (digits n) = some n := by
  have hplus : ∀ cs, digits n ≠ '+' :: cs := by
    intro cs h
    have hmem : '+' ∈ digits n := by rw [h]; exact List.mem_cons_self
    exact absurd (isDigit_of_mem_digits hmem) (by decide)
  rw [readNatural]
  · exact readDigits_digits n
  · exact hplus

/-- A written integer is read back. -/
theorem readInteger_integerText (n : Int) : readInteger (integerText n) = some n := by
  by_cases hn : n < 0
  · have habs : (-(n.natAbs : Int)) = n := by omega
    rw [integerText, if_pos hn, readInteger, readDigits_digits, Option.map_some, habs]
  · have habs : (n.natAbs : Int) = n := by omega
    have hminus : ∀ cs, digits n.natAbs ≠ '-' :: cs := by
      intro cs h
      have hmem : '-' ∈ digits n.natAbs := by rw [h]; exact List.mem_cons_self
      exact absurd (isDigit_of_mem_digits hmem) (by decide)
    rw [integerText, if_neg hn, readInteger, readNatural_digits, Option.map_some, habs]
    exact hminus

end FieldRules.Numeral
