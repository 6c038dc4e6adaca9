import FieldRules.Numeral.Integer

/-!
# Double-precision numbers

The binary64 numbers as exact values: a finite one is a sign, a mantissa below 2 ^ 53 and a power of
two no smaller than 2 ^ -1074, with the largest mantissa that the value allows. Rounding goes to the
nearest number, a tie to the even mantissa, in exact natural-number arithmetic.
-/

namespace FieldRules

/-- A binary64 number. -/
inductive Double where
  /-- `±mantissa · 2 ^ exponent`. -/
  | finite (negative : Bool) (mantissa : Nat) (exponent : Int)
  /-- Positive or negative infinity. -/
  | infinite (negative : Bool)
  /-- Not a number. -/
  | notANumber
  deriving DecidableEq, Repr

namespace Double

/-- The least power of two that a mantissa is scaled by. -/
def minExponent : Int := -1074

/-- The greatest power of two that a mantissa is scaled by. -/
def maxExponent : Int := 971

/-- The least mantissa that uses all 53 bits. -/
def leastFull : Nat := 1 <<< 52

/-- Zero with a sign. -/
def zero (negative : Bool) : Double := .finite negative 0 minExponent

/-- The quotient rounded to the nearest whole number, a tie to the even one. -/
def roundDiv (num den : Nat) : Nat :=
  let q := num / den
  let twice := 2 * (num % den)
  if twice < den ∨ (twice = den ∧ q % 2 = 0) then q else q + 1

/-- `num · 2 ^ shift / den` rounded to a whole number. -/
def roundScaled (num den : Nat) (shift : Int) : Nat :=
  roundDiv (num <<< shift.toNat) (den <<< (-shift).toNat)

/-- The number nearest to `±num / den`. -/
def ofRatio (negative : Bool) (num den : Nat) : Double :=
  if num = 0 ∨ den = 0 then zero negative
  else
    let guess : Int := (Nat.log2 num : Int) - Nat.log2 den - 52
    let large := num <<< (-guess).toNat ≥ leastFull * (den <<< guess.toNat)
    let exponent := max (if large then guess else guess - 1) minExponent
    let mantissa := roundScaled num den (-exponent)
    let (mantissa, exponent) :=
      if mantissa = 2 * leastFull then (leastFull, exponent + 1) else (mantissa, exponent)
    if exponent > maxExponent then .infinite negative else .finite negative mantissa exponent

/-- The number nearest to `±digits · 10 ^ exponent`. Decimal exponents far outside the range are
settled without computing the power. -/
def ofDecimal (negative : Bool) (digits : Nat) (exponent : Int) : Double :=
  let magnitude := exponent + (Numeral.digits digits).length
  if digits = 0 ∨ magnitude < -330 then zero negative
  else if magnitude > 310 then .infinite negative
  else ofRatio negative (digits * Numeral.tenPow exponent.toNat)
    (Numeral.tenPow (-exponent).toNat)

/-- The number a decimal text denotes: digits with an optional point among or around them, after an
optional sign and before an optional exponent. -/
def read (cs : List Char) : Option Double :=
  let (negative, cs) : Bool × List Char :=
    match cs with
    | '-' :: rest => (true, rest)
    | '+' :: rest => (false, rest)
    | _ => (false, cs)
  let whole := cs.takeWhile Char.isDigit
  let (fraction, rest) : List Char × List Char :=
    match cs.dropWhile Char.isDigit with
    | '.' :: rest => (rest.takeWhile Char.isDigit, rest.dropWhile Char.isDigit)
    | rest => ([], rest)
  let exponent : Option Int :=
    match rest with
    | [] => some 0
    | c :: rest => if c = 'e' ∨ c = 'E' then Numeral.readInteger rest else none
  if whole = [] ∧ fraction = [] then none
  else exponent.map fun e =>
    ofDecimal negative (Nat.ofDigitChars 10 (whole ++ fraction) 0) (e - fraction.length)

/-- The number is neither infinite nor not a number. -/
def isFinite : Double → Bool
  | .finite .. => true
  | _ => false

/-- A finite number that stays finite when rounded to single precision: it lies below the midpoint
between the largest single-precision number and 2 ^ 128. -/
def fitsSingle : Double → Bool
  | .finite _ mantissa exponent => mantissa <<< exponent.toNat < 1 <<< 128 - 1 <<< 103
  | _ => false

/-- The number with the opposite sign. -/
def negate : Double → Double
  | .finite negative mantissa exponent => .finite (!negative) mantissa exponent
  | .infinite negative => .infinite (!negative)
  | .notANumber => .notANumber

end Double

end FieldRules
