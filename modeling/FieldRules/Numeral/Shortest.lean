import FieldRules.Numeral.Double

/-!
# The shortest decimal form of a number

A finite number is written with the fewest digits that read back as the same number, and with the
nearest of those where several do. The digits are found on the decimal grids of 1, 2, …, 17 digits:
on each grid only the two neighbours of the value can lie in the interval of reals that round to it,
and the first grid with such a neighbour wins.

A `DecimalStyle` settles what the digits leave open: where positional notation ends, whether a
positive exponent has a sign, and which of two equally near neighbours is taken.
-/

namespace FieldRules

/-- The choices that a decimal form makes beyond its digits. -/
structure DecimalStyle where
  /-- The least scientific exponent that is written positionally. -/
  leastPositional : Int
  /-- The greatest scientific exponent that is written positionally. -/
  greatestPositional : Int
  /-- Whether a positive exponent is written with a plus sign. -/
  signedExponent : Bool
  /-- Whether the larger of two equally near neighbours is taken; otherwise the even one. -/
  tieUp : Bool
  deriving DecidableEq, Repr

namespace Double

/-- The position of the decimal point of `num / den`: the least `p` with `num / den < 10 ^ p`. -/
def decimalPoint (num den : Nat) : Int :=
  if den ≤ num then (Numeral.digits (num / den)).length
  else 1 - ((Numeral.digits ((den + num - 1) / num - 1)).length : Int)

/-- The neighbours of a value on a decimal grid that lie in its rounding interval, the nearer one
chosen. The value is `mid / den` grid steps, the interval runs from `low / den` to `high / den`. -/
def gridHit (low mid high den : Nat) (closed tieUp : Bool) : Option Nat :=
  let inside (d : Nat) : Bool :=
    if closed then low ≤ d * den && d * den ≤ high else low < d * den && d * den < high
  let below := mid / den
  match inside below, inside (below + 1) with
  | true, false => some below
  | false, true => some (below + 1)
  | true, true =>
    let twice := 2 * (mid % den)
    if twice < den then some below
    else if den < twice then some (below + 1)
    else if tieUp || below % 2 == 1 then some (below + 1)
    else some below
  | false, false => none

/-- The digits of the shortest form of `mantissa · 2 ^ exponent`, for a mantissa that is not zero,
and the power of ten that they are scaled by. -/
def shortest (mantissa : Nat) (exponent : Int) (tieUp : Bool) : Nat × Int :=
  let shift := exponent - 2
  let den := 1 <<< (-shift).toNat
  let mid := (4 * mantissa) <<< shift.toNat
  let low :=
    (4 * mantissa - if mantissa = leastFull ∧ exponent ≠ minExponent then 1 else 2) <<<
      shift.toNat
  let high := (4 * mantissa + 2) <<< shift.toNat
  let point := decimalPoint mid den
  let onGrid (n : Nat) : Option (Nat × Int) :=
    let power := point - n
    let scale := Numeral.tenPow (-power).toNat
    (gridHit (low * scale) (mid * scale) (high * scale) (den * Numeral.tenPow power.toNat)
      (mantissa % 2 == 0) tieUp).map (·, power)
  ((List.range' 1 17).findSome? onGrid).getD (0, 0)

/-- The digits without trailing zeros, and the position of the decimal point in front of them. -/
def significantDigits (digits : Nat) (power : Int) : List Char × Int :=
  let ds := Numeral.digits digits
  ((ds.reverse.dropWhile (· == '0')).reverse, power + ds.length)

/-- Significant digits in positional notation, always with a decimal point and a digit after it. -/
def positional (ds : List Char) (point : Int) : List Char :=
  if point ≤ 0 then ['0', '.'] ++ List.replicate (-point).toNat '0' ++ ds
  else if (ds.length : Int) ≤ point then
    ds ++ List.replicate (point - ds.length).toNat '0' ++ ['.', '0']
  else ds.take point.toNat ++ ['.'] ++ ds.drop point.toNat

/-- Significant digits in scientific notation, with a decimal point only where digits follow it. -/
def scientific (ds : List Char) (exponent : Int) (signed : Bool) : List Char :=
  let mark := if exponent < 0 then ['-'] else if signed then ['+'] else []
  ds.take 1 ++ (if ds.length ≤ 1 then [] else '.' :: ds.drop 1) ++ ['e'] ++ mark ++
    Numeral.digits exponent.natAbs

/-- The text of a number in the given style. -/
def text (style : DecimalStyle) : Double → List Char
  | .notANumber => ['N', 'a', 'N']
  | .infinite negative => (if negative then ['-'] else []) ++ ['i', 'n', 'f']
  | .finite negative mantissa exponent =>
    (if negative then ['-'] else []) ++
      if mantissa = 0 then ['0', '.', '0']
      else
        let (digits, power) := shortest mantissa exponent style.tieUp
        let (ds, point) := significantDigits digits power
        let exponent := point - 1
        if style.leastPositional ≤ exponent ∧ exponent ≤ style.greatestPositional then
          positional ds point
        else scientific ds exponent style.signedExponent

end Double

end FieldRules
