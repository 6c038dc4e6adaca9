import FieldRules.Except
import FieldRules.Json.Fault

/-!
# Number literals of JSON

Reading a number happens in two steps. `numberAt` finds its digits, and `NumberText.value` makes a
value of them: an integer of at most 64 bits, or else a floating-point number.

The floating-point value is computed from as many leading digits as fit in 64 bits, with a rounding
at each step: the digits are rounded to a number, which is then multiplied or divided by a power of
ten that is rounded as well. The result need not be the number nearest to the text.
-/

namespace FieldRules

namespace Double

/-- Numerator and denominator of the absolute value of a finite number. -/
def ratio : Double → Nat × Nat
  | .finite _ mantissa exponent => (mantissa <<< exponent.toNat, 1 <<< (-exponent).toNat)
  | _ => (0, 1)

/-- The rounded product of two finite numbers that are not negative. -/
def times (x y : Double) : Double :=
  ofRatio false (x.ratio.1 * y.ratio.1) (x.ratio.2 * y.ratio.2)

/-- The rounded quotient of two finite numbers that are not negative. -/
def dividedBy (x y : Double) : Double :=
  ofRatio false (x.ratio.1 * y.ratio.2) (x.ratio.2 * y.ratio.1)

/-- The number nearest to a power of ten. -/
def powerOfTen (n : Nat) : Double :=
  ofDecimal false 1 n

/-- `digits · 10 ^ exponent` with a rounding at each step; `none` if it is too large. The greatest
power of ten in one step is the 308th. -/
def scaled (digits : Nat) (exponent : Int) : Option Double :=
  let x := ofDecimal false digits 0
  if exponent > 308 then if digits = 0 then some (zero false) else none
  else if exponent ≥ 0 then
    let y := x.times (powerOfTen exponent.toNat)
    if y.isFinite then some y else none
  else if exponent ≥ -308 then some (x.dividedBy (powerOfTen (-exponent).toNat))
  else if exponent ≥ -616 then
    some ((x.dividedBy (powerOfTen 308)).dividedBy (powerOfTen (-exponent - 308).toNat))
  else some (zero false)

end Double

namespace Json

/-- The digits of a number. -/
structure NumberText where
  /-- Whether a minus sign comes first. -/
  negative : Bool
  /-- The digits before the point. -/
  whole : List Char
  /-- The digits behind the point, if there is one. -/
  fraction : Option (List Char)
  /-- The sign and the digits of the exponent, if there is one. -/
  exponent : Option (Bool × List Char)
  deriving DecidableEq, Repr

/-- The place behind some one-byte characters of a line. -/
def Cursor.passed (c : Cursor) (n : Nat) : Cursor :=
  ⟨⟨c.position.line, c.position.column + n⟩, c.rest.drop n⟩

/-- The digits that follow a cursor, and the place behind them. -/
def takeDigits (c : Cursor) : List Char × Cursor :=
  let ds := c.rest.takeWhile Char.isDigit
  (ds, c.passed ds.length)

/-- Where a digit has to follow, and the text ends instead: a reader that only passes over the
number does not tell the end from a wrong character. -/
def endCause (strict : Bool) : Cause :=
  if strict then .eofValue else .invalidNumber

/-- The digits before the point: one zero, or digits that do not begin with zero. -/
def wholeAt (strict : Bool) (c : Cursor) : Except Fault (List Char × Cursor) :=
  match c.rest with
  | [] => .error ⟨endCause strict, c.position⟩
  | '0' :: cs =>
    let behind := c.passed 1
    if cs.head?.any Char.isDigit then .error ⟨.invalidNumber, behind.peek⟩
    else .ok (['0'], behind)
  | x :: _ => if x.isDigit then .ok (takeDigits c) else .error ⟨.invalidNumber, c.peek⟩

/-- The point and the digits behind it, if a point follows. -/
def fractionAt (strict : Bool) (c : Cursor) : Except Fault (Option (List Char) × Cursor) :=
  match c.rest with
  | '.' :: _ =>
    let (ds, behind) := takeDigits (c.passed 1)
    if ds = [] then
      .error ⟨if behind.rest = [] then endCause strict else .invalidNumber, behind.peek⟩
    else .ok (some ds, behind)
  | _ => .ok (none, c)

/-- Whether a minus sign follows, and the place behind the sign, if any sign does. -/
def signAt (c : Cursor) : Bool × Cursor :=
  match c.rest with
  | '+' :: _ => (false, c.passed 1)
  | '-' :: _ => (true, c.passed 1)
  | _ => (false, c)

/-- The mark, the sign and the digits of the exponent, if a mark follows. -/
def exponentAt (strict : Bool) (c : Cursor) :
    Except Fault (Option (Bool × List Char) × Cursor) :=
  match c.rest with
  | [] => .ok (none, c)
  | x :: _ =>
    if x = 'e' ∨ x = 'E' then
      let (negative, signed) := signAt (c.passed 1)
      let (ds, behind) := takeDigits signed
      if ds = [] then
        if signed.rest = [] then .error ⟨endCause strict, signed.position⟩
        else .error ⟨.invalidNumber, signed.peek⟩
      else .ok (some (negative, ds), behind)
    else .ok (none, c)

/-- Whether a minus sign follows, and the place behind it, if it does. -/
def minusAt (c : Cursor) : Bool × Cursor :=
  match c.rest with
  | '-' :: _ => (true, c.passed 1)
  | _ => (false, c)

/-- The digits of the number at a cursor, and the place behind it. -/
def numberAt (strict : Bool) (c : Cursor) : Except Fault (NumberText × Cursor) := do
  let (negative, c) := minusAt c
  let (whole, c) ← wholeAt strict c
  let (fraction, c) ← fractionAt strict c
  let (exponent, c) ← exponentAt strict c
  return (⟨negative, whole, fraction, exponent⟩, c)

/-! ### What is left of the text -/

theorem Cursor.length_passed_le (c : Cursor) (n : Nat) :
    (c.passed n).rest.length ≤ c.rest.length := by
  simp [Cursor.passed]

theorem length_takeDigits_lt {c : Cursor} {x : Char} {cs : List Char} (h : c.rest = x :: cs)
    (hx : x.isDigit = true) : (takeDigits c).2.rest.length < c.rest.length := by
  simp only [takeDigits, Cursor.passed, h, List.takeWhile_cons, hx, if_true, List.length_cons,
    List.length_drop]
  omega

/-- There is at least one digit before the point. -/
theorem length_of_wholeAt {strict : Bool} {c d : Cursor} {ds : List Char}
    (h : wholeAt strict c = .ok (ds, d)) : d.rest.length < c.rest.length := by
  unfold wholeAt at h
  split at h
  · cases h
  · rename_i cs hc
    simp only at h
    split at h
    · cases h
    · cases h
      simp [Cursor.passed, hc]
  · rename_i x cs _ hc
    split at h
    · rename_i hx
      cases h
      exact length_takeDigits_lt hc hx
    · cases h

theorem length_takeDigits_le (c : Cursor) : (takeDigits c).2.rest.length ≤ c.rest.length :=
  c.length_passed_le _

theorem length_minusAt_le (c : Cursor) : (minusAt c).2.rest.length ≤ c.rest.length := by
  unfold minusAt
  split
  · exact c.length_passed_le 1
  · exact Nat.le_refl _

theorem length_signAt_le (c : Cursor) : (signAt c).2.rest.length ≤ c.rest.length := by
  unfold signAt
  split
  · exact c.length_passed_le 1
  · exact c.length_passed_le 1
  · exact Nat.le_refl _

theorem length_of_fractionAt {strict : Bool} {c d : Cursor} {ds : Option (List Char)}
    (h : fractionAt strict c = .ok (ds, d)) : d.rest.length ≤ c.rest.length := by
  unfold fractionAt at h
  split at h
  · have := length_takeDigits_le (c.passed 1)
    have := c.length_passed_le 1
    by_cases hd : (takeDigits (c.passed 1)).1 = []
    · simp [hd] at h
    · simp only [hd, if_false, Except.ok.injEq, Prod.mk.injEq] at h
      rw [← h.2]
      omega
  · cases h
    exact Nat.le_refl _

theorem length_of_exponentAt {strict : Bool} {c d : Cursor} {e : Option (Bool × List Char)}
    (h : exponentAt strict c = .ok (e, d)) : d.rest.length ≤ c.rest.length := by
  unfold exponentAt at h
  split at h
  · cases h
    exact Nat.le_refl _
  · split at h
    · have := length_takeDigits_le (signAt (c.passed 1)).2
      have := length_signAt_le (c.passed 1)
      have := c.length_passed_le 1
      by_cases hd : (takeDigits (signAt (c.passed 1)).2).1 = []
      · simp only [hd, if_true] at h
        split at h <;> cases h
      · simp only [hd, if_false, Except.ok.injEq, Prod.mk.injEq] at h
        rw [← h.2]
        omega
    · cases h
      exact Nat.le_refl _

/-- A number has at least one digit. -/
theorem length_of_numberAt {strict : Bool} {c d : Cursor} {t : NumberText}
    (h : numberAt strict c = .ok (t, d)) : d.rest.length < c.rest.length := by
  unfold numberAt at h
  obtain ⟨⟨whole, c₁⟩, hwhole, h⟩ := bind_eq_ok_iff.1 h
  obtain ⟨⟨fraction, c₂⟩, hfraction, h⟩ := bind_eq_ok_iff.1 h
  obtain ⟨⟨exponent, c₃⟩, hexponent, h⟩ := bind_eq_ok_iff.1 h
  cases h
  have := length_of_wholeAt (c := (minusAt c).2) hwhole
  have := length_of_fractionAt hfraction
  have := length_of_exponentAt hexponent
  have := length_minusAt_le c
  omega

/-- A number of a JSON text. -/
inductive Number where
  /-- An integer of at most 64 bits. -/
  | integer (n : Int)
  /-- Any other number. -/
  | float (x : Double)
  deriving DecidableEq, Repr

/-- Adds digits to a number while it stays below 2 ^ 64, and counts the digits added. -/
def accumulate (n count : Nat) : List Char → Nat × Nat
  | [] => (n, count)
  | d :: ds =>
    let next := 10 * n + (d.toNat - '0'.toNat)
    if next ≤ Numeral.maxSize then accumulate next (count + 1) ds else (n, count)

/-- The number of digits that bring the exponent above the integers of 32 bits, if they do. -/
def overflowLength (n count : Nat) : List Char → Option Nat
  | [] => none
  | d :: ds =>
    let next := 10 * n + (d.toNat - '0'.toNat)
    if next < 1 <<< 31 then overflowLength next (count + 1) ds else some (count + 1)

/-- The floating-point number with the given sign. -/
def signedFloat (negative : Bool) (x : Double) : Number :=
  .float (if negative then x.negate else x)

/-- The value of a number that ends at a place. -/
def NumberText.value (t : NumberText) (stop : Position) : Except Fault Number :=
  let (leading, taken) := accumulate 0 0 t.whole
  let dropped := t.whole.length - taken
  let (digits, places) := accumulate leading 0 (t.fraction.getD [])
  let scaled (exponent : Int) : Except Fault Number :=
    match Double.scaled digits exponent with
    | some x => .ok (signedFloat t.negative x)
    | none => .error ⟨.numberOutOfRange, stop⟩
  let base : Int := (dropped : Int) - places
  match t.exponent with
  | some (negative, ds) =>
    match overflowLength 0 0 ds with
    | some n =>
      if digits ≠ 0 ∧ negative = false then
        .error ⟨.numberOutOfRange, ⟨stop.line, stop.column - (ds.length - n)⟩⟩
      else .ok (signedFloat t.negative (Double.zero false))
    | none =>
      let e := Nat.ofDigitChars 10 ds 0
      scaled (if negative then base - e else base + e)
  | none =>
    if t.fraction = none ∧ dropped = 0 then
      if t.negative = false then .ok (.integer leading)
      else if 0 < leading ∧ leading ≤ 1 <<< 63 then .ok (.integer (-leading))
      else .ok (signedFloat true (Double.ofDecimal false leading 0))
    else scaled base

end Json

end FieldRules
