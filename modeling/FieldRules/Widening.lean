import FieldRules.Text.Blank

/-!
# Widening

Two numeric fields of different types are compared in a type that is wide enough for both.
-/

namespace FieldRules

/-- The wide type that both sides of a comparison are converted to. -/
inductive Widening where
  /-- The signed integer of 128 bits. -/
  | integer
  /-- The unsigned integer of 128 bits. -/
  | unsigned
  /-- The floating-point number of 64 bits. -/
  | float
  deriving DecidableEq, Repr

namespace Widening

/-- The name of a widening. -/
def name : Widening → String
  | .integer => "integer"
  | .unsigned => "unsigned"
  | .float => "float"

/-- The spelling begins like that of an unsigned type. -/
def looksUnsigned (base : String) : Bool :=
  base.toList.head? == some 'u'

/-- The type in which integers of two types are compared: the signed one, unless a side is `u128`;
then the unsigned one, unless the other side is signed, and no primitive holds both. -/
def commonInteger (left right : String) : Option Widening :=
  let left := Text.trimmed left
  let right := Text.trimmed right
  if left ≠ "u128" ∧ right ≠ "u128" then some .integer
  else if looksUnsigned left && looksUnsigned right then some .unsigned
  else none

end Widening

end FieldRules
