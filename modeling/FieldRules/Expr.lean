import FieldRules.Literal
import FieldRules.Widening

/-!
# Check expressions

The language of generated checks, free of any concrete syntax. An expression reads the fields of the
validated value, the value bound by the innermost optional guard and the element bound by the
innermost statement about a collection.
-/

namespace FieldRules

/-- Where a value comes from. -/
inductive Place where
  /-- A field of the validated value, through nested declarations. -/
  | field (path : List String)
  /-- The value bound by the innermost guard. -/
  | bound
  /-- The element bound by the innermost statement about a collection. -/
  | element
  deriving DecidableEq, Repr

/-- How several terms are joined. -/
inductive Connective where
  /-- All of them hold. -/
  | and
  /-- One of them holds. -/
  | or
  deriving DecidableEq, Repr

/-- The sign of a connective. -/
def Connective.symbol : Connective → String
  | .and => "&&"
  | .or => "||"

/-- An expression of a check. -/
inductive Expr where
  /-- A truth value. -/
  | const (b : Bool)
  /-- The value at a place. -/
  | value (place : Place)
  /-- A constant. -/
  | literal (l : Literal)
  /-- The size of a text or a collection. -/
  | len (inner : Expr)
  /-- A text in lower case. -/
  | lower (inner : Expr)
  /-- An owned text as a borrowed one. -/
  | asStr (inner : Expr)
  /-- A number in a wider type. -/
  | widen (w : Widening) (inner : Expr)
  /-- A text has the format of an email address. -/
  | isEmail (inner : Expr)
  /-- Two values compare as stated. -/
  | compare (c : Comparison) (lhs rhs : Expr)
  /-- The opposite. -/
  | not (inner : Expr)
  /-- Some terms joined. -/
  | connect (op : Connective) (terms : List Expr)
  /-- A value is one of the constants. -/
  | inSet (item : Expr) (set : List Literal)
  /-- Every element, or every key, of a collection satisfies the body. -/
  | every (collection : Expr) (keys : Bool) (body : Expr)
  /-- The optional value is present and satisfies the body. -/
  | someAnd (option : Expr) (body : Expr)
  deriving Repr

namespace Expr

/-- The value of a field. -/
def field (path : List String) : Expr :=
  .value (.field path)

/-- The terms joined; one term stands for itself. -/
def join (op : Connective) : List Expr → Expr
  | [term] => term
  | terms => .connect op terms

/-- The expression is the constant truth. -/
def isTrue : Expr → Bool
  | .const true => true
  | _ => false

end Expr

end FieldRules
