import FieldRules.Expr
import FieldRules.Text.Case

/-!
# What an expression means

An expression is evaluated over the values of the fields, as the comments on its constructors say.
The value at a place is read from an environment; a guard binds the content of an optional value,
and a statement about a collection binds its elements one after the other. What depends on the
target of the generation is a parameter (`Runtime`): the unit in which the size of a text is
counted, and the format of an email address.

Floating-point numbers are left out: an expression that needs one has no value. Neither has one
whose parts have values of the wrong kind, such as the size of a number; so a statement that an
expression has a value also says that this does not happen.
-/

namespace FieldRules

/-! ### Values -/

/-- A primitive value. -/
inductive Scalar where
  /-- A text. -/
  | text (s : String)
  /-- A whole number. -/
  | number (n : Int)
  /-- A truth value. -/
  | truth (b : Bool)
  deriving DecidableEq, Repr

/-- The value of a field. -/
inductive Value where
  /-- A primitive value. -/
  | scalar (x : Scalar)
  /-- A list, of fixed length or not. -/
  | list (xs : List Scalar)
  /-- A dictionary. What its keys stand for is never looked at. -/
  | dict (keys : List Scalar)
  /-- An optional value that is not set. -/
  | absent
  /-- An optional value that is set. -/
  | present (content : Value)
  deriving Repr

/-- What the target of the generation provides. -/
structure Runtime where
  /-- The size of a text. -/
  textSize : String → Nat
  /-- The text has the format of an email address. -/
  isEmail : String → Bool

/-- Where an expression reads its values. -/
structure Env where
  /-- The fields of the validated value, by the path that leads to them. -/
  field : List String → Option Value
  /-- What the innermost guard has bound. -/
  bound : Option Value := none
  /-- The element that the innermost statement about a collection has bound. -/
  element : Option Scalar := none

/-- The value at a place. -/
def Env.get (env : Env) : Place → Option Value
  | .field path => env.field path
  | .bound => env.bound
  | .element => env.element.map .scalar

/-- The value of a constant. -/
def Literal.scalar? : Literal → Option Scalar
  | .text s => some (.text s)
  | .int n => some (.number n)
  | .unsigned n => some (.number n)
  | .size n => some (.number n)
  | .bool b => some (.truth b)
  | .float _ => none

namespace Value

/-- The primitive value that a value is. -/
def scalar? : Value → Option Scalar
  | .scalar x => some x
  | _ => none

/-- The text that a value is. -/
def text? : Value → Option String
  | .scalar (.text s) => some s
  | _ => none

/-- The whole number that a value is. -/
def number? : Value → Option Int
  | .scalar (.number n) => some n
  | _ => none

/-- The truth value that a value is. -/
def truth? : Value → Option Bool
  | .scalar (.truth b) => some b
  | _ => none

/-- The size of a text or a collection. -/
def size? (rt : Runtime) : Value → Option Nat
  | .scalar (.text s) => some (rt.textSize s)
  | .list xs => some xs.length
  | .dict keys => some keys.length
  | _ => none

/-- The elements of a list, or the keys of a dictionary. -/
def items? (keys : Bool) : Value → Option (List Scalar)
  | .list xs => if keys then none else some xs
  | .dict ks => if keys then some ks else none
  | _ => none

/-- A truth value as a value. -/
def ofBool (b : Bool) : Value := .scalar (.truth b)

end Value

/-! ### Operations -/

namespace Comparison

/-- How two whole numbers compare. -/
def testNumbers (c : Comparison) (m n : Int) : Bool :=
  match c with
  | .eq => m == n
  | .ne => m != n
  | .gt => n < m
  | .ge => n ≤ m
  | .lt => m < n
  | .le => m ≤ n

/-- How two values compare that have no order. -/
def testEqual (c : Comparison) (equal : Bool) : Option Bool :=
  match c with
  | .eq => some equal
  | .ne => some (!equal)
  | _ => none

/-- How two primitive values of one kind compare. -/
def test? (c : Comparison) : Scalar → Scalar → Option Bool
  | .number m, .number n => some (c.testNumbers m n)
  | .text s, .text t => c.testEqual (s == t)
  | .truth a, .truth b => c.testEqual (a == b)
  | _, _ => none

end Comparison

/-- A whole number in a wider type. What does not fit wraps around. -/
def Widening.cast? (w : Widening) (n : Int) : Option Int :=
  match w with
  | .integer => some (BitVec.ofInt 128 n).toInt
  | .unsigned => some (BitVec.ofInt 128 n).toNat
  | .float => none

/-- Truth values joined. -/
def Connective.combine (op : Connective) (bs : List Bool) : Bool :=
  match op with
  | .and => bs.all id
  | .or => bs.any id

/-! ### Expressions -/

namespace Expr

mutual

/-- The value of an expression. -/
def eval (rt : Runtime) (env : Env) : Expr → Option Value
  | .const b => some (.ofBool b)
  | .value place => env.get place
  | .literal l => l.scalar?.map .scalar
  | .len e => ((e.eval rt env).bind (·.size? rt)).map fun n => .scalar (.number n)
  | .lower e => ((e.eval rt env).bind (·.text?)).map fun s => .scalar (.text (Text.lowered s))
  | .asStr e => ((e.eval rt env).bind (·.text?)).map fun s => .scalar (.text s)
  | .widen w e => (((e.eval rt env).bind (·.number?)).bind w.cast?).map fun n => .scalar (.number n)
  | .isEmail e => ((e.eval rt env).bind (·.text?)).map fun s => .ofBool (rt.isEmail s)
  | .compare c lhs rhs =>
    ((lhs.eval rt env).bind (·.scalar?)).bind fun x =>
      ((rhs.eval rt env).bind (·.scalar?)).bind fun y => (c.test? x y).map .ofBool
  | .not e => ((e.eval rt env).bind (·.truth?)).map fun b => .ofBool (!b)
  | .connect op terms => (evalTruths rt env terms).map fun bs => .ofBool (op.combine bs)
  | .inSet item set =>
    ((item.eval rt env).bind (·.scalar?)).bind fun x =>
      (set.mapM Literal.scalar?).map fun ys => .ofBool (ys.contains x)
  | .every collection keys body =>
    ((collection.eval rt env).bind (·.items? keys)).bind fun xs =>
      (xs.mapM fun x => (body.eval rt { env with element := some x }).bind (·.truth?)).map
        fun bs => .ofBool (bs.all id)
  | .someAnd option body =>
    match option.eval rt env with
    | some .absent => some (.ofBool false)
    | some (.present v) => body.eval rt { env with bound := some v }
    | _ => none

/-- The truth values of some expressions. -/
def evalTruths (rt : Runtime) (env : Env) : List Expr → Option (List Bool)
  | [] => some []
  | e :: es =>
    ((e.eval rt env).bind (·.truth?)).bind fun b => (evalTruths rt env es).map (b :: ·)

end

end Expr

end FieldRules
