import FieldRules.FieldType

/-!
# Operations

The operations that a validation can name, with their names, the number of targets they take and the
classes of type they are legal for. An operation either looks at the field alone, or compares it
with targets written in the tag, or compares it with another field of the same declaration.
-/

namespace FieldRules

/-- A comparison of two values. -/
inductive Comparison where
  /-- Equal. -/
  | eq
  /-- Not equal. -/
  | ne
  /-- Greater. -/
  | gt
  /-- Greater or equal. -/
  | ge
  /-- Less. -/
  | lt
  /-- Less or equal. -/
  | le
  deriving DecidableEq, Repr

namespace Comparison

/-- The name of a comparison in a tag. -/
def name : Comparison → String
  | .eq => "eq"
  | .ne => "neq"
  | .gt => "gt"
  | .ge => "gte"
  | .lt => "lt"
  | .le => "lte"

/-- The sign of a comparison in generated source and in messages. -/
def symbol : Comparison → String
  | .eq => "=="
  | .ne => "!="
  | .gt => ">"
  | .ge => ">="
  | .lt => "<"
  | .le => "<="

/-- The comparison with its sides exchanged. -/
def mirror : Comparison → Comparison
  | .eq => .eq
  | .ne => .ne
  | .gt => .lt
  | .ge => .le
  | .lt => .gt
  | .le => .ge

/-- The comparison needs an order, and not only equality. -/
def isOrder : Comparison → Bool
  | .eq | .ne => false
  | _ => true

end Comparison

/-- A limit on a size or on a number. -/
inductive Limit where
  /-- At least. -/
  | min
  /-- At most. -/
  | max
  /-- Exactly; sizes only. -/
  | len
  deriving DecidableEq, Repr

namespace Limit

/-- The name of a limit in a tag. -/
def name : Limit → String
  | .min => "min"
  | .max => "max"
  | .len => "len"

/-- How the limited quantity compares with the limit. -/
def comparison : Limit → Comparison
  | .min => .ge
  | .max => .le
  | .len => .eq

end Limit

/-- What a validation demands of a field. -/
inductive Operation where
  /-- A value that is neither absent nor empty. -/
  | required
  /-- A comparison with a target. -/
  | compare (c : Comparison)
  /-- Equality with a target up to letter case, or its negation. -/
  | sameText (negated : Bool)
  /-- A limit on the size of a text or container, or on a number. -/
  | limit (l : Limit)
  /-- Membership in a set of targets, or its negation. -/
  | member (negated : Bool)
  /-- The format of an email address. -/
  | email
  /-- A comparison with another field. -/
  | compareField (c : Comparison)
  deriving DecidableEq, Repr

/-- The number of targets of an operation. -/
inductive Arity where
  /-- None. -/
  | zero
  /-- Exactly one. -/
  | one
  /-- One or more. -/
  | many
  deriving DecidableEq, Repr

/-- The name of an arity. -/
def Arity.name : Arity → String
  | .zero => "zero"
  | .one => "one"
  | .many => "many"

namespace Operation

/-- The name of an operation in a tag. -/
def name : Operation → String
  | .required => "required"
  | .compare c => c.name
  | .sameText false => "eq_ignore_case"
  | .sameText true => "neq_ignore_case"
  | .limit l => l.name
  | .member false => "in"
  | .member true => "nin"
  | .email => "email"
  | .compareField c => c.name ++ "field"

/-- The number of targets that an operation takes. -/
def arity : Operation → Arity
  | .required | .email => .zero
  | .member _ => .many
  | .compare _ | .sameText _ | .limit _ | .compareField _ => .one

/-- The target of the operation is another field. -/
def comparesFields : Operation → Bool
  | .compareField _ => true
  | _ => false

/-- All operations, in the order in which they are listed. -/
def all : List Operation :=
  [.required, .compare .eq, .compare .ne, .sameText false, .sameText true, .compare .gt,
    .compare .ge, .compare .lt, .compare .le, .limit .min, .limit .max, .limit .len,
    .member false, .member true, .email, .compareField .eq, .compareField .ne, .compareField .gt,
    .compareField .ge, .compareField .lt, .compareField .le]

/-- The operation with the given name. -/
def ofName? (name : String) : Option Operation :=
  all.find? fun op => op.name == name

/-- The categories that a comparison is legal for. -/
def comparableBy (c : Comparison) (category : Category) : Bool :=
  if c.isOrder then category.isOrdered else category.isPrimitive

/-- The operation is legal for fields of the class. -/
def isLegalFor (op : Operation) (c : TypeClass) : Bool :=
  match op with
  | .required => c.category.isPrimitive
  | .compare r => comparableBy r c.category && c.shape == .plain
  | .sameText _ | .email => c.category == .string && c.shape == .plain
  | .limit .len => c.category.isPrimitive && c.shape.isSized ||
      c.category == .string && c.shape == .plain
  | .limit _ => c.category.isPrimitive && c.shape.isSized ||
      (c.category == .string || c.category.isOrdered) && c.shape == .plain
  | .member _ => c.category == .string || c.category.isOrdered
  | .compareField r => comparableBy r c.category && c.shape == .plain && !c.optional

/-- The classes that an operation is legal for. -/
def legalClasses (op : Operation) : List TypeClass :=
  TypeClass.all.filter op.isLegalFor

/-- The operation is legal for fields of the type. -/
def isLegalForType (op : Operation) (ty : FieldType) : Bool :=
  op.isLegalFor ty.toClass

theorem mem_all (op : Operation) : op ∈ all := by
  cases op with
  | required | email => decide
  | compare c | compareField c => cases c <;> decide
  | sameText b | member b => cases b <;> decide
  | limit l => cases l <;> decide

/-- Every operation is found by its name. -/
theorem ofName?_name (op : Operation) : ofName? op.name = some op := by
  cases op with
  | required | email => decide
  | compare c | compareField c => cases c <;> decide
  | sameText b | member b => cases b <;> decide
  | limit l => cases l <;> decide

theorem name_of_ofName? {name : String} {op : Operation} (h : ofName? name = some op) :
    op.name = name := by
  simpa using List.find?_some h

end Operation

end FieldRules
