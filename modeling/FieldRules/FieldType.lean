/-!
# Field types

What the library knows about the type of a field: the category of its base type, the shape of the
container around it, and whether the whole may be absent. Validations are legal by the class of a
type, which is the type without its spelling and without the length of a fixed list.
-/

namespace FieldRules

/-- The category of a base type. -/
inductive Category where
  /-- A text. -/
  | string
  /-- A truth value. -/
  | bool
  /-- A whole number of any width. -/
  | integer
  /-- A floating-point number of any width. -/
  | float
  /-- Not a primitive: a declared type, or one that is not known. -/
  | other
  deriving DecidableEq, Repr

/-- The container around a base type. -/
inductive Shape where
  /-- No container. -/
  | plain
  /-- A list of any length. -/
  | list
  /-- A list of the given length. -/
  | fixedList (size : Nat)
  /-- A dictionary; the base type is the type of its keys. -/
  | dict
  deriving DecidableEq, Repr

/-- A shape without the length of a fixed list. -/
inductive ShapeKind where
  /-- No container. -/
  | plain
  /-- A list of any length. -/
  | list
  /-- A list of fixed length. -/
  | fixedList
  /-- A dictionary. -/
  | dict
  deriving DecidableEq, Repr

/-- The kind of a shape. -/
def Shape.kind : Shape → ShapeKind
  | .plain => .plain
  | .list => .list
  | .fixedList _ => .fixedList
  | .dict => .dict

/-- What decides whether a validation is legal for a field. -/
structure TypeClass where
  /-- The category of the base type. -/
  category : Category
  /-- The kind of container. -/
  shape : ShapeKind
  /-- Whether the value may be absent. -/
  optional : Bool
  deriving DecidableEq, Repr

/-- The type of a field. -/
structure FieldType where
  /-- The category of the base type. -/
  category : Category
  /-- The container around the base type. -/
  shape : Shape
  /-- Whether the value may be absent. -/
  optional : Bool
  /-- The base type as it was spelled. -/
  base : String
  deriving DecidableEq, Repr

namespace FieldType

/-- The class of a type. -/
def toClass (ty : FieldType) : TypeClass :=
  ⟨ty.category, ty.shape.kind, ty.optional⟩

/-- The base type is one of the primitives. -/
def isPrimitive (ty : FieldType) : Bool :=
  ty.category != .other

/-- Neither in a container nor optional: a value that another field can be compared with. -/
def isBare (ty : FieldType) : Bool :=
  ty.shape == .plain && !ty.optional

end FieldType

namespace Category

/-- The name of a category. -/
def name : Category → String
  | .string => "string"
  | .bool => "bool"
  | .integer => "integer"
  | .float => "float"
  | .other => "invalid"

/-- All categories but `other`. -/
def isPrimitive (c : Category) : Bool :=
  c != .other

/-- The numbers. -/
def isOrdered : Category → Bool
  | .integer | .float => true
  | _ => false

/-- All categories. -/
def all : List Category :=
  [.string, .bool, .integer, .float, .other]

end Category

namespace ShapeKind

/-- All kinds of shape. -/
def all : List ShapeKind :=
  [.plain, .list, .fixedList, .dict]

/-- A container whose size varies. -/
def isSized : ShapeKind → Bool
  | .list | .dict => true
  | _ => false

end ShapeKind

namespace TypeClass

/-- The compact text of a class. -/
def text (c : TypeClass) : String :=
  let inner :=
    match c.shape with
    | .plain => "<" ++ c.category.name ++ ">"
    | .list => "[]<" ++ c.category.name ++ ">"
    | .fixedList => "[N]<" ++ c.category.name ++ ">"
    | .dict => "map[<" ++ c.category.name ++ ">]"
  if c.optional then "?" ++ inner else inner

/-- All classes. -/
def all : List TypeClass :=
  Category.all.flatMap fun category =>
    ShapeKind.all.flatMap fun shape =>
      [⟨category, shape, false⟩, ⟨category, shape, true⟩]

theorem mem_all (c : TypeClass) : c ∈ all := by
  obtain ⟨category, shape, optional⟩ := c
  cases category <;> cases shape <;> cases optional <;> decide

end TypeClass

end FieldRules
