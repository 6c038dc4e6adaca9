import FieldRules.Expr

/-!
# Well-typed expressions

When the parts of an expression fit together: `HasType` says what kind of value an expression has
where the fields, the guard and the element have the types of a `Context`. Its rules are the rules
of scope as well. What a guard binds has a type only in the body of the guard, an element only in a
statement about its collection, and a field only if its path leads to one. An optional field has no
type of its own: it can be the subject of a guard, and nothing else can read it.
-/

namespace FieldRules

/-- The kind of value that an expression has. -/
inductive ExprType where
  /-- A value as fields hold it: a primitive value, or a container of such. -/
  | value (category : Category) (shape : ShapeKind)
  /-- A length or an element count. -/
  | size
  /-- A truth value that has been computed. -/
  | check
  deriving DecidableEq, Repr

/-- What a field holds, once it is known to be present. -/
def FieldType.exprType (type : FieldType) : ExprType :=
  .value type.category type.shape.kind

/-- The type of a constant. -/
def Literal.exprType : Literal → ExprType
  | .text _ => .value .string .plain
  | .int _ | .unsigned _ => .value .integer .plain
  | .float _ => .value .float .plain
  | .bool _ => .value .bool .plain
  | .size _ => .size

/-- Two values of the type can be compared: primitive values outside containers, or sizes. -/
def ExprType.IsComparable : ExprType → Prop
  | .value category shape => category ≠ .other ∧ shape = .plain
  | .size => True
  | .check => False

instance (t : ExprType) : Decidable t.IsComparable := by
  unfold ExprType.IsComparable
  cases t <;> infer_instance

/-- The types of the places that an expression reads. -/
structure Context where
  /-- The path leads from the validated type to a field of this type. -/
  field : List String → FieldType → Prop
  /-- What the innermost guard has bound. -/
  bound : Option ExprType := none
  /-- The element that the innermost statement about a collection has bound. -/
  element : Option ExprType := none

/-- The expression is well scoped in the context, and has a value of the type. -/
inductive Expr.HasType : Context → Expr → ExprType → Prop where
  | const {Γ : Context} {b : Bool} : HasType Γ (.const b) .check
  /-- A field that cannot be absent is read by its path. -/
  | field {Γ : Context} {path : List String} {type : FieldType} :
      Γ.field path type → type.optional = false → HasType Γ (.field path) type.exprType
  | bound {Γ : Context} {t : ExprType} : Γ.bound = some t → HasType Γ (.value .bound) t
  | element {Γ : Context} {t : ExprType} : Γ.element = some t → HasType Γ (.value .element) t
  | literal {Γ : Context} {l : Literal} : HasType Γ (.literal l) l.exprType
  /-- Texts, lists and dictionaries have a size. -/
  | len {Γ : Context} {e : Expr} {category : Category} {shape : ShapeKind} :
      HasType Γ e (.value category shape) →
      shape.isSized = true ∨ category = .string ∧ shape = .plain → HasType Γ (.len e) .size
  | lower {Γ : Context} {e : Expr} :
      HasType Γ e (.value .string .plain) → HasType Γ (.lower e) (.value .string .plain)
  | asStr {Γ : Context} {e : Expr} :
      HasType Γ e (.value .string .plain) → HasType Γ (.asStr e) (.value .string .plain)
  /-- Integers are widened to integers. -/
  | widenInteger {Γ : Context} {w : Widening} {e : Expr} : w ≠ .float →
      HasType Γ e (.value .integer .plain) → HasType Γ (.widen w e) (.value .integer .plain)
  /-- Floating-point numbers are widened to such. -/
  | widenFloat {Γ : Context} {e : Expr} :
      HasType Γ e (.value .float .plain) → HasType Γ (.widen .float e) (.value .float .plain)
  | isEmail {Γ : Context} {e : Expr} :
      HasType Γ e (.value .string .plain) → HasType Γ (.isEmail e) .check
  /-- Values of one type are compared. -/
  | compare {Γ : Context} {c : Comparison} {lhs rhs : Expr} {t : ExprType} : t.IsComparable →
      HasType Γ lhs t → HasType Γ rhs t → HasType Γ (.compare c lhs rhs) .check
  | not {Γ : Context} {e : Expr} : HasType Γ e .check → HasType Γ (.not e) .check
  | connect {Γ : Context} {op : Connective} {terms : List Expr} :
      (∀ e ∈ terms, HasType Γ e .check) → HasType Γ (.connect op terms) .check
  /-- The constants are of the type of the value. -/
  | inSet {Γ : Context} {item : Expr} {set : List Literal} {t : ExprType} : t.IsComparable →
      HasType Γ item t → (∀ l ∈ set, l.exprType = t) → HasType Γ (.inSet item set) .check
  /-- A statement about the elements of a list, or about the keys of a dictionary. -/
  | every {Γ : Context} {collection body : Expr} {category : Category} {shape : ShapeKind} :
      shape ≠ .plain → HasType Γ collection (.value category shape) →
      HasType { Γ with element := some (.value category .plain) } body .check →
      HasType Γ (.every collection (shape == .dict) body) .check
  /-- The guard of an optional field. -/
  | someAnd {Γ : Context} {path : List String} {type : FieldType} {body : Expr} :
      Γ.field path type → type.optional = true →
      HasType { Γ with bound := some type.exprType } body .check →
      HasType Γ (.someAnd (.field path) body) .check

/-- Terms that are checks can be joined. -/
theorem Expr.hasType_join {Γ : Context} {op : Connective} {terms : List Expr}
    (h : ∀ e ∈ terms, e.HasType Γ .check) : (Expr.join op terms).HasType Γ .check := by
  match terms with
  | [] => exact .connect h
  | [term] => exact h term List.mem_cons_self
  | _ :: _ :: _ => exact .connect h

end FieldRules
