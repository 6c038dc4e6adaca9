import FieldRules.Proofs.Expr.Decides
import FieldRules.Validation

/-!
# What a validation demands

The meaning of a validation that looks at its field alone, said about the value of the field and the
targets as they are read, and without the checks that are generated for it. A value that is not set
meets no demand, not even a negated one.
-/

namespace FieldRules

/-! ### Values of a type -/

namespace Value

/-- A value of a shape whose primitive values are of one category. -/
inductive HasShape (category : Category) : Shape → Value → Prop where
  /-- A primitive value. -/
  | plain {x : Scalar} : x.category = category → HasShape category .plain (.scalar x)
  /-- A list of any length. -/
  | list {xs : List Scalar} : (∀ x ∈ xs, x.category = category) → HasShape category .list (.list xs)
  /-- A list of a length that the type gives. -/
  | fixedList {xs : List Scalar} : (∀ x ∈ xs, x.category = category) →
      HasShape category (.fixedList xs.length) (.list xs)
  /-- A dictionary; the type is the type of its keys. -/
  | dict {keys : List Scalar} : (∀ x ∈ keys, x.category = category) →
      HasShape category .dict (.dict keys)

/-- A value that a field of the type can have. -/
inductive HasType (type : FieldType) : Value → Prop where
  /-- A value of a type that is not optional. -/
  | bare {v : Value} : type.optional = false → v.HasShape type.category type.shape → HasType type v
  /-- An optional value that is not set. -/
  | absent : type.optional = true → HasType type .absent
  /-- An optional value that is set. -/
  | present {v : Value} : type.optional = true → v.HasShape type.category type.shape →
      HasType type (.present v)

/-- An optional value is set and has the property, or any other value has it. -/
def SetAnd (P : Value → Prop) : Value → Prop
  | .absent => False
  | .present v => P v
  | v => P v

/-- A value of a shape is not optional. -/
theorem HasShape.setAnd_iff {category : Category} {shape : Shape} {v : Value} {P : Value → Prop}
    (h : HasShape category shape v) : v.SetAnd P ↔ P v := by
  cases h <;> rfl

theorem HasShape.exists_text {v : Value} (h : v.HasShape .string .plain) :
    ∃ s, v = .scalar (.text s) := by
  cases h with
  | plain hx =>
    obtain ⟨s, rfl⟩ := Scalar.exists_text hx
    exact ⟨s, rfl⟩

theorem HasShape.exists_number {v : Value} (h : v.HasShape .integer .plain) :
    ∃ n, v = .scalar (.number n) := by
  cases h with
  | plain hx =>
    obtain ⟨n, rfl⟩ := Scalar.exists_number hx
    exact ⟨n, rfl⟩

/-- What a limit applies to: a number itself, and otherwise the size. -/
def measure? (rt : Runtime) : Value → Option Int
  | .scalar (.number n) => some n
  | v => (v.size? rt).map fun n => (n : Int)

end Value

/-! ### Demands -/

/-- The value that `required` rules out. -/
def Scalar.IsEmpty : Scalar → Prop
  | .text s => s = ""
  | .number n => n = 0
  | .truth b => b = false

/-- The first text is the second up to letter case, or it is not. -/
def SameText (negated : Bool) (s t : String) : Prop :=
  if negated then Text.lowered s ≠ Text.lowered t else Text.lowered s = Text.lowered t

/-- The quantity keeps the limit. -/
def Limit.Allows (l : Limit) (quantity bound : Int) : Prop :=
  match l with
  | .min => bound ≤ quantity
  | .max => quantity ≤ bound
  | .len => quantity = bound

/-- The value is one of the targets, or none of them. -/
def IsMember (negated : Bool) (targets : List Scalar) (x : Scalar) : Prop :=
  if negated then x ∉ targets else x ∈ targets

/-- The targets of a validation as they are read. -/
def Validation.targets? (v : Validation) (type : FieldType) : Option (List Scalar) :=
  v.values.mapM fun value =>
    ((TargetKind.of v.operation type).read value).bind Literal.scalar?

/-- What an operation demands of a value of the given shape. -/
def Operation.Demands (op : Operation) (rt : Runtime) (shape : Shape) (targets : List Scalar)
    (v : Value) : Prop :=
  match op, v with
  | .required, .scalar x => ¬ x.IsEmpty
  | .required, .list xs => shape.kind = .fixedList ∨ xs ≠ []
  | .required, .dict keys => keys ≠ []
  | .compare c, .scalar x => ∃ y, targets = [y] ∧ c.Holds x y
  | .sameText negated, .scalar (.text s) => ∃ t, targets = [.text t] ∧ SameText negated s t
  | .limit l, v => ∃ m n, v.measure? rt = some m ∧ targets = [.number n] ∧ l.Allows m n
  | .member negated, .scalar x => IsMember negated targets x
  | .member negated, .list xs => ∀ x ∈ xs, IsMember negated targets x
  | .member negated, .dict keys => ∀ x ∈ keys, IsMember negated targets x
  | .email, .scalar (.text s) => rt.isEmail s = true
  | _, _ => False

end FieldRules
