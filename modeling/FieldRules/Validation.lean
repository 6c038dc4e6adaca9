import FieldRules.Operation

/-!
# Validations

A validation is one demand on a field: an operation with its targets. Its text is the canonical
entry of a tag: the name alone, the name and one target, or the name and a list of quoted targets,
according to the arity of the operation.
-/

namespace FieldRules

/-- An operation with its targets, as one entry of a tag states it. -/
structure Validation where
  /-- The operation. -/
  operation : Operation
  /-- The targets, as they were written. -/
  values : List String
  deriving DecidableEq, Repr

namespace Validation

/-- A target between apostrophes. -/
def apostrophed (value : String) : String :=
  "'" ++ value ++ "'"

/-- The targets between apostrophes, with spaces between them. -/
def apostrophedList (values : List String) : String :=
  " ".intercalate (values.map apostrophed)

/-- The canonical entry of a validation. -/
def text (v : Validation) : String :=
  match v.operation.arity with
  | .zero => v.operation.name
  | .one => v.operation.name ++ "=" ++ String.join v.values
  | .many => v.operation.name ++ "=" ++ apostrophedList v.values

end Validation

end FieldRules
