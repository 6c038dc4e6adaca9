import FieldRules.TypeIndex

/-!
# Scopes

A scope is a list of declarations with its index: what a type reference is resolved in.
-/

namespace FieldRules

/-- Declarations with the index to find them by. -/
structure Scope where
  /-- The declarations. -/
  types : List Declaration
  /-- Their index. -/
  index : TypeIndex
  deriving DecidableEq, Repr

namespace Scope

/-- The scope of some declarations. -/
def build (types : List Declaration) : Except Error Scope :=
  match TypeIndex.build types with
  | .error fault => .error (.semantic fault)
  | .ok index => .ok ⟨types, index⟩

/-- The declaration that a reference written in `fromPackage` means. -/
def find? (scope : Scope) (fromPackage reference : String) : Option Declaration :=
  (scope.index.resolve fromPackage reference).bind (scope.types[·]?)

end Scope

end FieldRules
