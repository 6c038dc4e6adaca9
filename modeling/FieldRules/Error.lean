import FieldRules.Declaration
import FieldRules.Literal
import FieldRules.Tag.Error

/-!
# Errors

The faults that the library reports, each with the data its wording needs. A semantic fault lies in
the declarations, an internal one in the tables of the library itself. `Error.chain` lists the
wordings from the outermost to the innermost, as a command line prints them.
-/

namespace FieldRules

/-- The annotations can be read but make no sense for the declared types. -/
inductive SemanticError where
  /-- The operation is not legal for the type. -/
  | invalidOperation (owner field : String) (op : Operation) (type : String)
  /-- A target is not what the operation expects. -/
  | invalidTarget (owner field : String) (op : Operation) (value : String) (expected : TargetKind)
  /-- The first segment of a reference names no field. -/
  | undefinedField (owner field reference : String)
  /-- A later segment of a reference leads nowhere. -/
  | undefinedNestedField (owner field reference : String)
  /-- The compared fields have no common type. -/
  | mismatchedTypes (owner left right : String)
  /-- A name is declared twice in a package. -/
  | duplicateType (name package : String)
  /-- A field is required to be valid, but its type has no validations. -/
  | noValidator (owner field type : String)
  deriving DecidableEq, Repr

/-- The wording of a semantic fault. -/
def SemanticError.message : SemanticError → String
  | .invalidOperation owner field op type =>
    owner ++ "." ++ field ++ ": invalid operation `" ++ op.name ++ "` for type `" ++ type ++ "`"
  | .invalidTarget owner field op value expected =>
    owner ++ "." ++ field ++ ": invalid target `" ++ value ++ "` for `" ++ op.name ++
      "`, expected " ++ expected.description
  | .undefinedField owner field reference =>
    owner ++ "." ++ field ++ ": undefined field `" ++ reference ++ "`"
  | .undefinedNestedField owner field reference =>
    owner ++ "." ++ field ++ ": undefined nested field `" ++ reference ++ "`"
  | .mismatchedTypes owner left right =>
    owner ++ ": mismatched types between `" ++ left ++ "` and `" ++ right ++ "`"
  | .duplicateType name package =>
    "type `" ++ name ++ "` is declared more than once in package `" ++ package ++ "`"
  | .noValidator owner field type =>
    owner ++ "." ++ field ++ ": no validator found for type `" ++ type ++ "`"

/-- A rule for which the library has no check. -/
inductive InternalError where
  /-- No condition exists for the operation on this class of types. -/
  | missingCondition (op : Operation) (typeClass : TypeClass)
  /-- Several right operands, or none, and no connective to join them. -/
  | missingConnective (op : Operation) (count : Nat)
  /-- A target cannot be written as a literal. -/
  | invalidLiteral (op : Operation) (value : String)
  deriving DecidableEq, Repr

/-- The wording of an internal fault. -/
def InternalError.message : InternalError → String
  | .missingCondition op typeClass =>
    "unsupported operation `" ++ op.name ++ "` for type class " ++ typeClass.text
  | .missingConnective op count =>
    "`" ++ op.name ++ "` produced " ++ String.ofList (Numeral.digits count) ++
      " right operands but defines no concatenation operator"
  | .invalidLiteral op value => "`" ++ op.name ++ "`: cannot render literal `" ++ value ++ "`"

/-- A fault of any stage. -/
inductive Error where
  /-- The tag of a field cannot be read. -/
  | tag (owner field : String) (fault : TagError)
  /-- The declarations make no sense. -/
  | semantic (fault : SemanticError)
  /-- The library has no check for a rule. -/
  | internal (fault : InternalError)
  /-- A fault of a declaration whose place is known. -/
  | located (location : SourceLocation) (inner : Error)
  deriving DecidableEq, Repr

namespace Error

/-- The wording of a fault. -/
def message : Error → String
  | .tag owner field fault => owner ++ "." ++ field ++ ": " ++ fault.message
  | .semantic fault => fault.message
  | .internal fault => "internal error: " ++ fault.message
  | .located location inner => location.text ++ ": " ++ inner.message

/-- The wordings of a fault and of the faults inside it. -/
def chain (e : Error) : List String :=
  match e with
  | .tag _ _ fault => [e.message, fault.message]
  | .semantic _ => [e.message]
  | .internal fault => [e.message, fault.message]
  | .located _ inner => e.message :: inner.chain

/-- The fault, at the place of a declaration if that is known. -/
def at? (e : Error) : Option SourceLocation → Error
  | some location => .located location e
  | none => e

end Error

end FieldRules
