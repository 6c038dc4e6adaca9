import FieldRules.FieldType.Spelling
import FieldRules.Validation

/-!
# Declarations

The declared types that are handed to the library, and what the analysis attaches to them: the rules
of each field and whether a declaration has any.
-/

namespace FieldRules

/-- Where a declaration stands. -/
structure SourceLocation where
  /-- The file. -/
  file : String
  /-- The line, or zero if only the file is known. -/
  line : Nat
  deriving DecidableEq, Repr

/-- The text of a location, without the line if it is not known. -/
def SourceLocation.text (location : SourceLocation) : String :=
  if location.line = 0 then location.file
  else location.file ++ ":" ++ String.ofList (Numeral.digits location.line)

/-- The field that a field is compared with. -/
structure Peer where
  /-- The names of fields that lead from the declaration of the rule to the peer. -/
  path : List String
  /-- The type of the peer. -/
  type : FieldType
  deriving DecidableEq, Repr

/-- A validation that the analysis has accepted. -/
structure Rule where
  /-- The validation. -/
  validation : Validation
  /-- The peer, if the validation compares fields. -/
  peer : Option Peer
  deriving DecidableEq, Repr

/-- A field of a declaration. -/
structure Field where
  /-- The name of the field. -/
  name : String
  /-- The spelling of its type. -/
  type : String
  /-- Its annotation. -/
  tag : String
  /-- The rules that the analysis has attached, in the order of the tag. -/
  rules : List Rule := []
  deriving DecidableEq, Repr

/-- The type of a field. -/
def Field.fieldType (field : Field) : FieldType :=
  .ofSpelling field.type

/-- A declared type. -/
structure Declaration where
  /-- The name of the type. -/
  name : String
  /-- The package it is declared in; empty at the root. -/
  package : String
  /-- Where it is declared, if that is known. -/
  location : Option SourceLocation
  /-- Its fields, in order. -/
  fields : List Field
  /-- Whether the analysis has attached a rule to any field. -/
  hasValidations : Bool := false
  deriving DecidableEq, Repr

namespace Declaration

/-- The name with its package. -/
def qualifiedName (d : Declaration) : String :=
  if d.package = "" then d.name else d.package ++ "::" ++ d.name

/-- The first field of the given name. -/
def field? (d : Declaration) (name : String) : Option Field :=
  d.fields.find? fun field => field.name == name

end Declaration

end FieldRules
