import FieldRules.Condition
import FieldRules.Scope
import FieldRules.Validator.Name

/-!
# Validators

The validator of a declaration is a list of blocks, in the order of the fields. A primitive field
has one check for each of its rules. A field of a declared type is delegated to the validator of
that type, and is checked for presence first if it is both optional and required.
-/

namespace FieldRules

/-- A part of a validator. -/
inductive Block where
  /-- Reports `message` for `field` unless `condition` holds. -/
  | check (condition : Expr) (field message : String)
  /-- Reports what the validator of a nested value reports. -/
  | delegate (field call : String) (optional : Bool)
  deriving Repr

/-- What has to be written to validate a type. -/
structure Validator where
  /-- The name of the type. -/
  typeName : String
  /-- The name of the function. -/
  functionName : String
  /-- What the function does, in order. -/
  blocks : List Block
  deriving Repr

namespace Validator

/-- The check of a rule; none if it holds by construction. -/
def checkBlock (field : Field) (type : FieldType) (rule : Rule) : Except Error (Option Block) :=
  match Condition.build field.name type rule with
  | .error fault => .error (.internal fault)
  | .ok condition =>
    match condition.expr with
    | .error fault => .error (.internal fault)
    | .ok e => .ok (if e.isTrue then none else some (.check e field.name condition.message))

/-- The blocks of a primitive field. -/
def primitiveBlocks (field : Field) (type : FieldType) : Except Error (List Block) :=
  (field.rules.mapM (checkBlock field type)).map (·.filterMap id)

/-- The check that a nested value is present. -/
def presenceBlocks (field : Field) (type : FieldType) : List Block :=
  if type.optional ∧ field.rules ≠ [] then
    [.check (.someAnd (.field [field.name]) (.const true)) field.name
      (field.name ++ " is required")]
  else []

/-- The validator of a type, reached by the path that leads to the type. -/
def delegateCall (base typeName : String) : String :=
  match Text.cutLastSegment (Text.trim base.toList) with
  | some (path, _) => String.ofList (Text.trim path) ++ "::" ++ validatorName typeName
  | none => validatorName typeName

/-- The declaration whose validator a field is delegated to. -/
def delegateTarget (scope : Scope) (owner : Declaration) (type : FieldType) :
    Option Declaration :=
  (scope.find? owner.package type.base).filter (·.hasValidations)

/-- The delegation of a field to the validator of its type. -/
def delegateBlocks (scope : Scope) (owner : Declaration) (field : Field) (type : FieldType) :
    Except Error (List Block) :=
  if type.shape ≠ .plain then .ok []
  else
    match delegateTarget scope owner type with
    | some target => .ok [.delegate field.name (delegateCall type.base target.name) type.optional]
    | none =>
      if field.rules = [] then .ok []
      else
        .error ((Error.semantic (.noValidator owner.name field.name type.base)).at?
          owner.location)

/-- The blocks of a field. -/
def fieldBlocks (scope : Scope) (owner : Declaration) (field : Field) :
    Except Error (List Block) :=
  let type := field.fieldType
  if type.isPrimitive then primitiveBlocks field type
  else (delegateBlocks scope owner field type).map (presenceBlocks field type ++ ·)

/-- The validator of a declaration, whose rules the analysis has attached. -/
def ofDeclaration (scope : Scope) (owner : Declaration) : Except Error Validator :=
  (owner.fields.mapM (fieldBlocks scope owner)).map fun blocks =>
    ⟨owner.name, validatorName owner.name, blocks.flatten⟩

end Validator

end FieldRules
