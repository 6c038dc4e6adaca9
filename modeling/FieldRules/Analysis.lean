import FieldRules.Scope
import FieldRules.Tag
import FieldRules.Widening

/-!
# Analysis

The analysis reads the tags of all fields and checks every validation against the type of its field.
It goes over the declarations twice. The first pass only reads, so a tag that cannot be read is
reported before any validation that makes no sense. The second pass checks against the declarations
as they were handed in, so their order does not matter.

A validation that compares fields names its peer by a path: every segment but the last is a field
whose type is a declaration, plain and not optional, and the last is the peer.
-/

namespace FieldRules

namespace Analysis

/-! ### Peers -/

/-- The validation that a fault is about: its declaration, its field and its operation. -/
structure Site where
  /-- The declaration. -/
  owner : Declaration
  /-- The field. -/
  field : Field
  /-- The operation. -/
  operation : Operation
  deriving DecidableEq, Repr

/-- The operation is not legal for a type with this spelling. -/
def Site.illegal (site : Site) (type : String) : SemanticError :=
  .invalidOperation site.owner.name site.field.name site.operation type

/-- The reference leads nowhere, at its first segment or later. -/
def Site.undefined (site : Site) (reference : String) (nested : Bool) : SemanticError :=
  if nested then .undefinedNestedField site.owner.name site.field.name reference
  else .undefinedField site.owner.name site.field.name reference

/-- The declaration that a path enters through a field which is not its last one. -/
def enterField (scope : Scope) (site : Site) (reference : String) (current : Declaration)
    (field : Field) : Except SemanticError Declaration :=
  if field.fieldType.isPrimitive then .error (site.undefined reference true)
  else if !field.fieldType.isBare then .error (site.illegal field.type)
  else
    match scope.find? current.package field.fieldType.base with
    | none => .error (site.undefined reference true)
    | some next => .ok next

/-- The field at the end of a path through nested declarations. `enter` leads through a field into
the next declaration, `undefined` is the fault of a name that is no field, and `nested` says that
the path has already left the declaration that it starts in. -/
def followPath (enter : Declaration → Field → Except SemanticError Declaration)
    (undefined : Bool → SemanticError) (nested : Bool) (current : Declaration) :
    List String → Except SemanticError Field
  | [] => .error (undefined nested)
  | segment :: rest =>
    match current.field? segment with
    | none => .error (undefined nested)
    | some field =>
      if rest = [] then .ok field
      else
        match enter current field with
        | .error fault => .error fault
        | .ok next => followPath enter undefined true next rest

/-- The text of the reference to a peer. -/
def peerReference (validation : Validation) : String :=
  Text.trimmed (validation.values.headD "")

/-- The segments of a reference to a peer. -/
def peerPath (reference : String) : List String :=
  (reference.toList.splitOn '.').map fun segment => String.ofList (Text.trim segment)

/-- The field that a reference means. -/
def findPeer (scope : Scope) (site : Site) (reference : String) : Except SemanticError Field :=
  followPath (enterField scope site reference) (site.undefined reference) false site.owner
    (peerPath reference)

/-- Values of the two types can be compared: one category, and integers that fit a common type. -/
def comparable (left right : FieldType) : Bool :=
  left.category == right.category &&
    (left.category != .integer || Text.trimmed left.base == Text.trimmed right.base ||
      (Widening.commonInteger left.base right.base).isSome)

/-- The peer of a field comparison on a field of type `type`. -/
def resolvePeer (scope : Scope) (site : Site) (type : FieldType) (validation : Validation) :
    Except SemanticError Peer :=
  let reference := peerReference validation
  match findPeer scope site reference with
  | .error fault => .error fault
  | .ok target =>
    if !comparable type target.fieldType then
      .error (.mismatchedTypes site.owner.name site.field.name reference)
    else if !site.operation.isLegalForType type then .error (site.illegal site.field.type)
    else if !target.fieldType.isBare then .error (site.illegal target.type)
    else .ok ⟨peerPath reference, target.fieldType⟩

/-! ### Validations -/

/-- The rule that a validation makes for a field. Fields whose type is not primitive only understand
`required`, and only outside containers; what else they demand is up to their own declaration. -/
def checkValidation (scope : Scope) (owner : Declaration) (field : Field)
    (validation : Validation) : Except SemanticError Rule :=
  let type := field.fieldType
  let site : Site := ⟨owner, field, validation.operation⟩
  if !type.isPrimitive then
    if validation.operation = .required ∧ type.shape = .plain then .ok ⟨validation, none⟩
    else .error (site.illegal field.type)
  else if validation.operation.comparesFields then
    (resolvePeer scope site type validation).map fun peer => ⟨validation, some peer⟩
  else if !validation.operation.isLegalForType type then .error (site.illegal field.type)
  else
    let kind := TargetKind.of validation.operation type
    match validation.values.find? fun value => (kind.read value).isNone with
    | some value =>
      .error (.invalidTarget owner.name field.name validation.operation value kind)
    | none => .ok ⟨validation, none⟩

/-! ### Declarations -/

/-- The validations that the tag of a field states. -/
def readTag (owner : Declaration) (field : Field) : Except Error (Field × List Validation) :=
  match Tag.validations field.tag with
  | .error fault => .error ((Error.tag owner.name field.name fault).at? owner.location)
  | .ok validations => .ok (field, validations)

/-- A declaration with the validations that its tags state. -/
def readTags (owner : Declaration) : Except Error (Declaration × List (Field × List Validation)) :=
  (owner.fields.mapM (readTag owner)).map (owner, ·)

/-- A field with the rules that its validations make. -/
def attachRules (scope : Scope) (owner : Declaration) (field : Field)
    (validations : List Validation) : Except Error Field :=
  match validations.mapM (checkValidation scope owner field) with
  | .error fault => .error ((Error.semantic fault).at? owner.location)
  | .ok rules => .ok { field with rules }

/-- A declaration with the rules of its fields. -/
def annotate (scope : Scope) (owner : Declaration) (fields : List (Field × List Validation)) :
    Except Error Declaration :=
  (fields.mapM fun (field, validations) => attachRules scope owner field validations).map
    fun fields => { owner with fields, hasValidations := fields.any (·.rules ≠ []) }

end Analysis

/-- The declarations with their rules, or the first fault. -/
def analyze (types : List Declaration) : Except Error (List Declaration) :=
  match Scope.build types with
  | .error fault => .error fault
  | .ok scope =>
    match types.mapM Analysis.readTags with
    | .error fault => .error fault
    | .ok read => read.mapM fun (owner, fields) => Analysis.annotate scope owner fields

end FieldRules
