import FieldRules.Condition.Template
import FieldRules.Error
import FieldRules.Text.Case

/-!
# Conditions

A condition is the check and the message of one rule of one field. `Condition.build` makes it from
the template of the rule, and `Condition.expr` is the whole check: the tests against all right sides
joined, under the guard of an optional field.
-/

namespace FieldRules

/-- How a condition tests its left side. -/
inductive Operator where
  /-- By comparing it with each right side. -/
  | compare (c : Comparison)
  /-- By the format of an email address. -/
  | email
  /-- Every element, or every key, is one of the right sides. -/
  | allIn (keys : Bool) (item : Expr)
  /-- No element, or no key, is one of the right sides. -/
  | noneIn (keys : Bool) (item : Expr)
  /-- Not at all. -/
  | always
  deriving Repr

/-- The check and the message of a rule. -/
structure Condition where
  /-- The operation of the rule. -/
  operation : Operation
  /-- What is tested. -/
  left : Expr
  /-- How it is tested. -/
  operator : Operator
  /-- What it is tested against. -/
  rights : List Expr
  /-- How the tests against several right sides are joined. -/
  connective : Option Connective
  /-- The optional value that has to be present before the left side can be read. -/
  guard : Option Expr
  /-- The message of a failure. -/
  message : String
  deriving Repr

namespace Condition

/-- The value of a field, as the template looks at it. -/
def operandExpr (operand : Operand) (value : Expr) : Expr :=
  match operand with
  | .value => value
  | .len => .len value
  | .lower => .lower value

/-- A literal as it is compared with an operand: a text in lower case with another in lower case. -/
def operandLiteral (operand : Operand) (l : Literal) : Literal :=
  match operand, l with
  | .lower, .text s => .text (Text.lowered s)
  | _, l => l

/-- The literal that a target is compared as. -/
def targetLiteral (op : Operation) (operand : Operand) (kind : TargetKind) (value : String) :
    Except InternalError Expr :=
  match kind.read value with
  | some l => .ok (.literal (operandLiteral operand l))
  | none => .error (.invalidLiteral op value)

/-- The type in which a field of type `type` is compared with a peer; `none` if they agree. -/
def peerWidening (op : Operation) (type peer : FieldType) :
    Except InternalError (Option Widening) :=
  if Text.trimmed peer.base = Text.trimmed type.base then .ok none
  else
    match type.category with
    | .float => .ok (some .float)
    | .integer =>
      match Widening.commonInteger type.base peer.base with
      | some widening => .ok (some widening)
      | none => .error (.missingCondition op type.toClass)
    | _ => .ok none

/-- A value in a wider type, if there is one. -/
def widened (widening : Option Widening) (e : Expr) : Expr :=
  match widening with
  | some w => .widen w e
  | none => e

/-- The left and the right sides of a condition whose operand is `left`. -/
def sides (template : Template) (type : FieldType) (rule : Rule) (left : Expr) :
    Except InternalError (Expr × List Expr) :=
  let op := rule.validation.operation
  match template.right with
  | .fixed l => .ok (left, [.literal l])
  | .nothing => .ok (left, [])
  | .targets =>
    let kind := TargetKind.of op type
    (rule.validation.values.mapM (targetLiteral op template.operand kind)).map (left, ·)
  | .peer =>
    match rule.peer with
    | none => .error (.missingCondition op type.toClass)
    | some peer =>
      (peerWidening op type peer.type).map fun widening =>
        (widened widening left, [widened widening (.field peer.path)])

/-- An element of a collection, as it is compared with literals: an owned text is borrowed. -/
def elementItem (type : FieldType) : Expr :=
  if type.category = .string ∧ (Text.trimStart type.base.toList).head? ≠ some '&' then
    .asStr (.value .element)
  else .value .element

/-- How a template tests a field of the given type. -/
def operatorOf (test : Test) (type : FieldType) : Operator :=
  let keys := type.shape.kind == .dict
  match test with
  | .compare c => .compare c
  | .email => .email
  | .allIn => .allIn keys (elementItem type)
  | .noneIn => .noneIn keys (elementItem type)
  | .always => .always

/-- The first target as a message shows it: between apostrophes if it is a text, and otherwise
without the blanks around it. -/
def shownTarget (type : FieldType) (rule : Rule) : String :=
  match rule.validation.values with
  | [] => ""
  | value :: _ =>
    if rule.peer = none ∧ TargetKind.of rule.validation.operation type = .text then
      Validation.apostrophed value
    else Text.trimmed value

/-- The message of a rule. -/
def messageOf (template : Template) (field : String) (type : FieldType) (rule : Rule) : String :=
  fillMessage template.message
    ⟨field, shownTarget type rule, Validation.apostrophedList rule.validation.values⟩

/-- The condition of a rule on a field of the given name and type. -/
def build (field : String) (type : FieldType) (rule : Rule) : Except InternalError Condition :=
  let op := rule.validation.operation
  match Template.of op type.category type.shape.kind with
  | none => .error (.missingCondition op type.toClass)
  | some template =>
    let value : Expr := if type.optional then .value .bound else .field [field]
    match sides template type rule (operandExpr template.operand value) with
    | .error fault => .error fault
    | .ok (left, rights) => .ok {
        operation := op
        left
        operator := operatorOf template.test type
        rights
        connective := template.connective
        guard := if type.optional then some (.field [field]) else none
        message := messageOf template field type rule }

/-! ### The whole check -/

/-- The constants among some expressions. -/
def literalsOf (es : List Expr) : List Literal :=
  es.filterMap fun e =>
    match e with
    | .literal l => some l
    | _ => none

/-- The tests against all right sides joined; only a single test needs no connective. -/
def joinTests (condition : Condition) (tests : List Expr) : Except InternalError Expr :=
  match tests, condition.connective with
  | [test], _ => .ok test
  | [], _ => .error (.missingConnective condition.operation 0)
  | tests, some op => .ok (.join op tests)
  | tests, none => .error (.missingConnective condition.operation tests.length)

/-- The check without its guard. -/
def body (condition : Condition) : Except InternalError Expr :=
  match condition.operator with
  | .compare c => condition.joinTests (condition.rights.map (.compare c condition.left))
  | .email => .ok (.isEmail condition.left)
  | .allIn keys item =>
    .ok (.every condition.left keys (.inSet item (literalsOf condition.rights)))
  | .noneIn keys item =>
    .ok (.every condition.left keys (.not (.inSet item (literalsOf condition.rights))))
  | .always => .ok (.const true)

/-- The whole check of a condition. -/
def expr (condition : Condition) : Except InternalError Expr :=
  condition.body.map fun body =>
    match condition.guard with
    | some option => .someAnd option body
    | none => body

end Condition

end FieldRules
