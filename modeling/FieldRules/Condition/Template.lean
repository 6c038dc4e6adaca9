import FieldRules.Condition.Message
import FieldRules.Expr

/-!
# Templates of conditions

What each operation checks on each category and kind of shape: which side of the field is looked at,
how it is tested, what it is tested against and how a failure is worded. An optional type shares the
template of the type inside.
-/

namespace FieldRules

/-- What a check looks at. -/
inductive Operand where
  /-- The value itself. -/
  | value
  /-- Its size. -/
  | len
  /-- Its lower case. -/
  | lower
  deriving DecidableEq, Repr

/-- How a check tests its operand. -/
inductive Test where
  /-- By comparing it with each right side. -/
  | compare (c : Comparison)
  /-- By the format of an email address. -/
  | email
  /-- By membership of every element. -/
  | allIn
  /-- By non-membership of every element. -/
  | noneIn
  /-- Not at all. -/
  | always
  deriving DecidableEq, Repr

/-- What a check compares with. -/
inductive RightSide where
  /-- A constant. -/
  | fixed (l : Literal)
  /-- The targets of the validation. -/
  | targets
  /-- Another field. -/
  | peer
  /-- Nothing. -/
  | nothing
  deriving DecidableEq, Repr

/-- What an operation checks. -/
structure Template where
  /-- What is looked at. -/
  operand : Operand
  /-- How it is tested. -/
  test : Test
  /-- What it is compared with. -/
  right : RightSide
  /-- How the tests against several right sides are joined. -/
  connective : Option Connective
  /-- How a failure is worded. -/
  message : List MessagePart
  deriving DecidableEq, Repr

namespace Template

/-- A message about the field without targets. -/
def plainMessage (phrase : String) : List MessagePart :=
  [.name, .text phrase]

/-- A message about the field with the first target. -/
def targetMessage (phrase : String) (rest : String) : List MessagePart :=
  [.name, .text phrase, .target, .text rest]

/-- A message about the field with all targets. -/
def targetsMessage (phrase : String) : List MessagePart :=
  [.name, .text phrase, .targets]

/-- How a comparison is worded. -/
def comparisonPhrase : Comparison → String
  | .eq => " must be equal to "
  | .ne => " must not be equal to "
  | c => " must be " ++ c.symbol ++ " "

/-- A comparison of an operand. -/
def compared (operand : Operand) (c : Comparison) (right : RightSide)
    (message : List MessagePart) : Template :=
  ⟨operand, .compare c, right, none, message⟩

/-- A plain value is required to differ from this one. -/
def emptyLiteral : Category → Option Literal
  | .string => some (.text "")
  | .integer => some (.int 0)
  | .float => some (.float (Double.zero false))
  | .bool => some (.bool false)
  | .other => none

/-- What `required` checks. -/
def required (category : Category) : ShapeKind → Option Template
  | .plain =>
    (emptyLiteral category).map fun l =>
      compared .value .ne (.fixed l) (plainMessage " is required")
  | .list | .dict =>
    some (compared .len .ne (.fixed (.size 0)) (plainMessage " must not be empty"))
  | .fixedList => some ⟨.value, .always, .nothing, none, plainMessage " is required"⟩

/-- What a comparison of the value with `right` checks. -/
def comparison (c : Comparison) (right : RightSide) (category : Category) (shape : ShapeKind) :
    Option Template :=
  if shape = .plain ∧ (c.isOrder = false ∨ category.isOrdered) then
    some (compared .value c right (targetMessage (comparisonPhrase c) ""))
  else none

/-- The wording of a limit on the length of a text. -/
def lengthPhrase : Limit → String
  | .min => " length must be >= "
  | .max => " length must be <= "
  | .len => " length must be "

/-- The wording of a limit on the number of elements. -/
def countPhrase : Limit → String
  | .min => " must have at least "
  | .max => " must have at most "
  | .len => " must have exactly "

/-- What a limit checks. -/
def limit (l : Limit) (category : Category) (shape : ShapeKind) : Option Template :=
  match shape with
  | .list | .dict =>
    some (compared .len l.comparison .targets (targetMessage (countPhrase l) " elements"))
  | .fixedList => none
  | .plain =>
    if category = .string then
      some (compared .len l.comparison .targets (targetMessage (lengthPhrase l) ""))
    else if category.isOrdered ∧ l ≠ .len then
      some (compared .value l.comparison .targets
        (targetMessage (comparisonPhrase l.comparison) ""))
    else none

/-- What membership checks, of a value or of every element. -/
def member (negated : Bool) : ShapeKind → Template
  | .plain =>
    if negated then
      ⟨.value, .compare .ne, .targets, some .and, targetsMessage " must not be one of "⟩
    else ⟨.value, .compare .eq, .targets, some .or, targetsMessage " must be one of "⟩
  | shape =>
    let part := if shape = .dict then " keys" else " elements"
    if negated then
      ⟨.value, .noneIn, .targets, none, targetsMessage (part ++ " must not be one of ")⟩
    else ⟨.value, .allIn, .targets, none, targetsMessage (part ++ " must be one of ")⟩

/-- What an operation checks on a category and a kind of shape. -/
def of (op : Operation) (category : Category) (shape : ShapeKind) : Option Template :=
  match op with
  | .required => required category shape
  | .compare c => comparison c .targets category shape
  | .sameText negated =>
    let c : Comparison := if negated then .ne else .eq
    if category = .string ∧ shape = .plain then
      some (compared .lower c .targets (targetMessage (comparisonPhrase c) ""))
    else none
  | .limit l => limit l category shape
  | .member negated => some (member negated shape)
  | .email =>
    if category = .string ∧ shape = .plain then
      some ⟨.value, .email, .nothing, none, plainMessage " must be a valid email"⟩
    else none
  | .compareField c => comparison c .peer category shape

end Template

end FieldRules
