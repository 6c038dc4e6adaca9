import FieldRules.Text.Replace
import FieldRules.Validation

/-!
# Messages

The message of a failed check is made from a template with placeholders for the name of the field,
for the first target and for all targets. The placeholders are filled one kind after the other: all
targets, then the first target, then the name. A placeholder that a target happens to spell is
therefore filled as well.
-/

namespace FieldRules

open Text

/-- A part of the template of a message. -/
inductive MessagePart where
  /-- Text as it stands. -/
  | text (s : String)
  /-- The name of the field. -/
  | name
  /-- The first target. -/
  | target
  /-- All targets, between apostrophes. -/
  | targets
  deriving DecidableEq, Repr

/-- A part as the template spells it. -/
def MessagePart.spelling : MessagePart → List Char
  | .text s => s.toList
  | .name => "\x7bname\x7d".toList
  | .target => "\x7btarget\x7d".toList
  | .targets => "\x7btargets\x7d".toList

/-- What the placeholders of a message stand for. -/
structure MessageValues where
  /-- The name of the field. -/
  name : String
  /-- The first target. -/
  target : String
  /-- All targets. -/
  targets : String
  deriving DecidableEq, Repr

/-- The message that a template gives. -/
def fillMessage (template : List MessagePart) (values : MessageValues) : String :=
  let cs := template.flatMap MessagePart.spelling
  let cs := replaceAll MessagePart.targets.spelling values.targets.toList cs
  let cs := replaceAll MessagePart.target.spelling values.target.toList cs
  String.ofList (replaceAll MessagePart.name.spelling values.name.toList cs)

end FieldRules
