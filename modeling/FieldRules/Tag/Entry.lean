import FieldRules.Tag.Error
import FieldRules.Text.Blank
import FieldRules.Validation

/-!
# Entries of a tag

An entry is the name of an operation, alone or before an equals sign and the targets. A list of
targets is either a sequence of words between spaces and commas, or, as soon as it contains an
apostrophe, a sequence of texts between apostrophes.
-/

namespace FieldRules

open Text

namespace Tag

/-- What is wrong with a list of quoted targets. -/
inductive QuoteFault where
  /-- Text outside the apostrophes. -/
  | stray
  /-- The last target does not end. -/
  | unterminated
  deriving DecidableEq, Repr

/-- The quoted targets in a text. `current` is the part already read, in reverse, of the target that
the text starts inside of, and `none` between two targets. -/
def quotedValues (current : Option (List Char)) : List Char → Except QuoteFault (List (List Char))
  | [] => if current.isSome then .error .unterminated else .ok []
  | c :: cs =>
    match current with
    | some value =>
      if c = '\'' then (quotedValues none cs).map (value.reverse :: ·)
      else quotedValues (some (c :: value)) cs
    | none =>
      if isBlank c then quotedValues none cs
      else if c = '\'' then quotedValues (some []) cs
      else .error .stray

/-- The words between spaces and commas. -/
def words (cs : List Char) : List (List Char) :=
  (cs.splitOnP fun c => c == ' ' || c == ',').filter (· ≠ [])

/-- The targets of an operation that takes several. -/
def targetList (op : Operation) (target : List Char) : Except TagError (List String) :=
  let values : Except TagError (List (List Char)) :=
    if target.contains '\'' then
      match quotedValues none target with
      | .ok values => .ok values
      | .error .stray => .error (.invalidQuote op (String.ofList target))
      | .error .unterminated => .error (.unterminatedQuote op (String.ofList target))
    else .ok (words target)
  match values with
  | .error e => .error e
  | .ok [] => .error (.expectedManyTargets op)
  | .ok values => .ok (values.map String.ofList)

/-- The targets of an operation, read from the text after the equals sign. -/
def targets (op : Operation) (target : List Char) : Except TagError (List String) :=
  match op.arity with
  | .zero =>
    if target = [] then .ok [] else .error (.expectedZeroTarget op (String.ofList target))
  | .one =>
    if target = [] then .error (.expectedOneTarget op) else .ok [String.ofList target]
  | .many => targetList op target

/-- The validation with the given name and targets. -/
def validation (name target : List Char) : Except TagError Validation :=
  match Operation.ofName? (String.ofList name) with
  | none => .error (.unsupported (String.ofList name))
  | some op => (targets op target).map fun values => ⟨op, values⟩

end Tag

/-- The validation that an entry of a tag states. -/
def Validation.ofEntry (entry : String) : Except TagError Validation :=
  match entry.toList.splitOn '=' with
  | [name] => Tag.validation (trim name) []
  | [name, target] => Tag.validation (trim name) (trim target)
  | _ => .error (.malformed entry)

end FieldRules
