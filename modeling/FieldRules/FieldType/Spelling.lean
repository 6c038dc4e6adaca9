import FieldRules.FieldType
import FieldRules.Numeral.Integer
import FieldRules.Text.Blank

/-!
# The spelling of types

`FieldType.ofSpelling` reads a type as it is written in a declaration. Three spellings are peeled
off, at most one of each kind: an option around everything, and then one list, array or dictionary.
A spelling is recognised as a whole, from its name to the bracket that ends the text, and what
stands between the brackets must not be empty or contain a line break. Whatever is not recognised is
a plain type by its own spelling.

A nested container is not looked into: its inner spelling becomes the base type, which no primitive
matches.
-/

namespace FieldRules

open Text

namespace FieldType

/-! ### Bracketed arguments -/

/-- The names of the option type. -/
def optionNames : List String :=
  ["Option", "std::option::Option", "core::option::Option"]

/-- The names of the list type. -/
def listNames : List String :=
  ["Vec", "std::vec::Vec", "alloc::vec::Vec"]

/-- The names of the dictionary types. -/
def dictNames : List String :=
  ["HashMap", "BTreeMap", "IndexMap", "indexmap::IndexMap"].flatMap fun name =>
    [name, "std::collections::" ++ name]

/-- What precedes the character `last` that ends the text. -/
def beforeLast (last : Char) (cs : List Char) : Option (List Char) :=
  if cs.getLast? = some last then some cs.dropLast else none

/-- The text between brackets is neither empty nor broken over lines. -/
def isArgument (cs : List Char) : Bool :=
  !cs.isEmpty && !cs.contains '\n'

/-- The arguments of `name<arguments>`; blanks may stand before the bracket. -/
def argumentsOf (cs : List Char) (name : String) : Option (List Char) :=
  match (name.toList.isPrefixOf? cs).map trimStart with
  | some ('<' :: rest) => (beforeLast '>' rest).filter isArgument
  | _ => none

/-- The arguments of a type with one of the given names. -/
def argumentsOfAny (names : List String) (cs : List Char) : Option (List Char) :=
  names.findSome? (argumentsOf cs)

/-- The text before and after the last semicolon. -/
def cutLastSemicolon (cs : List Char) : Option (List Char × List Char) :=
  let after := cs.reverse.takeWhile (· != ';')
  if after.length < cs.length then
    some (cs.take (cs.length - after.length - 1), after.reverse)
  else none

/-- The element type and the length of `[element; length]`. -/
def arrayParts (cs : List Char) : Option (List Char × Nat) :=
  match cs with
  | '[' :: rest => do
    let inner ← beforeLast ']' rest
    let (element, length) ← cutLastSemicolon inner
    let size ← Numeral.readDigits (trim length)
    if isArgument element ∧ size ≤ Numeral.maxSize then some (element, size) else none
  | _ => none

/-! ### Top-level arguments -/

/-- How a character changes the depth of brackets. -/
def depthStep (c : Char) : Int :=
  if c = '<' ∨ c = '(' ∨ c = '[' then 1
  else if c = '>' ∨ c = ')' ∨ c = ']' then -1
  else 0

/-- The pieces between the commas that stand at bracket depth zero. -/
def topLevelPieces (depth : Int) : List Char → List (List Char)
  | [] => [[]]
  | c :: cs =>
    if c = ',' ∧ depth = 0 then [] :: topLevelPieces depth cs
    else (topLevelPieces (depth + depthStep c) cs).modifyHead (c :: ·)

/-- The arguments between top-level commas, without the blanks around them. A blank last argument is
dropped, so a trailing comma is allowed. -/
def splitArguments (cs : List Char) : List (List Char) :=
  let arguments := (topLevelPieces 0 cs).map trim
  if arguments.getLast? = some [] then arguments.dropLast else arguments

/-! ### Base types -/

/-- What a reference refers to: the spelling after `&` and an optional lifetime. -/
def referent (cs : List Char) : List Char :=
  match trim cs with
  | '&' :: rest =>
    match trimStart rest with
    | '\'' :: lifetime => trim ((lifetime.dropWhile (!isBlank ·)).drop 1)
    | target => trim target
  | target => target

/-- The spellings of each primitive category. -/
def primitiveNames : Category → List String
  | .string => ["String", "std::string::String", "alloc::string::String", "str"]
  | .bool => ["bool"]
  | .integer =>
    ["i8", "i16", "i32", "i64", "i128", "isize", "u8", "u16", "u32", "u64", "u128", "usize"]
  | .float => ["f32", "f64"]
  | .other => []

/-- The category of a base type, a reference counting as what it refers to. -/
def categoryOf (base : List Char) : Category :=
  let name := String.ofList (referent base)
  (Category.all.find? fun category => (primitiveNames category).contains name).getD .other

/-! ### The whole spelling -/

/-- The shape of a type and the spelling of its base type. -/
def shapeOf (cs : List Char) : Shape × List Char :=
  match argumentsOfAny listNames cs with
  | some element => (.list, trim element)
  | none =>
    match arrayParts cs with
    | some (element, size) => (.fixedList size, trim element)
    | none =>
      match argumentsOfAny dictNames cs with
      | some arguments => (.dict, (splitArguments arguments).headD [])
      | none => (.plain, cs)

/-- The type that a declaration spells as `raw`. -/
def ofSpelling (raw : String) : FieldType :=
  let cs := trim raw.toList
  let argument := argumentsOfAny optionNames cs
  let (shape, base) := shapeOf ((argument.map trim).getD cs)
  ⟨categoryOf base, shape, argument.isSome, String.ofList base⟩

end FieldType

end FieldRules
