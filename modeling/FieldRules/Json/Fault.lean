import FieldRules.Json.Cursor
import FieldRules.Numeral.Shortest
import FieldRules.Text.Quoted

/-!
# Faults of a JSON text

What can be wrong with a text that should hold a value of a known form, and where. A `Fault` has a
position in the text, and a `Failure` also the path of keys and indices that leads to the value.
-/

namespace FieldRules.Json

/-- Numbers in faults are positional from `0.00001` up to `10 ^ 16`, and exponents have a sign; of
two equally near decimal forms the even one is taken. -/
def faultNumbers : DecimalStyle :=
  ⟨-5, 15, true, false⟩

/-- A value of the wrong kind. -/
inductive Found where
  /-- No value. -/
  | null
  /-- A truth value. -/
  | boolean (b : Bool)
  /-- An integer of at most 64 bits. -/
  | integer (n : Int)
  /-- Any other number. -/
  | float (x : Double)
  /-- A text. -/
  | text (cs : List Char)
  /-- An array. -/
  | sequence
  /-- An object. -/
  | map
  deriving DecidableEq, Repr

/-- How a value is named. -/
def Found.description : Found → String
  | .null => "null"
  | .boolean b => "boolean `" ++ (if b then "true" else "false") ++ "`"
  | .integer n => "integer `" ++ String.ofList (Numeral.integerText n) ++ "`"
  | .float x => "floating point `" ++ String.ofList (x.text faultNumbers) ++ "`"
  | .text cs => "string " ++ String.ofList (Text.quotedText cs)
  | .sequence => "sequence"
  | .map => "map"

/-- What is wrong. -/
inductive Cause where
  /-- The text ends where a value should stand. -/
  | eofValue
  /-- The text ends inside a string. -/
  | eofString
  /-- The text ends inside an array. -/
  | eofList
  /-- The text ends inside an object. -/
  | eofObject
  /-- Something else stands where a value should. -/
  | expectedValue
  /-- A word that begins like a literal is none. -/
  | expectedIdent
  /-- A number is not well formed. -/
  | invalidNumber
  /-- A number is too large. -/
  | numberOutOfRange
  /-- A control character stands inside a string. -/
  | controlCharacter
  /-- A backslash is not followed by an escape. -/
  | invalidEscape
  /-- Half of a surrogate pair stands alone. -/
  | loneSurrogate
  /-- The first half of a surrogate pair is not followed by an escape. -/
  | unexpectedEndOfHexEscape
  /-- A comma is followed by a closing bracket. -/
  | trailingComma
  /-- More stands in the array than there are fields. -/
  | trailingCharacters
  /-- Neither a comma nor the end of the array follows an element. -/
  | expectedListCommaOrEnd
  /-- Neither a comma nor the end of the object follows a member. -/
  | expectedObjectCommaOrEnd
  /-- A key is not a string. -/
  | keyMustBeString
  /-- No colon follows a key. -/
  | expectedColon
  /-- A value of the wrong kind. -/
  | invalidType (found : Found) (expected : String)
  /-- A value of the right kind, but out of range. -/
  | invalidValue (found : Found) (expected : String)
  /-- An array with too few fields. -/
  | invalidLength (length : Nat) (expected : String)
  /-- A field is missing. -/
  | missingField (key : String)
  /-- A field is given twice. -/
  | duplicateField (key : String)
  /-- A field is not known. -/
  | unknownField (key : String) (known : List String)
  deriving DecidableEq, Repr

/-- The wording of a cause. -/
def Cause.message : Cause → String
  | .eofValue => "EOF while parsing a value"
  | .eofString => "EOF while parsing a string"
  | .eofList => "EOF while parsing a list"
  | .eofObject => "EOF while parsing an object"
  | .expectedValue => "expected value"
  | .expectedIdent => "expected ident"
  | .invalidNumber => "invalid number"
  | .numberOutOfRange => "number out of range"
  | .controlCharacter =>
    "control character (\\u0000-\\u001F) found while parsing a string"
  | .invalidEscape => "invalid escape"
  | .loneSurrogate => "lone leading surrogate in hex escape"
  | .unexpectedEndOfHexEscape => "unexpected end of hex escape"
  | .trailingComma => "trailing comma"
  | .trailingCharacters => "trailing characters"
  | .expectedListCommaOrEnd => "expected `,` or `]`"
  | .expectedObjectCommaOrEnd => "expected `,` or `\x7d`"
  | .keyMustBeString => "key must be a string"
  | .expectedColon => "expected `:`"
  | .invalidType found expected =>
    "invalid type: " ++ found.description ++ ", expected " ++ expected
  | .invalidValue found expected =>
    "invalid value: " ++ found.description ++ ", expected " ++ expected
  | .invalidLength length expected =>
    "invalid length " ++ String.ofList (Numeral.digits length) ++ ", expected " ++ expected
  | .missingField key => "missing field `" ++ key ++ "`"
  | .duplicateField key => "duplicate field `" ++ key ++ "`"
  | .unknownField key known =>
    "unknown field `" ++ key ++ "`, expected " ++
      " or ".intercalate (known.map fun k => "`" ++ k ++ "`")

/-- Something wrong at a position of the text. -/
structure Fault where
  /-- What is wrong. -/
  cause : Cause
  /-- Where. -/
  position : Position
  deriving DecidableEq, Repr

/-- The wording of a fault. -/
def Fault.message (f : Fault) : String :=
  f.cause.message ++ " at line " ++ String.ofList (Numeral.digits f.position.line) ++
    " column " ++ String.ofList (Numeral.digits f.position.column)

/-- A step from a value to a value inside it. -/
inductive Segment where
  /-- To the member with this key. -/
  | key (name : String)
  /-- To the element at this index. -/
  | index (i : Nat)
  /-- To a member whose key is not known. -/
  | unknown
  deriving DecidableEq, Repr

/-- The text of a path: keys between points, indices in brackets. -/
def pathText : List Segment → String
  | [] => "."
  | s :: ss => first s ++ String.join (ss.map later)
where
  /-- A segment at the start of the path. -/
  first : Segment → String
    | .key name => name
    | .index i => "[" ++ String.ofList (Numeral.digits i) ++ "]"
    | .unknown => "?"
  /-- A segment behind others. -/
  later : Segment → String
    | .index i => first (.index i)
    | s => "." ++ first s

/-- A fault in the value that a path leads to. -/
structure Failure where
  /-- The path. -/
  path : List Segment
  /-- The fault. -/
  fault : Fault
  deriving DecidableEq, Repr

/-- The fault of a value, as a fault of what contains it. -/
def Failure.within (s : Segment) (f : Failure) : Failure :=
  { f with path := s :: f.path }

/-- The wording of a failure, with its path. -/
def Failure.message (f : Failure) : String :=
  "at JSON path " ++ pathText f.path ++ " → " ++ f.fault.message

end FieldRules.Json
