import FieldRules.Text.Case

/-!
# Names of validators

The function that validates a type is named after it, in lower case with underscores between words.
A word begins at a capital after a small letter or a digit, and at the last capital of several when
a small letter follows it.
-/

namespace FieldRules

open Text

/-- A word begins at a capital between these neighbours. -/
def startsWord (previous next : Option Char) : Bool :=
  match previous with
  | none => false
  | some p =>
    isLowercase p || p.isDigit || (isUppercase p && next.any isLowercase)

/-- The name in lower case, with an underscore before every word but the first. -/
def snakeCase (previous : Option Char) : List Char → List Char
  | [] => []
  | c :: cs =>
    (if isUppercase c && startsWord previous cs.head? then ['_'] else []) ++ lowerChar c ++
      snakeCase (some c) cs

/-- The name of the function that validates a type. -/
def validatorName (typeName : String) : String :=
  "validate_" ++ String.ofList (snakeCase none typeName.toList)

end FieldRules
