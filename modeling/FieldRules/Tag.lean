import FieldRules.Tag.Entry

/-!
# Tags

A tag is the annotation of a field: entries between commas. A comma inside apostrophes does not
separate. An apostrophe opens a quote only where a target can start, so that an apostrophe inside a
word stays a letter; inside a quote the next apostrophe closes it.
-/

namespace FieldRules

open Text

namespace Tag

/-- An apostrophe after this character opens a quote; `none` stands for the start of the tag. -/
def opensQuote : Option Char → Bool
  | none => true
  | some c => c == '=' || c == ',' || c == '\'' || isBlank c

/-- Whether a quote is open after the character `c`. -/
def quotedAfter (isQuoted : Bool) (previous : Option Char) (c : Char) : Bool :=
  if c = '\'' then !isQuoted && opensQuote previous else isQuoted

/-- The pieces between the commas outside quotes, or nothing if a quote is open at the end. -/
def piecesFrom (isQuoted : Bool) (previous : Option Char) : List Char → Option (List (List Char))
  | [] => if isQuoted then none else some [[]]
  | c :: cs =>
    if c = ',' ∧ isQuoted = false then (piecesFrom false (some c) cs).map ([] :: ·)
    else (piecesFrom (quotedAfter isQuoted previous c) (some c) cs).map (·.modifyHead (c :: ·))

/-- The entries of a tag, without the blanks around them and without blank entries. -/
def entries (tag : String) : Except TagError (List String) :=
  match piecesFrom false none tag.toList with
  | none => .error (.unbalancedQuote tag)
  | some pieces => .ok (((pieces.map trim).filter (· ≠ [])).map String.ofList)

/-- The validations of a tag, in order; the first fault is reported. -/
def validations (tag : String) : Except TagError (List Validation) :=
  match entries tag with
  | .error e => .error e
  | .ok es => es.mapM Validation.ofEntry

end Tag

end FieldRules
