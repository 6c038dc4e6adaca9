import FieldRules.Text.CaseTable

/-!
# Letter case

Upper case, lower case and the lower-case form of a text, for all of Unicode. A capital sigma has
two lower-case forms, and which one a text takes depends on its neighbours: `lowerText` follows the
final-sigma rule, whereas `lowerChar` maps each letter by itself.
-/

namespace FieldRules.Text

/-- The code point is one of `first`, `first + step`, …, `last`. -/
def inRun (n : Nat) (run : Nat × Nat × Nat) : Bool :=
  run.1 ≤ n && n ≤ run.2.1 && (n - run.1) % run.2.2 == 0

/-- The code point lies in the closed range. -/
def inRange (n : Nat) (range : Nat × Nat) : Bool :=
  range.1 ≤ n && n ≤ range.2

/-- The property Lowercase. -/
def isLowercase (c : Char) : Bool :=
  lowercaseRuns.any (inRun c.toNat)

/-- The property Uppercase. -/
def isUppercase (c : Char) : Bool :=
  uppercaseRuns.any (inRun c.toNat)

/-- The property Cased: a letter that has case, title case included. -/
def isCased (c : Char) : Bool :=
  isLowercase c || isUppercase c || titlecaseRuns.any (inRun c.toNat)

/-- The property Case_Ignorable: characters that the final-sigma rule looks through. -/
def isCaseIgnorable (c : Char) : Bool :=
  caseIgnorableRanges.any (inRange c.toNat)

/-- The lower-case form of one character taken by itself. Only the dotted capital I becomes two. -/
def lowerChar (c : Char) : List Char :=
  if c.toNat = 0x130 then ['i', Char.ofNat 0x307]
  else
    match lowerShifts.find? (fun row => inRun c.toNat (row.1, row.2.1, row.2.2.1)) with
    | some row => [Char.ofNat (c.toNat + row.2.2.2).toNat]
    | none => [c]

/-- Past the characters that the rule looks through, a cased letter comes first. -/
def startsCased (cs : List Char) : Bool :=
  match cs.dropWhile isCaseIgnorable with
  | c :: _ => isCased c
  | [] => false

/-- The lower case of `cs`, where `before` holds the text in front of it in reverse: a capital sigma
that ends a word becomes a final sigma. -/
def lowerFrom (before : List Char) : List Char → List Char
  | [] => []
  | c :: cs =>
    (if c.toNat = 0x3A3 then
      if startsCased before && !startsCased cs then [Char.ofNat 0x3C2] else [Char.ofNat 0x3C3]
    else lowerChar c) ++ lowerFrom (c :: before) cs

/-- The lower case of a text. -/
def lowerText (cs : List Char) : List Char :=
  lowerFrom [] cs

/-- The lower case of a string. -/
def lowered (s : String) : String :=
  String.ofList (lowerText s.toList)

end FieldRules.Text
