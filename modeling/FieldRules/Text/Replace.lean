/-!
# Replacing a pattern

`replaceAll` replaces the occurrences of a pattern that a scan from the left meets; text that has
been put in is not scanned again.
-/

namespace FieldRules.Text

/-- The scan behind `replaceAll`; `skip` counts the characters of a match still to be passed
over. -/
def replaceFrom (pattern replacement : List Char) : Nat → List Char → List Char
  | _, [] => []
  | skip + 1, _ :: cs => replaceFrom pattern replacement skip cs
  | 0, c :: cs =>
    if pattern.isPrefixOf (c :: cs) then
      replacement ++ replaceFrom pattern replacement (pattern.length - 1) cs
    else c :: replaceFrom pattern replacement 0 cs

/-- The text with every occurrence of the non-empty `pattern` replaced, looked for from the left. -/
def replaceAll (pattern replacement cs : List Char) : List Char :=
  replaceFrom pattern replacement 0 cs

end FieldRules.Text
