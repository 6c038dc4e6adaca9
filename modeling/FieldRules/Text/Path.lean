/-!
# Paths

A path is a text whose segments stand between double colons. `pathSegments` looks for the colons
from the left and `cutLastSegment` from the right. The two disagree on a run of three colons, and
both are needed: a reference is cut once from the right, into a prefix and a name, and the prefix is
then cut from the left.
-/

namespace FieldRules.Text

/-- The segments between double colons, which are looked for from the left; always at least one. -/
def pathSegments : List Char → List (List Char)
  | [] => [[]]
  | ':' :: ':' :: cs => [] :: pathSegments cs
  | c :: cs => (pathSegments cs).modifyHead (c :: ·)

/-- What stands before and after the last double colon. -/
def cutLastSegment : List Char → Option (List Char × List Char)
  | [] => none
  | c :: cs =>
    match cutLastSegment cs with
    | some (front, last) => some (c :: front, last)
    | none =>
      match c, cs with
      | ':', ':' :: rest => some ([], rest)
      | _, _ => none

/-- The segments with double colons between them. -/
def joinPath (segments : List (List Char)) : List Char :=
  List.intercalate [':', ':'] segments

/-- The text without the double colons in front of it. -/
def dropLeadingColons : List Char → List Char
  | ':' :: ':' :: cs => dropLeadingColons cs
  | cs => cs

/-- The text without the double colons at its end. -/
def dropTrailingColons (cs : List Char) : List Char :=
  (dropLeadingColons cs.reverse).reverse

theorem pathSegments_ne_nil (cs : List Char) : pathSegments cs ≠ [] := by
  fun_induction pathSegments cs with
  | case1 => simp
  | case2 => simp
  | case3 c cs _ ih => simpa [List.modifyHead_eq_nil_iff] using ih

/-- The segments of a path, joined again, are the path. -/
theorem joinPath_pathSegments (cs : List Char) : joinPath (pathSegments cs) = cs := by
  fun_induction pathSegments cs with
  | case1 => rfl
  | case2 cs ih =>
    obtain ⟨s, ss, hs⟩ := List.exists_cons_of_ne_nil (pathSegments_ne_nil cs)
    rw [hs] at ih
    simpa [joinPath, hs, List.intercalate] using ih
  | case3 c cs h ih =>
    obtain ⟨s, ss, hs⟩ := List.exists_cons_of_ne_nil (pathSegments_ne_nil cs)
    rw [hs] at ih ⊢
    cases ss with
    | nil => simpa [joinPath, List.intercalate] using ih
    | cons t ts => simpa [joinPath, List.intercalate] using ih

end FieldRules.Text
