/-!
# Glob patterns

A pattern for the name of a file: `?` stands for one character, `*` for any text, `[…]` and `[!…]`
for one character in or outside of some ranges, and every other character for itself. `**` stands
for any directories on the way, and has to be a whole component of a path.
-/

namespace FieldRules.Glob

/-- A part of a pattern. -/
inductive Token where
  /-- The character itself. -/
  | char (c : Char)
  /-- Any character. -/
  | anyChar
  /-- Any text. -/
  | anySequence
  /-- Any directories. -/
  | anyDirectories
  /-- A character in one of the closed ranges, or, if `negated`, in none. -/
  | oneOf (negated : Bool) (ranges : List (Char × Char))
  deriving DecidableEq, Repr

/-- What can be wrong with a pattern. -/
inductive PatternFault where
  /-- More than two asterisks in a row. -/
  | wildcards
  /-- Two asterisks beside something else than a slash. -/
  | recursiveWildcards
  /-- A bracket that opens no range. -/
  | invalidRange
  deriving DecidableEq, Repr

/-- The wording of a fault. -/
def PatternFault.message : PatternFault → String
  | .wildcards => "wildcards are either regular `*` or recursive `**`"
  | .recursiveWildcards => "recursive wildcards must form a single path component"
  | .invalidRange => "invalid range pattern"

/-- A fault at a character of a pattern. -/
structure PatternError where
  /-- The index of the character. -/
  position : Nat
  /-- What is wrong. -/
  fault : PatternFault
  deriving DecidableEq, Repr

/-- The ranges between brackets: `a-z` is a range, and any other character one by itself. -/
def charRanges : List Char → List (Char × Char)
  | a :: '-' :: b :: cs => (a, b) :: charRanges cs
  | a :: cs => (a, a) :: charRanges cs
  | [] => []

/-- The token of a bracket and the number of characters behind the bracket that belong to it. The
first character between the brackets is never the closing one. -/
def bracketToken (cs : List Char) : Option (Token × Nat) :=
  let (negated, body) : Bool × List Char :=
    match cs with
    | '!' :: body => (true, body)
    | _ => (false, cs)
  match body with
  | [] => none
  | a :: rest =>
    if rest.contains ']' then
      let inner := a :: rest.takeWhile (· != ']')
      some (.oneOf negated (charRanges inner), inner.length + 1 + negated.toNat)
    else none

/-- The tokens of a pattern from a position on. `skip` counts the characters that belong to the
token before, and `previous` is the character before. -/
def tokensFrom (position skip : Nat) (previous : Option Char) :
    List Char → Except PatternError (List Token)
  | [] => .ok []
  | c :: cs =>
    match skip with
    | skip + 1 => tokensFrom (position + 1) skip (some c) cs
    | 0 =>
      if c = '?' then (tokensFrom (position + 1) 0 (some c) cs).map (.anyChar :: ·)
      else if c = '[' then
        match bracketToken cs with
        | some (token, length) =>
          (tokensFrom (position + 1) length (some c) cs).map (token :: ·)
        | none => .error ⟨position, .invalidRange⟩
      else if c = '*' then
        match cs with
        | '*' :: '*' :: _ => .error ⟨position + 2, .wildcards⟩
        | '*' :: rest =>
          if previous = none ∨ previous = some '/' then
            if rest = [] ∨ rest.head? = some '/' then
              (tokensFrom (position + 1) 2 (some c) cs).map (.anyDirectories :: ·)
            else .error ⟨position + 2, .recursiveWildcards⟩
          else .error ⟨position - 1, .recursiveWildcards⟩
        | _ => (tokensFrom (position + 1) 0 (some c) cs).map (.anySequence :: ·)
      else (tokensFrom (position + 1) 0 (some c) cs).map (.char c :: ·)

/-- The tokens of a pattern. -/
def tokens (pattern : List Char) : Except PatternError (List Token) :=
  tokensFrom 0 0 none pattern

/-! ### Matching -/

/-- A token that stands for one character stands for this one. -/
def Token.accepts (c : Char) : Token → Bool
  | .char x => x == c
  | .oneOf negated ranges => (ranges.any fun range => range.1 ≤ c && c ≤ range.2) != negated
  | _ => true

/-- A token that stands for a text of any length. -/
def Token.isSequence : Token → Bool
  | .anySequence | .anyDirectories => true
  | _ => false

/-- For each place in a row whether it holds there or anywhere behind it. -/
def fromHereOn : List Bool → List Bool
  | [] => []
  | here :: later =>
    let row := fromHereOn later
    (here || row.headD false) :: row

/-- For each end of a text, the text itself first and the empty one last, whether the tokens match
it. Every token is looked at once for each end, however many asterisks there are. -/
def matchesEnds (cs : List Char) : List Token → List Bool
  | [] => cs.map (fun _ => false) ++ [true]
  | t :: ts =>
    let row := matchesEnds cs ts
    if t.isSequence then fromHereOn row
    else List.zipWith (fun c behind => t.accepts c && behind) cs row.tail ++ [false]

/-- The name of a file matches a pattern. -/
def matchesName (ts : List Token) (cs : List Char) : Bool :=
  (matchesEnds cs ts).headD false

theorem matchesEnds_ne_nil (cs : List Char) (ts : List Token) : matchesEnds cs ts ≠ [] := by
  induction ts with
  | nil => simp [matchesEnds]
  | cons t ts ih =>
    obtain ⟨b, row, h⟩ := List.exists_cons_of_ne_nil ih
    cases ht : t.isSequence <;> simp [matchesEnds, ht, h, fromHereOn]

/-- What is said of the ends of a text is said of the text, and then of the ends behind its first
character. -/
theorem matchesEnds_cons (c : Char) (cs : List Char) (ts : List Token) :
    matchesEnds (c :: cs) ts = matchesName ts (c :: cs) :: matchesEnds cs ts := by
  suffices h : ∃ b, matchesEnds (c :: cs) ts = b :: matchesEnds cs ts by
    obtain ⟨b, hb⟩ := h
    simp [matchesName, hb]
  induction ts with
  | nil => exact ⟨false, rfl⟩
  | cons t ts ih =>
    obtain ⟨b, hb⟩ := ih
    obtain ⟨d, row, hd⟩ := List.exists_cons_of_ne_nil (matchesEnds_ne_nil cs ts)
    cases ht : t.isSequence <;> simp [matchesEnds, ht, hb, hd, fromHereOn]

/-- The empty text has one end. -/
theorem matchesEnds_nil (ts : List Token) : matchesEnds [] ts = [matchesName ts []] := by
  suffices h : ∃ b, matchesEnds [] ts = [b] by
    obtain ⟨b, hb⟩ := h
    simp [matchesName, hb]
  induction ts with
  | nil => exact ⟨true, rfl⟩
  | cons t ts ih =>
    obtain ⟨b, hb⟩ := ih
    cases ht : t.isSequence <;> simp [matchesEnds, ht, hb, fromHereOn]

@[simp]
theorem matchesName_nil (cs : List Char) : matchesName [] cs = cs.isEmpty := by
  cases cs <;> rfl

@[simp]
theorem headD_matchesEnds (cs : List Char) (ts : List Token) :
    (matchesEnds cs ts).headD false = matchesName ts cs := rfl

/-- A token for one character takes the first character, and the others match what is behind it. -/
theorem matchesName_cons_of_not_isSequence {t : Token} (ht : t.isSequence = false)
    (ts : List Token) (cs : List Char) :
    matchesName (t :: ts) cs =
      match cs with
      | [] => false
      | c :: cs => t.accepts c && matchesName ts cs := by
  cases cs with
  | nil => simp [matchesName, matchesEnds, ht]
  | cons c cs =>
    obtain ⟨d, row, hd⟩ := List.exists_cons_of_ne_nil (matchesEnds_ne_nil cs ts)
    have hrow : matchesEnds (c :: cs) (t :: ts) =
        (t.accepts c && d) :: (List.zipWith (fun c behind => t.accepts c && behind) cs row ++
          [false]) := by
      rw [matchesEnds, matchesEnds_cons c cs ts, hd]
      simp [ht]
    rw [matchesName, hrow]
    simp [matchesName, hd]

/-- A token for any text takes nothing, or the first character and any text behind it. -/
theorem matchesName_cons_of_isSequence {t : Token} (ht : t.isSequence = true)
    (ts : List Token) (cs : List Char) :
    matchesName (t :: ts) cs =
      (matchesName ts cs ||
        match cs with
        | [] => false
        | _ :: cs => matchesName (t :: ts) cs) := by
  have hrow (cs : List Char) : matchesEnds cs (t :: ts) = fromHereOn (matchesEnds cs ts) := by
    rw [matchesEnds]
    simp [ht]
  cases cs with
  | nil => rw [← headD_matchesEnds, hrow, matchesEnds_nil]; rfl
  | cons c cs => rw [← headD_matchesEnds, hrow, matchesEnds_cons, fromHereOn, ← hrow]; rfl

/-- The name that a pattern without wildcards stands for. -/
def literalName : List Token → Option (List Char)
  | [] => some []
  | .char c :: ts => (literalName ts).map (c :: ·)
  | _ => none

/-- The pattern stands for directories on the way. -/
def isRecursive (ts : List Token) : Bool :=
  ts.contains .anyDirectories

end FieldRules.Glob
