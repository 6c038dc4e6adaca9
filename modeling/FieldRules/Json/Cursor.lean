/-!
# Positions in a JSON text

A cursor is a place in a text with what follows it. Lines count from one and columns from zero, and
a column counts the bytes of the UTF-8 form of the text, so a fault may lie inside a character:
`Cursor.after` gives the position a number of bytes further on.
-/

namespace FieldRules.Json

/-- A place in a text. -/
structure Position where
  /-- The line, counted from one. -/
  line : Nat
  /-- The bytes before the place in its line. -/
  column : Nat
  deriving DecidableEq, Repr

/-- The position behind a character. -/
def Position.next (p : Position) (c : Char) : Position :=
  if c = '\n' then ⟨p.line + 1, 0⟩ else ⟨p.line, p.column + c.utf8Size⟩

/-- The position `bytes` further on, but not behind the end of the text that follows. -/
def Position.after (p : Position) (bytes : Nat) : List Char → Position
  | [] => p
  | c :: cs =>
    if bytes = 0 then p
    else if c.utf8Size ≤ bytes then (p.next c).after (bytes - c.utf8Size) cs
    else ⟨p.line, p.column + bytes⟩

/-- A place in a text and what follows it. -/
structure Cursor where
  /-- The place. -/
  position : Position
  /-- The text from there on. -/
  rest : List Char
  deriving DecidableEq, Repr

namespace Cursor

/-- The start of a text. -/
def start (cs : List Char) : Cursor :=
  ⟨⟨1, 0⟩, cs⟩

/-- The position `bytes` further on. -/
def after (c : Cursor) (bytes : Nat) : Position :=
  c.position.after bytes c.rest

/-- The position behind the byte that follows. -/
def peek (c : Cursor) : Position :=
  c.after 1

/-- The place behind the next character. -/
def advance (c : Cursor) : Cursor :=
  match c.rest with
  | [] => c
  | x :: cs => ⟨c.position.next x, cs⟩

/-- The place behind the next `n` characters. -/
def advanceBy (c : Cursor) : Nat → Cursor
  | 0 => c
  | n + 1 => c.advance.advanceBy n

/-- A character that may stand between tokens. -/
def isGap (c : Char) : Bool :=
  c == ' ' || c == '\t' || c == '\n' || c == '\r'

/-- The place behind the gap that follows a position. -/
def skipGapFrom (p : Position) : List Char → Cursor
  | [] => ⟨p, []⟩
  | c :: cs => if isGap c then skipGapFrom (p.next c) cs else ⟨p, c :: cs⟩

/-- The place of the next token. -/
def skipGap (c : Cursor) : Cursor :=
  skipGapFrom c.position c.rest

/-! ### What is left of the text -/

theorem length_advance_le (c : Cursor) : c.advance.rest.length ≤ c.rest.length := by
  unfold advance
  split <;> simp_all

theorem length_advance_lt {c : Cursor} {x : Char} {cs : List Char} (h : c.rest = x :: cs) :
    c.advance.rest.length < c.rest.length := by
  simp [advance, h]

theorem length_skipGapFrom_le (p : Position) (cs : List Char) :
    (skipGapFrom p cs).rest.length ≤ cs.length := by
  induction cs generalizing p with
  | nil => simp [skipGapFrom]
  | cons c cs ih =>
    have := ih (p.next c)
    unfold skipGapFrom
    split
    · simp only [List.length_cons]
      omega
    · simp

theorem length_skipGap_le (c : Cursor) : c.skipGap.rest.length ≤ c.rest.length :=
  length_skipGapFrom_le c.position c.rest

/-- Behind a gap and one character more, less is left. -/
theorem length_advance_skipGap_lt {c : Cursor} {x : Char} {cs : List Char}
    (h : c.skipGap.rest = x :: cs) : c.skipGap.advance.rest.length < c.rest.length :=
  Nat.lt_of_lt_of_le (length_advance_lt h) (length_skipGap_le c)

end Cursor

end FieldRules.Json
