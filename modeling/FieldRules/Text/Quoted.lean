import FieldRules.Text.Case
import FieldRules.Text.GlyphTable

/-!
# Quoted strings

A text as a double-quoted string literal of the generated source: quote and backslash behind a
backslash, four control characters by a letter, and every other character without a glyph of its own
as its code point in hexadecimal digits between braces. An apostrophe stands for itself.
-/

namespace FieldRules.Text

/-- A character that is shown by itself: neither a mark that joins its neighbour nor unprintable. -/
def hasGlyph (c : Char) : Bool :=
  !joiningMarkRanges.any (inRange c.toNat) && !unprintableRanges.any (inRange c.toNat)

/-- The hexadecimal digits of a number, in lower case and without leading zeros. -/
def hexDigits (n : Nat) : List Char :=
  Nat.toDigits 16 n

/-- One character inside a string literal. -/
def quotedChar (c : Char) : List Char :=
  if c = '\x00' then ['\\', '0']
  else if c = '\t' then ['\\', 't']
  else if c = '\r' then ['\\', 'r']
  else if c = '\n' then ['\\', 'n']
  else if c = '"' then ['\\', '"']
  else if c = '\\' then ['\\', '\\']
  else if hasGlyph c then [c]
  else ['\\', 'u', '\x7b'] ++ hexDigits c.toNat ++ ['\x7d']

/-- The text as a string literal. -/
def quotedText (cs : List Char) : List Char :=
  '"' :: cs.flatMap quotedChar ++ ['"']

/-- The string as a string literal. -/
def quoted (s : String) : String :=
  String.ofList (quotedText s.toList)

end FieldRules.Text
