import FieldRules.Except
import FieldRules.Json.Fault

/-!
# String literals of JSON

Reading a string from behind its opening quote. An escape with four hexadecimal digits takes the
next four bytes, whatever they are; two such escapes make one character when they are a surrogate
pair. A strict reader refuses surrogates without a partner; a reader that only passes over the
string does not look at them.
-/

namespace FieldRules.Json

/-- The value of a hexadecimal digit. -/
def hexDigit (c : Char) : Option Nat :=
  if c.isDigit then some (c.toNat - '0'.toNat)
  else if 'a' ≤ c ∧ c ≤ 'f' then some (c.toNat - 'a'.toNat + 10)
  else if 'A' ≤ c ∧ c ≤ 'F' then some (c.toNat - 'A'.toNat + 10)
  else none

/-- The value of four hexadecimal digits. -/
def hexValue (a b c d : Char) : Option Nat := do
  return ((← hexDigit a) * 16 + (← hexDigit b)) * 256 + (← hexDigit c) * 16 + (← hexDigit d)

/-- The first half of a surrogate pair. -/
def isHighSurrogate (n : Nat) : Bool :=
  0xD800 ≤ n && n ≤ 0xDBFF

/-- The second half of a surrogate pair. -/
def isLowSurrogate (n : Nat) : Bool :=
  0xDC00 ≤ n && n ≤ 0xDFFF

/-- The character that a surrogate pair stands for. -/
def surrogatePair (high low : Nat) : Char :=
  Char.ofNat ((high - 0xD800) * 0x400 + (low - 0xDC00) + 0x10000)

/-- The character of a one-letter escape. -/
def escapedChar (c : Char) : Option Char :=
  match c with
  | '"' => some '"'
  | '\\' => some '\\'
  | '/' => some '/'
  | 'b' => some '\x08'
  | 'f' => some '\x0C'
  | 'n' => some '\n'
  | 'r' => some '\r'
  | 't' => some '\t'
  | _ => none

/-- The bytes of a text. -/
def byteLength : List Char → Nat
  | [] => 0
  | c :: cs => c.utf8Size + byteLength cs

/-- Four bytes that are not hexadecimal digits, or fewer than four bytes. -/
def hexFault (c : Cursor) : Fault :=
  if byteLength c.rest < 4 then ⟨.eofString, c.after (byteLength c.rest)⟩
  else ⟨.invalidEscape, c.after 4⟩

/-- The missing second half of a surrogate pair, looked for behind the first. -/
def pairFault (c : Cursor) : Fault :=
  match c.rest with
  | [] => ⟨.eofString, c.position⟩
  | '\\' :: [] => ⟨.eofString, c.advance.position⟩
  | '\\' :: 'u' :: _ => hexFault (c.advanceBy 2)
  | '\\' :: _ => ⟨.unexpectedEndOfHexEscape, c.advance.peek⟩
  | _ => ⟨.unexpectedEndOfHexEscape, c.peek⟩

/-- The text of a string up to its closing quote, and the place behind that quote. -/
def stringFrom (strict : Bool) (p : Position) :
    List Char → Except Fault (List Char × Cursor)
  | [] => .error ⟨.eofString, p⟩
  | '"' :: cs => .ok ([], ⟨p.next '"', cs⟩)
  | '\\' :: 'u' :: a :: b :: c :: d :: cs =>
    let here : Cursor := ⟨p, '\\' :: 'u' :: a :: b :: c :: d :: cs⟩
    match hexValue a b c d with
    | none => .error (hexFault (here.advanceBy 2))
    | some n =>
      let behind := here.advanceBy 6
      if strict && isLowSurrogate n then .error ⟨.loneSurrogate, behind.position⟩
      else if strict && isHighSurrogate n then
        match cs with
        | '\\' :: 'u' :: e :: f :: g :: h :: rest =>
          match hexValue e f g h with
          | none => .error (hexFault (behind.advanceBy 2))
          | some low =>
            let after := behind.advanceBy 6
            if isLowSurrogate low then
              (stringFrom strict after.position rest).map fun (value, stop) =>
                (surrogatePair n low :: value, stop)
            else .error ⟨.loneSurrogate, after.position⟩
        | _ => .error (pairFault behind)
      else
        (stringFrom strict behind.position cs).map fun (value, stop) =>
          (Char.ofNat n :: value, stop)
  | '\\' :: 'u' :: cs => .error (hexFault (Cursor.advanceBy ⟨p, '\\' :: 'u' :: cs⟩ 2))
  | '\\' :: x :: cs =>
    match escapedChar x with
    | some y =>
      (stringFrom strict ((p.next '\\').next x) cs).map fun (value, stop) => (y :: value, stop)
    | none => .error ⟨.invalidEscape, (p.next '\\').after 1 (x :: cs)⟩
  | '\\' :: [] => .error ⟨.eofString, p.next '\\'⟩
  | x :: cs =>
    if x.toNat < 0x20 then
      .error ⟨.controlCharacter, if strict then p.next x else p⟩
    else (stringFrom strict (p.next x) cs).map fun (value, stop) => (x :: value, stop)

/-- The text of the string that opens at a cursor, and the place behind it. -/
def stringAt (strict : Bool) (c : Cursor) : Except Fault (List Char × Cursor) :=
  stringFrom strict c.advance.position c.advance.rest

/-- A string ends behind the place where it starts: its closing quote is a character. -/
theorem length_of_stringFrom {strict : Bool} {p : Position} {cs s : List Char} {d : Cursor}
    (h : stringFrom strict p cs = .ok (s, d)) : d.rest.length < cs.length := by
  fun_induction stringFrom strict p cs generalizing s d <;>
    simp_all only [map_eq_ok_iff, List.length_cons, reduceCtorEq, Except.ok.injEq, Prod.mk.injEq]
  case case2 =>
    obtain ⟨-, rfl⟩ := h
    exact Nat.lt_succ_self _
  all_goals
    rename_i ih
    obtain ⟨t, ht, -, rfl⟩ := h
    have := ih ht
    omega

theorem length_of_stringAt {strict : Bool} {c d : Cursor} {s : List Char}
    (h : stringAt strict c = .ok (s, d)) : d.rest.length < c.rest.length :=
  Nat.lt_of_lt_of_le (length_of_stringFrom h) c.length_advance_le

end FieldRules.Json
