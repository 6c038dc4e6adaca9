import FieldRules.Proofs.Source.Lexer
import FieldRules.Text.Quoted

/-!
# Quoted strings are literals

A quoted text is one string literal, and it stands for the text: no character of the text closes the
literal or breaks the line, and every escape is read as the character that it was written for
(`ends_quoted`).
-/

namespace FieldRules.Source

open Text

variable {c : Char} {text : List Char}

/-! ### Code points -/

theorem hexDigit_digitChar {d : Nat} (hd : d < 16) : Json.hexDigit (Nat.digitChar d) = some d := by
  have hall : ∀ d < 16, Json.hexDigit (Nat.digitChar d) = some d := by decide
  exact hall d hd

/-- One more digit. -/
theorem reads_digitChar {d : Nat} (hd : d < 16) (count value : Nat) :
    Reads (.digits text count value) [Nat.digitChar d]
      (.digits text (count + 1) (16 * value + d)) [] := by
  have hbrace : ∀ d < 16, Nat.digitChar d ≠ '\x7d' := by decide
  refine .silent ?_ .nil
  rw [step, if_neg (hbrace d hd), hexDigit_digitChar hd, Option.map_some]

/-- The digits of a number have its value. -/
theorem reads_hexDigits (n : Nat) :
    Reads (.digits text 0 0) (hexDigits n) (.digits text (hexDigits n).length n) [] := by
  induction n using Nat.strongRecOn with
  | ind n ih =>
    unfold hexDigits at ih ⊢
    rw [Nat.toDigits_eq_if (by decide)]
    split_ifs with hn
    · simpa using reads_digitChar hn 0 0
    · have hlast := @reads_digitChar text (n % 16) (Nat.mod_lt _ (by decide))
        (Nat.toDigits 16 (n / 16)).length (n / 16)
      rw [Nat.div_add_mod] at hlast
      simpa using (ih (n / 16) (by omega)).append hlast

/-- A code point has at most six digits. -/
theorem length_hexDigits_le (c : Char) : (hexDigits c.toNat).length ≤ 6 := by
  have hbound : c.toNat < 0x110000 := by
    rcases c.valid with h | ⟨-, h⟩
    · exact Nat.lt_trans h (by decide)
    · exact h
  exact (Nat.length_toDigits_le_iff (by decide) (by decide)).2 (Nat.lt_trans hbound (by decide))

theorem reads_codePoint (c : Char) :
    Reads (.literal text) (['\\', 'u', '\x7b'] ++ hexDigits c.toNat ++ ['\x7d'])
      (.literal (text ++ [c])) [] := by
  have hopen : Reads (.literal text) ['\\', 'u', '\x7b'] (.digits text 0 0) [] := rfl
  have hcount : 0 < (hexDigits c.toNat).length ∧ (hexDigits c.toNat).length ≤ 6 ∧
      c.toNat.isValidChar :=
    ⟨List.length_pos_iff.2 Nat.toDigits_ne_nil, length_hexDigits_le c, c.valid⟩
  have hclose : Reads (.digits text (hexDigits c.toNat).length c.toNat) ['\x7d']
      (.literal (text ++ [c])) [] := by
    refine .silent ?_ .nil
    rw [step, if_pos rfl, if_pos hcount, Char.ofNat_toNat]
  exact (hopen.append (reads_hexDigits c.toNat)).append hclose

/-! ### Literals -/

/-- A character stands for itself, or its escape stands for it. -/
theorem reads_quotedChar (c : Char) :
    Reads (.literal text) (quotedChar c) (.literal (text ++ [c])) [] := by
  unfold quotedChar
  split_ifs with hzero htab hreturn hnewline hquote hbackslash hglyph
  all_goals try subst c
  case pos | pos | pos | pos | pos | pos => rfl
  · refine .silent ?_ .nil
    simp only [step, if_neg hquote, if_neg hbackslash, hnewline, hreturn, or_self, if_false]
  · exact reads_codePoint c

theorem reads_flatMap_quotedChar (cs : List Char) :
    Reads (.literal text) (cs.flatMap quotedChar) (.literal (text ++ cs)) [] := by
  induction cs generalizing text with
  | nil => exact (List.append_nil text).symm ▸ Reads.nil
  | cons c cs ih =>
    rw [List.flatMap_cons, List.append_cons]
    exact (reads_quotedChar c).append ih

/-- **A quoted text is one string literal, and stands for the text.** -/
theorem ends_quoted (s : String) : Ends (quoted s) [.text s] := by
  have hopen : Reads (.code []) ['"'] (.literal []) [] := rfl
  have hclose : Reads (.literal s.toList) ['"'] (.code []) [.text s] := by
    have hstep : step (.literal s.toList) '"' = some (.code [], [.text s]) := by
      rw [step, if_pos rfl, String.ofList_toList]
    exact .cons hstep .nil
  have hread := (hopen.append (reads_flatMap_quotedChar s.toList)).append hclose
  rwa [Ends, quoted, String.toList_ofList]

end FieldRules.Source
