import FieldRules.Json.StringLiteral
import Mathlib.Tactic.SplitIfs

/-!
# Tokens of source

How a source text falls into tokens: words, string literals and single marks, with blanks and line
comments between them. The text is read character by character (`step`), and a `Mode` is what the
characters so far leave open. A string literal is closed on the line that it is opened on, and no
other literal begins with a quote: a quote right behind a word, where it would open a raw string or
one of bytes, is refused, and so are an apostrophe and a comment that may go on over lines. So the
string literals of a text that is not refused are beyond doubt.

Tokens of a text are the tokens of its parts wherever a part ends a word by itself (`Ends`), or the
next one begins with a character that ends the word in front of it (`breaks`).
-/

namespace FieldRules.Source

/-- A token of source. -/
inductive Token where
  /-- A name, a keyword or a number. -/
  | word (s : String)
  /-- A mark. -/
  | mark (c : Char)
  /-- A string literal, by the text that it stands for. -/
  | text (s : String)
  deriving DecidableEq, Repr

/-- The texts of the string literals among some tokens. -/
def texts (ts : List Token) : List String :=
  ts.filterMap fun t =>
    match t with
    | .text s => some s
    | _ => none

@[simp] theorem texts_nil : texts [] = [] := rfl

@[simp] theorem texts_word (s : String) (ts : List Token) : texts (.word s :: ts) = texts ts := rfl

@[simp] theorem texts_mark (c : Char) (ts : List Token) : texts (.mark c :: ts) = texts ts := rfl

@[simp] theorem texts_text (s : String) (ts : List Token) :
    texts (.text s :: ts) = s :: texts ts := rfl

@[simp] theorem texts_append (ts us : List Token) : texts (ts ++ us) = texts ts ++ texts us :=
  List.filterMap_append

/-- What the characters so far leave open. -/
inductive Mode where
  /-- No literal and no comment, behind the characters of a word. -/
  | code (word : List Char)
  /-- A slash. -/
  | slash
  /-- A comment. -/
  | comment
  /-- A string literal with the text so far. -/
  | literal (text : List Char)
  /-- A backslash in a string literal. -/
  | escape (text : List Char)
  /-- A code point in a string literal, in front of its opening brace. -/
  | codePoint (text : List Char)
  /-- A code point behind some digits with the value so far. -/
  | digits (text : List Char) (count value : Nat)
  deriving DecidableEq, Repr

/-- The characters of words. The number sign is one of them, as it marks raw names. -/
def isNameChar (c : Char) : Bool :=
  c.isAlphanum || c == '_' || c == '#' || 128 ≤ c.toNat

/-- A finished word; none of no characters. -/
def flush : List Char → List Token
  | [] => []
  | word => [.word (String.ofList word)]

/-- The character that a letter stands for behind a backslash. -/
def escapedChar : Char → Option Char
  | '0' => some '\x00'
  | 't' => some '\t'
  | 'r' => some '\r'
  | 'n' => some '\n'
  | '"' => some '"'
  | '\'' => some '\''
  | '\\' => some '\\'
  | _ => none

/-- Reads one character: the mode behind it, and the tokens that it finishes. -/
def step : Mode → Char → Option (Mode × List Token)
  | .code word, c =>
    if isNameChar c then some (.code (word ++ [c]), [])
    else if c = '"' then if word = [] then some (.literal [], []) else none
    else if c = '\'' then none
    else if c = '/' then some (.slash, flush word)
    else if c.isWhitespace then some (.code [], flush word)
    else some (.code [], flush word ++ [.mark c])
  | .slash, c => if c = '/' then some (.comment, []) else none
  | .comment, c => some (if c = '\n' then .code [] else .comment, [])
  | .literal text, c =>
    if c = '"' then some (.code [], [.text (String.ofList text)])
    else if c = '\\' then some (.escape text, [])
    else if c = '\n' ∨ c = '\r' then none
    else some (.literal (text ++ [c]), [])
  | .escape text, c =>
    if c = 'u' then some (.codePoint text, [])
    else (escapedChar c).map fun e => (.literal (text ++ [e]), [])
  | .codePoint text, c => if c = '\x7b' then some (.digits text 0 0, []) else none
  | .digits text count value, c =>
    if c = '\x7d' then
      if 0 < count ∧ count ≤ 6 ∧ value.isValidChar then
        some (.literal (text ++ [Char.ofNat value]), [])
      else none
    else (Json.hexDigit c).map fun d => (.digits text (count + 1) (16 * value + d), [])

/-- Reads some characters: the mode behind them, and the tokens that they finish. -/
def run (m : Mode) : List Char → Option (Mode × List Token)
  | [] => some (m, [])
  | c :: cs =>
    match step m c with
    | none => none
    | some (m', ts) => (run m' cs).map fun behind => (behind.1, ts ++ behind.2)

/-- The tokens of a text; none if it is refused, or if a literal is left open. -/
def tokens (s : String) : Option (List Token) :=
  match run (.code []) s.toList with
  | some (.code word, ts) => some (ts ++ flush word)
  | some (.comment, ts) => some ts
  | _ => none

/-! ### Runs -/

/-- The characters lead from one mode to another and finish the tokens. -/
def Reads (m : Mode) (cs : List Char) (m' : Mode) (ts : List Token) : Prop :=
  run m cs = some (m', ts)

variable {m m' m'' : Mode} {c : Char} {cs xs ys word : List Char} {ts us : List Token}

theorem Reads.nil : Reads m [] m [] := rfl

theorem Reads.cons (h : step m c = some (m', ts)) (hcs : Reads m' cs m'' us) :
    Reads m (c :: cs) m'' (ts ++ us) := by
  unfold Reads at hcs ⊢
  simp only [run, h, hcs, Option.map_some]

/-- A character that finishes no token. -/
theorem Reads.silent (h : step m c = some (m', [])) (hcs : Reads m' cs m'' us) :
    Reads m (c :: cs) m'' us :=
  .cons h hcs

theorem reads_cons_iff : Reads m (c :: cs) m'' us ↔
    ∃ m' ts us', step m c = some (m', ts) ∧ Reads m' cs m'' us' ∧ us = ts ++ us' := by
  constructor
  · intro h
    unfold Reads run at h
    split at h
    case h_1 => cases h
    case h_2 m' ts hstep =>
      obtain ⟨⟨_, us'⟩, hrun, hbehind⟩ := Option.map_eq_some_iff.1 h
      cases hbehind
      exact ⟨m', ts, us', hstep, hrun, rfl⟩
  · rintro ⟨m', ts, us', hstep, hrun, rfl⟩
    exact .cons hstep hrun

/-- A run goes on where another one ends. -/
theorem Reads.append (hxs : Reads m xs m' ts) (hys : Reads m' ys m'' us) :
    Reads m (xs ++ ys) m'' (ts ++ us) := by
  induction xs generalizing m ts with
  | nil =>
    cases hxs
    exact hys
  | cons c xs ih =>
    obtain ⟨m₁, ts₁, ts₂, hstep, hrun, rfl⟩ := reads_cons_iff.1 hxs
    rw [List.cons_append, List.append_assoc]
    exact .cons hstep (ih hrun)

/-! ### Parts of a text -/

/-- The tokens of a part that stands behind the end of a word. -/
def Lexes (s : String) (ts : List Token) : Prop :=
  ∃ word us, Reads (.code []) s.toList (.code word) us ∧ us ++ flush word = ts

/-- The tokens of a part that stands between the ends of two words. -/
def Ends (s : String) (ts : List Token) : Prop :=
  Reads (.code []) s.toList (.code []) ts

/-- A character that ends the word in front of it and opens no literal. -/
def breaks (c : Char) : Bool :=
  !isNameChar c && c != '"'

/-- The part begins with a character that ends the word in front of it. -/
def Breaks (s : String) : Prop :=
  s.toList.head?.any breaks = true

/-- The part ends with a character behind which no word goes on. -/
def Closes (s : String) : Prop :=
  s.toList.getLast?.any breaks = true

instance (s : String) : Decidable (Breaks s) :=
  inferInstanceAs (Decidable (s.toList.head?.any breaks = true))

instance (s : String) : Decidable (Closes s) :=
  inferInstanceAs (Decidable (s.toList.getLast?.any breaks = true))

variable {s t : String}

theorem Closes.append (ht : Closes t) (s : String) : Closes (s ++ t) := by
  unfold Closes at ht ⊢
  rw [String.toList_append, List.getLast?_append]
  cases h : t.toList.getLast? with
  | none => rw [h] at ht; cases ht
  | some c => rwa [h] at ht

theorem Ends.lexes (h : Ends s ts) : Lexes s ts :=
  ⟨[], ts, h, List.append_nil ts⟩

theorem Ends.append_ends (hs : Ends s ts) (ht : Ends t us) : Ends (s ++ t) (ts ++ us) := by
  unfold Ends
  rw [String.toList_append]
  exact Reads.append hs ht

theorem Ends.append (hs : Ends s ts) (ht : Lexes t us) : Lexes (s ++ t) (ts ++ us) := by
  obtain ⟨word, us, hread, rfl⟩ := ht
  refine ⟨word, ts ++ us, ?_, List.append_assoc ..⟩
  rw [String.toList_append]
  exact Reads.append hs hread

/-- A character that ends a word does the same as behind the end of one, apart from the word. -/
theorem step_code_of_breaks (hc : breaks c = true) (word : List Char) :
    step (.code word) c =
      (step (.code []) c).map fun behind => (behind.1, flush word ++ behind.2) := by
  simp only [breaks, Bool.and_eq_true, Bool.not_eq_true', bne_iff_ne, ne_eq] at hc
  simp only [step, hc.1, hc.2, Bool.false_eq_true, if_false, show flush [] = [] from rfl]
  split_ifs <;> simp

theorem Reads.after_word (ht : Breaks t) (h : Reads (.code []) t.toList m us) (word : List Char) :
    Reads (.code word) t.toList m (flush word ++ us) := by
  unfold Breaks at ht
  cases hcs : t.toList with
  | nil => rw [hcs] at ht; cases ht
  | cons c cs =>
    rw [hcs] at h ht
    obtain ⟨m₁, ts₁, us₁, hstep, hrun, rfl⟩ := reads_cons_iff.1 h
    rw [← List.append_assoc]
    refine .cons ?_ hrun
    rw [step_code_of_breaks ht, hstep, Option.map_some]

theorem Lexes.append_ends (hs : Lexes s ts) (hbreaks : Breaks t) (ht : Ends t us) :
    Ends (s ++ t) (ts ++ us) := by
  obtain ⟨word, ts, hread, rfl⟩ := hs
  unfold Ends
  rw [String.toList_append, List.append_assoc]
  exact hread.append (Reads.after_word hbreaks ht word)

theorem Lexes.append (hs : Lexes s ts) (hbreaks : Breaks t) (ht : Lexes t us) :
    Lexes (s ++ t) (ts ++ us) := by
  obtain ⟨word, ts, hread, rfl⟩ := hs
  obtain ⟨last, us, hread', rfl⟩ := ht
  refine ⟨last, ts ++ (flush word ++ us), ?_, by simp only [List.append_assoc]⟩
  rw [String.toList_append]
  exact hread.append (Reads.after_word hbreaks hread' word)

/-- The tokens of a whole text. -/
theorem Lexes.tokens_eq (h : Lexes s ts) : tokens s = some ts := by
  obtain ⟨word, ts, hread, rfl⟩ := h
  simp only [tokens, show run (.code []) s.toList = _ from hread]

theorem flush_of_ne_nil (h : cs ≠ []) : flush cs = [.word (String.ofList cs)] := by
  cases cs with
  | nil => exact absurd rfl h
  | cons => rfl

/-- The characters of a word make the word. -/
theorem reads_word (h : ∀ c ∈ cs, isNameChar c = true) (word : List Char) :
    Reads (.code word) cs (.code (word ++ cs)) [] := by
  induction cs generalizing word with
  | nil => exact (List.append_nil word).symm ▸ Reads.nil
  | cons c cs ih =>
    obtain ⟨hc, hcs⟩ := List.forall_mem_cons.1 h
    have hstep : step (.code word) c = some (.code (word ++ [c]), []) := if_pos hc
    rw [List.append_cons]
    exact .silent hstep (ih hcs (word ++ [c]))

theorem lexes_word (hne : s ≠ "") (h : ∀ c ∈ s.toList, isNameChar c = true) :
    Lexes s [.word s] := by
  refine ⟨s.toList, [], reads_word h [], ?_⟩
  rw [flush_of_ne_nil (mt String.toList_eq_nil_iff.1 hne), String.ofList_toList, List.nil_append]

end FieldRules.Source
