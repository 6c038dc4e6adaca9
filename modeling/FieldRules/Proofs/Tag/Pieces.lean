import FieldRules.Proofs.Text.Blank
import FieldRules.Tag

/-!
# The pieces of a tag

A tag is split at the commas outside quotes. A text is a single piece, `IsPiece`, if it has no such
comma and leaves no quote open; what stands in front of the text decides only whether an apostrophe
at its start opens a quote. Whatever a tag is split into are pieces (`piecesFrom_eq_some`), and
pieces with commas between them are split into the same pieces again (`piecesFrom_intercalate`).
-/

namespace FieldRules.Tag

open Text

variable {isQuoted : Bool} {previous previous' : Option Char} {c : Char} {cs : List Char}

/-- The text has no comma outside quotes, and no quote is open at its end. -/
def IsPiece (isQuoted : Bool) (previous : Option Char) (cs : List Char) : Prop :=
  piecesFrom isQuoted previous cs = some [cs]

/-! ### Character by character -/

theorem isPiece_nil : IsPiece isQuoted previous [] ↔ isQuoted = false := by
  cases isQuoted <;> simp [IsPiece, piecesFrom]

theorem modifyHead_cons_eq_singleton_iff {pieces : List (List Char)} :
    pieces.modifyHead (c :: ·) = [c :: cs] ↔ pieces = [cs] := by
  cases pieces <;> simp

theorem isPiece_cons :
    IsPiece isQuoted previous (c :: cs) ↔
      ¬ (c = ',' ∧ isQuoted = false) ∧ IsPiece (quotedAfter isQuoted previous c) (some c) cs := by
  unfold IsPiece
  rw [piecesFrom]
  by_cases hcomma : c = ',' ∧ isQuoted = false
  · simp [hcomma]
  · simp [hcomma, modifyHead_cons_eq_singleton_iff]

/-- What stands in front matters only for an apostrophe at the start. -/
theorem piecesFrom_congr (h : opensQuote previous = opensQuote previous') :
    piecesFrom isQuoted previous cs = piecesFrom isQuoted previous' cs := by
  cases cs with
  | nil => rfl
  | cons c cs => rw [piecesFrom, piecesFrom, quotedAfter, quotedAfter, h]

theorem isPiece_congr (h : opensQuote previous = opensQuote previous') :
    IsPiece isQuoted previous cs ↔ IsPiece isQuoted previous' cs := by
  rw [IsPiece, IsPiece, piecesFrom_congr h]

/-- A character that is neither a comma nor an apostrophe belongs to the piece behind it. -/
theorem isPiece_cons_plain (hcomma : c ≠ ',') (hquote : c ≠ '\'') :
    IsPiece isQuoted previous (c :: cs) ↔ IsPiece isQuoted (some c) cs := by
  rw [isPiece_cons, quotedAfter, if_neg hquote]
  simp [hcomma]

/-- So do several; the last of them then stands in front of the piece. -/
theorem isPiece_append_plain {plain : List Char} (hcomma : ',' ∉ plain) (hquote : '\'' ∉ plain)
    (hc : c ≠ ',' ∧ c ≠ '\'') :
    IsPiece isQuoted previous (plain ++ c :: cs) ↔ IsPiece isQuoted (some c) cs := by
  induction plain generalizing previous with
  | nil => exact isPiece_cons_plain hc.1 hc.2
  | cons d plain ih =>
    obtain ⟨hd, hcomma⟩ := List.ne_and_not_mem_of_not_mem_cons hcomma
    obtain ⟨hd', hquote⟩ := List.ne_and_not_mem_of_not_mem_cons hquote
    rw [List.cons_append, isPiece_cons_plain hd.symm hd'.symm]
    exact ih hcomma hquote

/-- A text without commas and apostrophes is a piece. -/
theorem isPiece_plain {plain : List Char} (hcomma : ',' ∉ plain) (hquote : '\'' ∉ plain) :
    IsPiece false previous plain := by
  induction plain generalizing previous with
  | nil => exact isPiece_nil.2 rfl
  | cons d plain ih =>
    obtain ⟨hd, hcomma⟩ := List.ne_and_not_mem_of_not_mem_cons hcomma
    obtain ⟨hd', hquote⟩ := List.ne_and_not_mem_of_not_mem_cons hquote
    exact (isPiece_cons_plain hd.symm hd'.symm).2 (ih hcomma hquote)

/-! ### Blanks around a piece -/

theorem ne_comma_of_isBlank (h : isBlank c = true) : c ≠ ',' := by
  rintro rfl
  cases h

theorem ne_apostrophe_of_isBlank (h : isBlank c = true) : c ≠ '\'' := by
  rintro rfl
  cases h

/-- An apostrophe behind a blank opens a quote. -/
theorem opensQuote_of_isBlank (h : isBlank c = true) : opensQuote (some c) = true := by
  simp [opensQuote, h]

/-- Blanks in front of a piece make no difference where an apostrophe would open a quote anyway. -/
theorem isPiece_blanks_append {blanks : List Char} (h : ∀ b ∈ blanks, isBlank b = true)
    (hopens : opensQuote previous = true) :
    IsPiece isQuoted previous (blanks ++ cs) ↔ IsPiece isQuoted previous cs := by
  induction blanks generalizing previous with
  | nil => rfl
  | cons b blanks ih =>
    obtain ⟨hb, hblanks⟩ := List.forall_mem_cons.1 h
    have hopens' := opensQuote_of_isBlank hb
    rw [List.cons_append, isPiece_cons_plain (ne_comma_of_isBlank hb) (ne_apostrophe_of_isBlank hb),
      ih hblanks hopens', isPiece_congr (hopens'.trans hopens.symm)]

/-- Nor do blanks behind it. -/
theorem isPiece_append_blanks {blanks : List Char} (h : ∀ b ∈ blanks, isBlank b = true) :
    IsPiece isQuoted previous (cs ++ blanks) ↔ IsPiece isQuoted previous cs := by
  induction cs generalizing isQuoted previous with
  | nil =>
    rw [List.nil_append, isPiece_nil]
    induction blanks generalizing previous with
    | nil => exact isPiece_nil
    | cons b blanks ih =>
      obtain ⟨hb, hblanks⟩ := List.forall_mem_cons.1 h
      rw [isPiece_cons_plain (ne_comma_of_isBlank hb) (ne_apostrophe_of_isBlank hb)]
      exact ih hblanks
  | cons c cs ih => rw [List.cons_append, isPiece_cons, isPiece_cons, ih]

/-- So a piece may be trimmed. -/
theorem isPiece_trim (hopens : opensQuote previous = true) :
    IsPiece isQuoted previous (trim cs) ↔ IsPiece isQuoted previous cs := by
  obtain ⟨before, behind, hcs, hbefore, hbehind⟩ := exists_trim cs
  conv_rhs => rw [hcs, isPiece_append_blanks hbehind, isPiece_blanks_append hbefore hopens]

/-! ### Quotes -/

/-- Inside a quote, a piece goes on behind the next apostrophe. -/
theorem isPiece_inside {text rest : List Char} (h : '\'' ∉ text) :
    IsPiece true previous (text ++ '\'' :: rest) ↔ IsPiece false (some '\'') rest := by
  induction text generalizing previous with
  | nil =>
    rw [List.nil_append, isPiece_cons]
    simp [quotedAfter]
  | cons c text ih =>
    obtain ⟨hc, htext⟩ := List.ne_and_not_mem_of_not_mem_cons h
    rw [List.cons_append, isPiece_cons, quotedAfter, if_neg hc.symm, ih htext]
    simp

/-- Without another apostrophe, the quote stays open. -/
theorem not_isPiece_inside {text : List Char} (h : '\'' ∉ text) :
    ¬ IsPiece true previous text := by
  induction text generalizing previous with
  | nil => simp [isPiece_nil]
  | cons c text ih =>
    obtain ⟨hc, htext⟩ := List.ne_and_not_mem_of_not_mem_cons h
    rw [isPiece_cons, quotedAfter, if_neg hc.symm]
    rintro ⟨-, hpiece⟩
    exact ih htext hpiece

/-! ### Splitting and joining -/

/-- Whatever a text is split into are pieces, and there is at least one. -/
theorem piecesFrom_eq_some {pieces : List (List Char)}
    (h : piecesFrom isQuoted previous cs = some pieces) :
    ∃ first rest, pieces = first :: rest ∧ IsPiece isQuoted previous first ∧
      ∀ piece ∈ rest, IsPiece false (some ',') piece := by
  induction cs generalizing isQuoted previous pieces with
  | nil =>
    cases isQuoted with
    | true => cases h
    | false =>
      cases h
      exact ⟨[], [], rfl, isPiece_nil.2 rfl, by simp⟩
  | cons c cs ih =>
    rw [piecesFrom] at h
    by_cases hcomma : c = ',' ∧ isQuoted = false
    · rw [if_pos hcomma] at h
      obtain ⟨pieces, hpieces, rfl⟩ := Option.map_eq_some_iff.1 h
      obtain ⟨first, rest, rfl, hfirst, hrest⟩ := ih hpieces
      obtain ⟨rfl, rfl⟩ := hcomma
      exact ⟨[], first :: rest, rfl, isPiece_nil.2 rfl, List.forall_mem_cons.2 ⟨hfirst, hrest⟩⟩
    · rw [if_neg hcomma] at h
      obtain ⟨pieces, hpieces, rfl⟩ := Option.map_eq_some_iff.1 h
      obtain ⟨first, rest, rfl, hfirst, hrest⟩ := ih hpieces
      exact ⟨c :: first, rest, rfl, isPiece_cons.2 ⟨hcomma, hfirst⟩, hrest⟩

/-- Behind pieces and a comma, the rest is split by itself. -/
theorem piecesFrom_append_comma {pieces : List (List Char)} (rest : List Char)
    (h : piecesFrom isQuoted previous cs = some pieces) :
    piecesFrom isQuoted previous (cs ++ ',' :: rest) =
      (piecesFrom false (some ',') rest).map (pieces ++ ·) := by
  induction cs generalizing isQuoted previous pieces with
  | nil =>
    cases isQuoted with
    | true => cases h
    | false =>
      cases h
      rfl
  | cons c cs ih =>
    rw [piecesFrom] at h
    rw [List.cons_append, piecesFrom]
    by_cases hcomma : c = ',' ∧ isQuoted = false
    · rw [if_pos hcomma] at h
      obtain ⟨pieces, hpieces, rfl⟩ := Option.map_eq_some_iff.1 h
      rw [if_pos hcomma, ih hpieces, Option.map_map]
      rfl
    · rw [if_neg hcomma] at h
      obtain ⟨pieces, hpieces, rfl⟩ := Option.map_eq_some_iff.1 h
      obtain ⟨first, more, rfl, -⟩ := piecesFrom_eq_some hpieces
      rw [if_neg hcomma, ih hpieces, Option.map_map]
      rfl

/-- **Pieces with commas between them are split into the same pieces.** -/
theorem piecesFrom_intercalate {first : List Char} {rest : List (List Char)}
    (hfirst : IsPiece isQuoted previous first)
    (hrest : ∀ piece ∈ rest, IsPiece false (some ',') piece) :
    piecesFrom isQuoted previous ([','].intercalate (first :: rest)) = some (first :: rest) := by
  induction rest generalizing isQuoted previous first with
  | nil => rwa [List.intercalate_singleton]
  | cons second rest ih =>
    obtain ⟨hsecond, hrest⟩ := List.forall_mem_cons.1 hrest
    rw [List.intercalate_cons_cons, List.append_assoc, List.singleton_append,
      piecesFrom_append_comma _ hfirst, ih hsecond hrest]
    rfl

/-- The entries of a tag are its pieces, trimmed, without the blank ones. -/
theorem entries_eq_ok_iff {tag : String} {es : List String} :
    entries tag = .ok es ↔ ∃ pieces, piecesFrom false none tag.toList = some pieces ∧
      es = ((pieces.map trim).filter (· ≠ [])).map String.ofList := by
  unfold entries
  cases piecesFrom false none tag.toList with
  | none => simp
  | some pieces => simp [eq_comm (a := es)]

/-- Every entry is a single piece, wherever it stands in a tag. -/
theorem isPiece_of_mem_entries {tag : String} {es : List String} (h : entries tag = .ok es)
    {e : String} (he : e ∈ es) (hopens : opensQuote previous = true) :
    IsPiece false previous e.toList := by
  obtain ⟨pieces, hpieces, rfl⟩ := entries_eq_ok_iff.1 h
  obtain ⟨first, rest, rfl, hfirst, hrest⟩ := piecesFrom_eq_some hpieces
  have heach : ∀ piece ∈ first :: rest, IsPiece false previous piece := by
    refine List.forall_mem_cons.2 ⟨(isPiece_congr hopens).2 hfirst, fun piece hpiece => ?_⟩
    exact (isPiece_congr hopens).2 (hrest piece hpiece)
  obtain ⟨cs, hcs, rfl⟩ := List.mem_map.1 he
  obtain ⟨piece, hpiece, rfl⟩ := List.mem_map.1 (List.mem_filter.1 hcs).1
  rw [String.toList_ofList]
  exact (isPiece_trim hopens).2 (heach piece hpiece)

end FieldRules.Tag
