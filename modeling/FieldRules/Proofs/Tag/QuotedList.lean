import FieldRules.Except
import FieldRules.Proofs.Tag.Pieces

/-!
# Lists of quoted targets

A list of quoted targets is a sequence of values between apostrophes, with any blanks behind each of
them, or none: `QuotedList`. A list is `Unfinished` if an apostrophe follows that no other apostrophe
closes. Reading such a list gives its values as they stand (`quotedValues_eq_ok_iff`), and reports a
target without end exactly for unfinished lists (`quotedValues_eq_unterminated_iff`). The argument
for both is the same: every text is a quoted list up to the place where reading it has to stop
(`exists_quotedList`).

The splitting of tags has its own rule for quotes, which looks at the character in front of an
apostrophe. Behind the values of a quoted list this is an apostrophe or a blank, so both rules take
the next apostrophe for the start of a value (`QuotedList.isPiece_append`).
-/

namespace FieldRules.Tag

open Text

/-! ### The grammar -/

/-- The text is a sequence of the values between apostrophes, with any blanks behind each value. In a
trimmed text there are none behind the last one, and the blanks only separate. -/
inductive QuotedList : List (List Char) → List Char → Prop where
  /-- No values. -/
  | nil : QuotedList [] []
  /-- A value between apostrophes, blanks, and the other values. -/
  | cons {value blanks rest : List Char} {values : List (List Char)} : '\'' ∉ value →
      (∀ b ∈ blanks, isBlank b = true) → QuotedList values rest →
      QuotedList (value :: values) ('\'' :: (value ++ '\'' :: (blanks ++ rest)))

/-- The text is a quoted list and then an apostrophe that no other apostrophe follows. -/
def Unfinished (cs : List Char) : Prop :=
  ∃ values done tail, QuotedList values done ∧ '\'' ∉ tail ∧ cs = done ++ '\'' :: tail

variable {values : List (List Char)} {done rest cs : List Char} {previous : Option Char}

/-- The values hold characters of the text, and no apostrophes. -/
theorem QuotedList.forall_mem (h : QuotedList values cs) :
    ∀ value ∈ values, '\'' ∉ value ∧ ∀ c ∈ value, c ∈ cs := by
  induction h with
  | nil => simp
  | @cons value blanks rest values hvalue _ _ ih =>
    intro other hother
    rcases List.mem_cons.1 hother with rfl | hother
    · exact ⟨hvalue, fun c hc => by simp [hc]⟩
    · obtain ⟨hquote, hmem⟩ := ih other hother
      exact ⟨hquote, fun c hc => by simp [hmem c hc]⟩

/-- A text without a leading blank is a quoted list up to its end, or up to an apostrophe that is not
closed, or up to a character that can neither start a value nor separate two of them. -/
theorem exists_quotedList (cs : List Char) (hstart : ∀ c, cs.head? = some c → isBlank c = false) :
    ∃ values done rest, QuotedList values done ∧ cs = done ++ rest ∧
      (rest = [] ∨ (∃ tail, '\'' ∉ tail ∧ rest = '\'' :: tail) ∨
        ∃ c tail, isBlank c = false ∧ c ≠ '\'' ∧ rest = c :: tail) := by
  -- The induction goes from one value to the text behind the blanks that follow it.
  induction hlength : cs.length using Nat.strongRecOn generalizing cs with
  | ind n ih =>
    cases cs with
    | nil => exact ⟨[], [], [], .nil, rfl, .inl rfl⟩
    | cons c tail =>
      by_cases hquote : c = '\''
      · subst hquote
        by_cases hclosed : '\'' ∈ tail
        · obtain ⟨value, behind, rfl, hvalue⟩ := List.eq_append_cons_of_mem hclosed
          have hshorter : (trimStart behind).length < n := by
            have := (List.dropWhile_suffix isBlank (l := behind)).length_le
            simp only [List.length_cons, List.length_append] at hlength
            rw [trimStart]
            omega
          obtain ⟨values, done, rest, hdone, hbehind, hrest⟩ :=
            ih _ hshorter (trimStart behind) (fun _ h => head?_trimStart h) rfl
          have hblanks : ∀ b ∈ behind.takeWhile isBlank, isBlank b = true := by
            intro b hb
            exact List.mem_takeWhile_imp hb
          have hsplit : behind = behind.takeWhile isBlank ++ (done ++ rest) := by
            rw [← hbehind, trimStart, List.takeWhile_append_dropWhile]
          refine ⟨value :: values, _, rest, .cons hvalue hblanks hdone, ?_, hrest⟩
          conv_lhs => rw [hsplit]
          simp
        · exact ⟨[], [], _, .nil, rfl, .inr (.inl ⟨tail, hclosed, rfl⟩)⟩
      · exact ⟨[], [], _, .nil, rfl, .inr (.inr ⟨c, tail, hstart c rfl, hquote, rfl⟩)⟩

/-! ### Reading -/

/-- Blanks between targets are skipped. -/
theorem quotedValues_blanks_append {blanks : List Char} (rest : List Char)
    (h : ∀ b ∈ blanks, isBlank b = true) :
    quotedValues none (blanks ++ rest) = quotedValues none rest := by
  induction blanks with
  | nil => rfl
  | cons b blanks ih =>
    obtain ⟨hb, hblanks⟩ := List.forall_mem_cons.1 h
    rw [List.cons_append, quotedValues.eq_def]
    simp only [hb, if_true]
    exact ih hblanks

theorem quotedValues_trimStart (cs : List Char) :
    quotedValues none (trimStart cs) = quotedValues none cs := by
  conv_rhs => rw [← List.takeWhile_append_dropWhile (p := isBlank) (l := cs)]
  exact (quotedValues_blanks_append _ fun b hb => List.mem_takeWhile_imp hb).symm

/-- A target is read up to its apostrophe. -/
theorem quotedValues_inside {text : List Char} (h : '\'' ∉ text) (start rest : List Char) :
    quotedValues (some start) (text ++ '\'' :: rest) =
      (quotedValues none rest).map ((start.reverse ++ text) :: ·) := by
  induction text generalizing start with
  | nil => simp [quotedValues]
  | cons c text ih =>
    obtain ⟨hc, htext⟩ := List.ne_and_not_mem_of_not_mem_cons h
    rw [List.cons_append, quotedValues.eq_def]
    simp only [if_neg hc.symm, ih htext]
    simp

/-- Without an apostrophe behind it, a target does not end. -/
theorem quotedValues_unclosed {text : List Char} (h : '\'' ∉ text) (start : List Char) :
    quotedValues (some start) text = .error .unterminated := by
  induction text generalizing start with
  | nil => rfl
  | cons c text ih =>
    obtain ⟨hc, htext⟩ := List.ne_and_not_mem_of_not_mem_cons h
    rw [quotedValues.eq_def]
    simp only [if_neg hc.symm]
    exact ih htext (c :: start)

/-- **A quoted list is read as its values**, and then the reading goes on behind it. -/
theorem QuotedList.quotedValues_append (h : QuotedList values done) (rest : List Char) :
    quotedValues none (done ++ rest) = (quotedValues none rest).map (values ++ ·) := by
  induction h with
  | nil =>
    rw [List.nil_append]
    cases quotedValues none rest <;> rfl
  | @cons value blanks behind values hvalue hblanks _ ih =>
    have hopen : quotedValues none ('\'' :: (value ++ '\'' :: (blanks ++ behind)) ++ rest) =
        (quotedValues none (blanks ++ (behind ++ rest))).map (value :: ·) := by
      have htext : '\'' :: (value ++ '\'' :: (blanks ++ behind)) ++ rest =
          '\'' :: (value ++ '\'' :: (blanks ++ (behind ++ rest))) := by simp
      rw [htext]
      exact quotedValues_inside hvalue [] _
    rw [hopen, quotedValues_blanks_append _ hblanks, ih]
    cases quotedValues none rest <;> rfl

/-- Reading ends behind a quoted list: at the end of the text, inside a value, or at a stray
character. -/
theorem quotedValues_cases (cs : List Char) :
    (∃ values, QuotedList values (trimStart cs) ∧ quotedValues none cs = .ok values) ∨
      (Unfinished (trimStart cs) ∧ quotedValues none cs = .error .unterminated) ∨
        quotedValues none cs = .error .stray := by
  obtain ⟨values, done, rest, hdone, hcs, hrest⟩ :=
    exists_quotedList (trimStart cs) fun _ h => head?_trimStart h
  rw [← quotedValues_trimStart, hcs, hdone.quotedValues_append]
  rcases hrest with rfl | ⟨tail, htail, rfl⟩ | ⟨c, tail, hblank, hquote, rfl⟩
  · refine .inl ⟨values, by simpa using hdone, ?_⟩
    simp [quotedValues, Except.map]
  · refine .inr (.inl ⟨⟨values, done, tail, hdone, htail, rfl⟩, ?_⟩)
    rw [map_eq_error_iff]
    exact quotedValues_unclosed htail []
  · refine .inr (.inr ?_)
    simp [quotedValues, hblank, hquote, Except.map]

/-- Reading succeeds exactly on quoted lists, with the values of the list. -/
theorem quotedValues_eq_ok_iff :
    quotedValues none cs = .ok values ↔ QuotedList values (trimStart cs) := by
  constructor
  · intro h
    rcases quotedValues_cases cs with ⟨found, hlist, hread⟩ | ⟨-, hread⟩ | hread
    · rw [h] at hread
      cases hread
      exact hlist
    · rw [h] at hread
      cases hread
    · rw [h] at hread
      cases hread
  · intro h
    have hread := h.quotedValues_append []
    rw [List.append_nil, quotedValues_trimStart] at hread
    simpa [quotedValues, Except.map] using hread

theorem quotedValues_eq_ok_iff_of_trim (htrim : trim cs = cs) :
    quotedValues none cs = .ok values ↔ QuotedList values cs := by
  rw [quotedValues_eq_ok_iff, trimStart_of_trim htrim]

/-- Reading misses the end of a target exactly on unfinished lists. -/
theorem quotedValues_eq_unterminated_iff :
    quotedValues none cs = .error .unterminated ↔ Unfinished (trimStart cs) := by
  constructor
  · intro h
    rcases quotedValues_cases cs with ⟨found, -, hread⟩ | ⟨hunfinished, -⟩ | hread
    · rw [h] at hread
      cases hread
    · exact hunfinished
    · rw [h] at hread
      cases hread
  · rintro ⟨values, done, tail, hdone, htail, hcs⟩
    rw [← quotedValues_trimStart, hcs, hdone.quotedValues_append, map_eq_error_iff]
    exact quotedValues_unclosed htail []

/-! ### Quoted lists in a tag -/

/-- **A quoted list leaves no quote open**: a piece goes on behind it as if nothing had been there. -/
theorem QuotedList.isPiece_append (h : QuotedList values done)
    (hopens : opensQuote previous = true) (rest : List Char) :
    IsPiece false previous (done ++ rest) ↔ IsPiece false previous rest := by
  induction h generalizing previous with
  | nil => rfl
  | @cons value blanks behind values hvalue hblanks _ ih =>
    have hquote : opensQuote (some '\'') = true := rfl
    have htext : '\'' :: (value ++ '\'' :: (blanks ++ behind)) ++ rest =
        '\'' :: (value ++ '\'' :: (blanks ++ (behind ++ rest))) := by simp
    have hinside : quotedAfter false previous '\'' = true := by simp [quotedAfter, hopens]
    rw [htext, isPiece_cons, hinside, isPiece_inside hvalue, isPiece_blanks_append hblanks hquote,
      ih hquote, isPiece_congr (hquote.trans hopens.symm)]
    simp

/-- An unfinished list leaves a quote open. -/
theorem Unfinished.not_isPiece (h : Unfinished cs) (hopens : opensQuote previous = true) :
    ¬ IsPiece false previous cs := by
  obtain ⟨values, done, tail, hdone, htail, rfl⟩ := h
  have hinside : quotedAfter false previous '\'' = true := by simp [quotedAfter, hopens]
  rw [hdone.isPiece_append hopens, isPiece_cons, hinside]
  rintro ⟨-, hpiece⟩
  exact not_isPiece_inside htail hpiece

end FieldRules.Tag
