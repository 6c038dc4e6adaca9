import FieldRules.Proofs.Json.Containers

/-!
# What a reader answers

A reader may be asked the same in different places: the same text further to the right, with other
text behind it. `Answers` says that it then gives the same answer, a value or the path and the cause
of a failure, and that only the positions differ. What follows must not run on into the text, so it
has to begin with a delimiter.

Unlike `Takes`, which starts from a reader that succeeds, this starts from a text.
-/

namespace FieldRules.Json

/-! ### Answers -/

/-- What a reader makes of a text: a value, or the path and the cause of a failure. -/
abbrev Answer (α : Type) := Except (List Segment × Cause) α

/-- A failure of a value, as a failure of what contains it. -/
def Answer.within {α : Type} (s : Segment) : Answer α → Answer α
  | .ok x => .ok x
  | .error (path, cause) => .error (s :: path, cause)

/-- A character that may follow a value or a key. -/
def isDelimiter (c : Char) : Bool :=
  Cursor.isGap c || c == ',' || c == ':' || c == ']' || c == '\x7d'

/-- Nothing, or a text that begins with a delimiter. -/
def Delimited (cs : List Char) : Prop :=
  ∀ c, cs.head? = some c → isDelimiter c = true

/-- A text that begins with something else, as every value does. -/
def Begins (cs : List Char) : Prop :=
  ∃ c, cs.head? = some c ∧ isDelimiter c = false

/-- The answer given at a place: a value with the text behind it, or a failure. -/
def Answer.at {α : Type} (q : Position) (rest : List Char) :
    Answer α → Except Failure (α × Cursor)
  | .ok x => .ok (x, ⟨q, rest⟩)
  | .error (path, cause) => .error ⟨path, ⟨cause, q⟩⟩

@[simp] theorem Answer.at_ok {α : Type} (q : Position) (rest : List Char) (x : α) :
    Answer.at q rest (.ok x) = .ok (x, ⟨q, rest⟩) := rfl

@[simp] theorem Answer.at_error {α : Type} (q : Position) (rest : List Char)
    (path : List Segment) (cause : Cause) :
    (Answer.at q rest (.error (path, cause)) : Except Failure (α × Cursor)) =
      .error ⟨path, ⟨cause, q⟩⟩ := rfl

/-- Wherever the text stands, the step takes it and gives the answer. -/
def Answers {α : Type} (f : Cursor → Except Failure (α × Cursor)) (w : List Char)
    (a : Answer α) : Prop :=
  ∀ p rest, Delimited rest → ∃ q, f ⟨p, w ++ rest⟩ = a.at q rest

theorem lift_map {α β : Type} (x : Except Fault α) (f : α → β) :
    lift (x.map f) = (lift x).map f := by
  cases x <;> rfl

/-! ### Delimiters -/

theorem delimited_nil : Delimited [] := by
  simp [Delimited]

theorem delimited_cons {c : Char} {cs : List Char} :
    Delimited (c :: cs) ↔ isDelimiter c = true := by
  simp [Delimited]

theorem Delimited.append {cs rest : List Char} (h : Delimited cs) (hrest : Delimited rest) :
    Delimited (cs ++ rest) := by
  cases cs with
  | nil => exact hrest
  | cons c cs => exact h

theorem delimited_of_isGap {g : List Char} (h : IsGap g) : Delimited g := by
  intro c hc
  simp [isDelimiter, h c (List.mem_of_mem_head? hc)]

/-- Something may stand in front of a separator. -/
theorem IsSeparator.delimited {separator : List Char} (h : IsSeparator false separator)
    (cs : List Char) : Delimited (separator ++ cs) := by
  obtain ⟨g, g', hg, -, rfl⟩ := h
  simpa using (delimited_of_isGap hg).append (delimited_cons.2 rfl)

theorem Begins.append {cs : List Char} (h : Begins cs) (rest : List Char) :
    Begins (cs ++ rest) := by
  obtain ⟨c, hc, hdelimiter⟩ := h
  exact ⟨c, by rw [List.head?_append, hc]; rfl, hdelimiter⟩

theorem Begins.of_head {cs cs' : List Char} (h : Begins cs) (hhead : cs'.head? = cs.head?) :
    Begins cs' := by
  rwa [Begins, hhead]

theorem Begins.head?_append {cs : List Char} (h : Begins cs) (rest : List Char) :
    (cs ++ rest).head? = cs.head? := by
  obtain ⟨c, hc, -⟩ := h
  rw [List.head?_append, hc]
  rfl

theorem begins_cons {c : Char} {cs : List Char} : Begins (c :: cs) ↔ isDelimiter c = false := by
  simp [Begins]

theorem Delimited.head?_ne {rest : List Char} (h : Delimited rest) {c : Char}
    (hc : isDelimiter c = false) : rest.head? ≠ some c := by
  intro hhead
  simp [h c hhead] at hc

/-- A delimiter is no part of a number. -/
theorem isDelimiter_of_isDigit {c : Char} (h : c.isDigit = true) : isDelimiter c = false := by
  cases hdelimiter : isDelimiter c with
  | false => rfl
  | true =>
    simp only [isDelimiter, Cursor.isGap, Bool.or_eq_true, beq_iff_eq, or_assoc] at hdelimiter
    rcases hdelimiter with rfl | rfl | rfl | rfl | rfl | rfl | rfl | rfl <;>
      exact absurd h (by decide)

theorem Delimited.isDigit_eq_false {rest : List Char} (h : Delimited rest) :
    ∀ c, rest.head? = some c → c.isDigit = false := by
  intro c hc
  by_contra hdigit
  have hdelimiter := isDelimiter_of_isDigit (by simpa using hdigit)
  exact h.head?_ne hdelimiter hc

/-! ### Gaps and single characters -/

theorem IsGap.skipGap_eq {g cs : List Char} (hg : IsGap g)
    (hcs : ∀ c, cs.head? = some c → Cursor.isGap c = false) (p : Position) :
    ∃ q, Cursor.skipGap ⟨p, g ++ cs⟩ = ⟨q, cs⟩ := by
  simp only [Cursor.skipGap]
  induction g generalizing p with
  | nil =>
    refine ⟨p, ?_⟩
    cases cs with
    | nil => rfl
    | cons c cs => simp [Cursor.skipGapFrom, hcs c rfl]
  | cons c g ih =>
    obtain ⟨hc, hg⟩ := List.forall_mem_cons.1 hg
    obtain ⟨q, hq⟩ := ih hg (p.next c)
    exact ⟨q, by simpa [Cursor.skipGapFrom, hc] using hq⟩

theorem Cursor.skipGap_skipGap (c : Cursor) : c.skipGap.skipGap = c.skipGap := by
  simp only [skipGap]
  fun_induction skipGapFrom c.position c.rest with
  | case1 => rfl
  | case2 p x cs hx ih => exact ih
  | case3 p x cs hx => simp [skipGapFrom, hx]

theorem isGap_eq_false_of_isDelimiter {c : Char} (h : isDelimiter c = false) :
    Cursor.isGap c = false := by
  simp only [isDelimiter, Bool.or_eq_false_iff] at h
  exact h.1.1.1.1

theorem Begins.isGap_eq_false {cs : List Char} (h : Begins cs) :
    ∀ c, cs.head? = some c → Cursor.isGap c = false := by
  obtain ⟨x, hx, hdelimiter⟩ := h
  intro c hc
  cases hx.symm.trans hc
  exact isGap_eq_false_of_isDelimiter hdelimiter

theorem Begins.skipGap_eq {c : Cursor} (h : Begins c.rest) : c.skipGap = c := by
  obtain ⟨p, cs⟩ := c
  cases cs with
  | nil => rfl
  | cons c cs => simp [Cursor.skipGap, Cursor.skipGapFrom, h.isGap_eq_false c rfl]

theorem IsGap.skipGap_cons {g : List Char} (hg : IsGap g) {x : Char}
    (hx : Cursor.isGap x = false) (p : Position) (cs : List Char) :
    ∃ q, Cursor.skipGap ⟨p, g ++ x :: cs⟩ = ⟨q, x :: cs⟩ := by
  refine hg.skipGap_eq ?_ p
  rintro _ ⟨⟩
  exact hx

theorem IsGap.passes {g : List Char} (hg : IsGap g) {x : Char} (hx : Cursor.isGap x = false)
    (p : Position) (rest : List Char) : ∃ q, Passes x ⟨p, g ++ x :: rest⟩ ⟨q, rest⟩ := by
  obtain ⟨q, hq⟩ := hg.skipGap_cons hx p rest
  exact ⟨q.next x, by rw [hq], by rw [hq]; rfl⟩

theorem IsSeparator.separates {fresh : Bool} {separator cs : List Char}
    (h : IsSeparator fresh separator) (hcs : Begins cs) (p : Position) :
    ∃ q, Separates fresh ⟨p, separator ++ cs⟩ ⟨q, cs⟩ := by
  cases fresh with
  | true => exact IsGap.skipGap_eq h hcs.isGap_eq_false p
  | false =>
    obtain ⟨g, g', hg, hg', rfl⟩ := h
    obtain ⟨q, hcomma⟩ := hg.passes (x := ',') rfl p (g' ++ cs)
    obtain ⟨q', hgap⟩ := hg'.skipGap_eq hcs.isGap_eq_false q
    exact ⟨q', ⟨q, g' ++ cs⟩, by simpa using hcomma, hgap⟩

/-! ### Steps in a row -/

section

variable {α β : Type} {f : Cursor → Except Failure (α × Cursor)} {w : List Char} {a : Answer α}

/-- A step that looks at the head of the text first. -/
theorem Answers.of_head {h : Cursor → Except Failure (α × Cursor)} (ha : Answers f w a)
    (hw : Begins w) (hf : ∀ c, c.skipGap = c → c.rest.head? = w.head? → h c = f c) :
    Answers h w a := by
  intro p rest hrest
  rw [hf _ (hw.append rest).skipGap_eq (hw.head?_append rest)]
  exact ha p rest hrest

theorem Answers.map (h : Answers f w a) (k : α → β) :
    Answers (fun c => (f c).map fun (x, d) => (k x, d)) w (a.map k) := by
  intro p rest hrest
  obtain ⟨q, hq⟩ := h p rest hrest
  refine ⟨q, ?_⟩
  simp only [hq]
  cases a <;> rfl

theorem Answers.within (h : Answers f w a) (s : Segment) :
    Answers (fun c => (f c).mapError (Failure.within s)) w (a.within s) := by
  intro p rest hrest
  obtain ⟨q, hq⟩ := h p rest hrest
  refine ⟨q, ?_⟩
  simp only [hq]
  cases a <;> rfl

/-- One step behind the other, which is only asked if the first one succeeds. -/
theorem Answers.bind {g : α → Cursor → Except Failure (β × Cursor)} {w' : List Char}
    {b : α → Answer β} (h : Answers f w a) (hw' : Delimited w')
    (hb : ∀ x, a = .ok x → Answers (g x) w' (b x)) :
    Answers (fun c => (f c).bind fun (x, d) => g x d) (w ++ w') (a.bind b) := by
  intro p rest hrest
  obtain ⟨q, hq⟩ := h p (w' ++ rest) (hw'.append hrest)
  simp only [List.append_assoc, hq]
  cases a with
  | error failure => exact ⟨q, rfl⟩
  | ok x => exact hb x rfl q rest hrest

/-- A step that takes nothing: it judges what has been read. -/
def judged (x : Except Cause α) (c : Cursor) : Except Failure (α × Cursor) :=
  match x with
  | .ok x => .ok (x, c)
  | .error cause => failed ⟨cause, c.position⟩

theorem Answers.judged (h : Answers f w a) (k : α → Except Cause β) :
    Answers (fun c => (f c).bind fun (x, d) => Json.judged (k x) d) w
      (a.bind fun x => (k x).mapError ([], ·)) := by
  intro p rest hrest
  obtain ⟨q, hq⟩ := h p rest hrest
  refine ⟨q, ?_⟩
  simp only [hq]
  rcases a with _ | x
  · rfl
  · cases hk : k x <;> simp [Except.bind, Except.mapError, Json.judged, failed, hk]

/-- A step that is asked in front of a separator. -/
theorem Answers.separated {h : Cursor → Except Failure (α × Cursor)} {fresh : Bool}
    {separator : List Char} (ha : Answers f w a) (hseparator : IsSeparator fresh separator)
    (hw : Begins w) (hf : ∀ c d, Separates fresh c d → d.rest.head? = w.head? → h c = f d) :
    Answers h (separator ++ w) a := by
  intro p rest hrest
  obtain ⟨q, hq⟩ := hseparator.separates (hw.append rest) p
  rw [List.append_assoc, hf _ _ hq (hw.head?_append rest)]
  exact ha q rest hrest

end

/-! ### Strings -/

section

variable {strict : Bool} {w : List Char}

/-- A string, from behind its opening quote on. -/
def stringTail (strict : Bool) (c : Cursor) : Except Failure (List Char × Cursor) :=
  lift (stringFrom strict c.position c.rest)

/-- One character of a string, written as `u`, in front of others. -/
theorem Answers.char {u : List Char} {y : Char} {a : Answer (List Char)}
    (hu : ∀ p cs, ∃ q, stringFrom strict p (u ++ cs) =
      (stringFrom strict q cs).map fun (value, stop) => (y :: value, stop))
    (h : Answers (stringTail strict) w a) :
    Answers (stringTail strict) (u ++ w) (a.map (y :: ·)) := by
  intro p rest hrest
  obtain ⟨q, hq⟩ := hu p (w ++ rest)
  obtain ⟨q', hq'⟩ := h q rest hrest
  refine ⟨q', ?_⟩
  simp only [stringTail, List.append_assoc, hq, lift_map] at hq' ⊢
  rw [hq']
  cases a <;> rfl

theorem stringFrom_plain {x : Char} (hquote : x ≠ '"') (hslash : x ≠ '\\')
    (hcontrol : ¬ x.toNat < 0x20) (p : Position) (cs : List Char) :
    ∃ q, stringFrom strict p ([x] ++ cs) =
      (stringFrom strict q cs).map fun (value, stop) => (x :: value, stop) :=
  ⟨p.next x, by simp [stringFrom, hslash, hcontrol]⟩

theorem escapedChar_ne {x y : Char} (h : escapedChar x = some y) : x ≠ 'u' := by
  rintro rfl
  cases h

theorem stringFrom_escape {x y : Char} (hy : escapedChar x = some y) (p : Position)
    (cs : List Char) : ∃ q, stringFrom strict p (['\\', x] ++ cs) =
      (stringFrom strict q cs).map fun (value, stop) => (y :: value, stop) := by
  refine ⟨(p.next '\\').next x, ?_⟩
  have hu := escapedChar_ne hy
  rw [List.cons_append, List.singleton_append, stringFrom, hy]
  · exact fun _ _ _ _ _ hx => (hu hx).elim
  · exact hu

theorem stringFrom_unicode {a b c d : Char} {n : Nat} (hn : hexValue a b c d = some n)
    (hlow : (strict && isLowSurrogate n) = false) (hhigh : (strict && isHighSurrogate n) = false)
    (p : Position) (cs : List Char) :
    ∃ q, stringFrom strict p (['\\', 'u', a, b, c, d] ++ cs) =
      (stringFrom strict q cs).map fun (value, stop) => (Char.ofNat n :: value, stop) :=
  ⟨_, by simp only [List.cons_append, List.nil_append, stringFrom, hn, hlow, hhigh]; rfl⟩

theorem isLowSurrogate_of_isHighSurrogate {n : Nat} (h : isHighSurrogate n = true) :
    isLowSurrogate n = false := by
  simp only [isHighSurrogate, Bool.and_eq_true, decide_eq_true_eq] at h
  simp only [isLowSurrogate, Bool.and_eq_false_iff, decide_eq_false_iff_not]
  omega

theorem stringFrom_pair {a b c d a' b' c' d' : Char} {high low : Nat}
    (hhigh : hexValue a b c d = some high) (hlow : hexValue a' b' c' d' = some low)
    (hishigh : isHighSurrogate high = true) (hislow : isLowSurrogate low = true)
    (p : Position) (cs : List Char) :
    ∃ q, stringFrom true p (['\\', 'u', a, b, c, d, '\\', 'u', a', b', c', d'] ++ cs) =
      (stringFrom true q cs).map fun (value, stop) => (surrogatePair high low :: value, stop) := by
  have hnotlow := isLowSurrogate_of_isHighSurrogate hishigh
  exact ⟨_, by simp only [List.cons_append, List.nil_append, stringFrom, hhigh, hlow, hishigh,
    hislow, hnotlow, Bool.and_false, Bool.and_true, Bool.false_eq_true, if_false, if_true]; rfl⟩

theorem answers_close : Answers (stringTail strict) ['"'] (.ok []) := by
  intro p rest _
  exact ⟨p.next '"', by simp [stringTail, stringFrom, lift]⟩

/-- A string that is only passed over is read to its end. -/
theorem IsQuoted.answers_passing (h : IsQuoted w) :
    ∃ s, Answers (stringTail false) w (.ok s) := by
  induction h with
  | close => exact ⟨[], answers_close⟩
  | plain hquote hslash hcontrol _ ih =>
    obtain ⟨s, hs⟩ := ih
    exact ⟨_, hs.char (stringFrom_plain hquote hslash hcontrol)⟩
  | escape hx _ ih =>
    obtain ⟨s, hs⟩ := ih
    exact ⟨_, hs.char (stringFrom_escape hx)⟩
  | unicode hn _ ih =>
    obtain ⟨s, hs⟩ := ih
    exact ⟨_, hs.char (stringFrom_unicode hn rfl rfl)⟩

theorem answers_loneSurrogate {a b c d : Char} {n : Nat} (hn : hexValue a b c d = some n)
    (hlow : isLowSurrogate n = true) (w : List Char) :
    Answers (stringTail true) (['\\', 'u', a, b, c, d] ++ w) (.error ([], .loneSurrogate)) := by
  intro p rest _
  simp only [stringTail, List.cons_append, List.nil_append, stringFrom, hn, hlow, Bool.and_true,
    if_true, lift, failed]
  exact ⟨_, rfl⟩

/-- A high surrogate with another code unit behind it that is not its partner. -/
theorem answers_mispaired {a b c d a' b' c' d' : Char} {high low : Nat}
    (hhigh : hexValue a b c d = some high) (hlow : hexValue a' b' c' d' = some low)
    (hishigh : isHighSurrogate high = true) (hnotlow : isLowSurrogate low = false)
    (w : List Char) :
    Answers (stringTail true)
      (['\\', 'u', a, b, c, d] ++ '\\' :: 'u' :: a' :: b' :: c' :: d' :: w)
      (.error ([], .loneSurrogate)) := by
  have hnotlow' := isLowSurrogate_of_isHighSurrogate hishigh
  intro p rest _
  simp only [stringTail, List.cons_append, List.nil_append, stringFrom, hhigh, hlow, hishigh,
    hnotlow, hnotlow', Bool.and_false, Bool.and_true, Bool.false_eq_true, if_false, if_true, lift,
    failed]
  exact ⟨_, rfl⟩

/-- Behind a high surrogate something else stands than a second escape of four digits. -/
theorem cause_pairFault {c : Cursor} {w rest : List Char} (hw : IsQuoted w)
    (hu : ∀ cs, w ≠ '\\' :: 'u' :: cs) (hc : c.rest = w ++ rest) :
    (pairFault c).cause = .unexpectedEndOfHexEscape := by
  cases hw with
  | close => simp [pairFault, hc]
  | plain _ hslash _ _ => simp [pairFault, hc, hslash]
  | escape hx _ => simp [pairFault, hc, escapedChar_ne hx]
  | unicode _ _ => exact absurd rfl (hu _)

theorem answers_unpaired {a b c d : Char} {n : Nat} (hn : hexValue a b c d = some n)
    (hhigh : isHighSurrogate n = true) (hw : IsQuoted w) (hu : ∀ cs, w ≠ '\\' :: 'u' :: cs) :
    Answers (stringTail true) (['\\', 'u', a, b, c, d] ++ w)
      (.error ([], .unexpectedEndOfHexEscape)) := by
  have hnotlow := isLowSurrogate_of_isHighSurrogate hhigh
  intro p rest _
  have hne : ∀ e f g h cs, w ++ rest ≠ '\\' :: 'u' :: e :: f :: g :: h :: cs := by
    intro e f g h cs heq
    cases hw with
    | close => simp at heq
    | plain _ hslash _ _ => exact hslash (List.head_eq_of_cons_eq heq)
    | escape hx _ => exact escapedChar_ne hx (List.cons.inj (List.cons.inj heq).2).1
    | unicode _ _ => exact hu _ rfl
  simp only [stringTail, List.cons_append, List.nil_append, stringFrom, hn, hnotlow, hhigh,
    Bool.and_false, Bool.and_true, Bool.false_eq_true, if_false, if_true]
  have hcause := cause_pairFault (c := Cursor.advanceBy
    ⟨p, '\\' :: 'u' :: a :: b :: c :: d :: (w ++ rest)⟩ 6) hw hu rfl
  exact ⟨_, by rw [← hcause]; rfl⟩

/-- A string that is read gives its characters, or the fault of its first surrogate without a
partner. -/
theorem IsQuoted.answers {w : List Char} (h : IsQuoted w) :
    ∃ a, Answers (stringTail true) w a := by
  cases h with
  | close => exact ⟨_, answers_close⟩
  | plain hquote hslash hcontrol hw =>
    obtain ⟨a, ha⟩ := hw.answers
    exact ⟨_, ha.char (stringFrom_plain hquote hslash hcontrol)⟩
  | escape hx hw =>
    obtain ⟨a, ha⟩ := hw.answers
    exact ⟨_, ha.char (stringFrom_escape hx)⟩
  | @unicode _ _ _ _ n w hn hw =>
    by_cases hlow : isLowSurrogate n = true
    · exact ⟨_, answers_loneSurrogate hn hlow _⟩
    by_cases hhigh : isHighSurrogate n = true
    · cases hw with
      | @unicode _ _ _ _ low _ hn' hw' =>
        by_cases hlow' : isLowSurrogate low = true
        · obtain ⟨a, ha⟩ := hw'.answers
          exact ⟨_, ha.char (stringFrom_pair hn hn' hhigh hlow')⟩
        · exact ⟨_, answers_mispaired hn hn' hhigh (by simpa using hlow') _⟩
      | close => exact ⟨_, answers_unpaired hn hhigh .close (by simp)⟩
      | plain hquote hslash hcontrol hw' =>
        exact ⟨_, answers_unpaired hn hhigh (.plain hquote hslash hcontrol hw') (by simp [hslash])⟩
      | escape hx hw' =>
        exact ⟨_, answers_unpaired hn hhigh (.escape hx hw') (by simp [escapedChar_ne hx])⟩
    · obtain ⟨a, ha⟩ := hw.answers
      exact ⟨_, ha.char (stringFrom_unicode hn (by simpa using hlow) (by simpa using hhigh))⟩
termination_by w.length

theorem Answers.string {a : Answer (List Char)} (h : Answers (stringTail strict) w a) :
    Answers (fun c => lift (stringAt strict c)) ('"' :: w) a :=
  fun p rest hrest => h (p.next '"') rest hrest

end

end FieldRules.Json
