import FieldRules.Proofs.Json.Records

/-!
# Written values

The texts that may be written for a value. A character of a string may stand for itself or be
escaped in any way that JSON knows; gaps may stand between any tokens; and a member of an object may
be optional. `Reader.Reads` says that a reader makes the value of each of its texts.
-/

namespace FieldRules.Json

/-! ### Texts of strings -/

/-- A hexadecimal digit, in either case. -/
def IsHexDigit (n : Nat) (c : Char) : Prop :=
  n < 16 ∧ (c = n.digitChar ∨ c = n.digitChar.toUpper)

instance (n : Nat) (c : Char) : Decidable (IsHexDigit n c) :=
  inferInstanceAs (Decidable (_ ∧ _))

/-- Four hexadecimal digits, the most significant one first. -/
def HexText (n : Nat) (w : List Char) : Prop :=
  ∃ a b c d, IsHexDigit (n / 4096) a ∧ IsHexDigit (n / 256 % 16) b ∧ IsHexDigit (n / 16 % 16) c ∧
    IsHexDigit (n % 16) d ∧ w = [a, b, c, d]

/-- The characters with an escape of one letter. -/
def letterEscapes : List (Char × Char) :=
  [('"', '"'), ('\\', '\\'), ('/', '/'), ('\x08', 'b'), ('\x0C', 'f'), ('\n', 'n'), ('\r', 'r'),
    ('\t', 't')]

/-- How a character may be written in a string. -/
inductive CharText : Char → List Char → Prop where
  /-- As itself. -/
  | plain {c : Char} (hquote : c ≠ '"') (hslash : c ≠ '\\') (hcontrol : 0x20 ≤ c.toNat) :
      CharText c [c]
  /-- With an escape of one letter. -/
  | letter {c x : Char} (h : (c, x) ∈ letterEscapes) : CharText c ['\\', x]
  /-- With the hexadecimal digits of its code point. -/
  | unicode {c : Char} {ds : List Char} (h : HexText c.toNat ds) : CharText c ('\\' :: 'u' :: ds)
  /-- With a surrogate pair, if it lies beyond the basic plane. -/
  | pair {c : Char} {ds ds' : List Char} (hc : 0x10000 ≤ c.toNat)
      (hhigh : HexText (0xD800 + (c.toNat - 0x10000) / 0x400) ds)
      (hlow : HexText (0xDC00 + (c.toNat - 0x10000) % 0x400) ds') :
      CharText c ('\\' :: 'u' :: ds ++ '\\' :: 'u' :: ds')

/-- The characters of a string one after the other, and the closing quote. -/
inductive QuotedText : List Char → List Char → Prop where
  /-- The closing quote. -/
  | close : QuotedText [] ['"']
  /-- One character, and the others. -/
  | char {c : Char} {cs u w : List Char} (hc : CharText c u) (h : QuotedText cs w) :
      QuotedText (c :: cs) (u ++ w)

/-- The text of a string, with its quotes. -/
def StringText (s : String) (w : List Char) : Prop :=
  ∃ tail, QuotedText s.toList tail ∧ w = '"' :: tail

theorem IsHexDigit.hexDigit_eq {n : Nat} {c : Char} (h : IsHexDigit n c) :
    hexDigit c = some n := by
  have hdigits : ∀ n < 16,
      hexDigit n.digitChar = some n ∧ hexDigit n.digitChar.toUpper = some n := by decide
  obtain ⟨hn, rfl | rfl⟩ := h
  · exact (hdigits n hn).1
  · exact (hdigits n hn).2

theorem HexText.hexValue_eq {n : Nat} {w : List Char} (h : HexText n w) :
    ∃ a b c d, w = [a, b, c, d] ∧ hexValue a b c d = some n := by
  obtain ⟨a, b, c, d, ha, hb, hc, hd, rfl⟩ := h
  have hn := ha.1
  refine ⟨a, b, c, d, rfl, ?_⟩
  simp only [hexValue, ha.hexDigit_eq, hb.hexDigit_eq, hc.hexDigit_eq, hd.hexDigit_eq, bind,
    Option.bind, pure, Option.some.injEq]
  omega

theorem escapedChar_of_letterEscapes {c x : Char} (h : (c, x) ∈ letterEscapes) :
    escapedChar x = some c := by
  have hall : ∀ p ∈ letterEscapes, escapedChar p.2 = some p.1 := by decide
  exact hall _ h

/-- A character is none of the halves of a pair. -/
theorem isSurrogate_toNat (c : Char) :
    isLowSurrogate c.toNat = false ∧ isHighSurrogate c.toNat = false := by
  have hvalid : c.toNat < 0xD800 ∨ 0xDFFF < c.toNat ∧ c.toNat < 0x110000 := c.valid
  simp only [isLowSurrogate, isHighSurrogate, Bool.and_eq_false_iff, decide_eq_false_iff_not]
  omega

theorem CharText.answers {c : Char} {u w : List Char} (h : CharText c u) {a : Answer (List Char)}
    (ha : Answers (stringTail true) w a) :
    Answers (stringTail true) (u ++ w) (a.map (c :: ·)) := by
  cases h with
  | plain hquote hslash hcontrol =>
    exact ha.char (stringFrom_plain hquote hslash (by omega))
  | letter hx => exact ha.char (stringFrom_escape (escapedChar_of_letterEscapes hx))
  | unicode hds =>
    obtain ⟨a, b, c', d, rfl, hn⟩ := hds.hexValue_eq
    have hchar := ha.char (stringFrom_unicode hn (by simp [(isSurrogate_toNat c).1])
      (by simp [(isSurrogate_toNat c).2]))
    simpa using hchar
  | pair hc hhigh hlow =>
    obtain ⟨a, b, c', d, rfl, hn⟩ := hhigh.hexValue_eq
    obtain ⟨e, f, g, i, rfl, hm⟩ := hlow.hexValue_eq
    have hvalid : c.toNat < 0xD800 ∨ 0xDFFF < c.toNat ∧ c.toNat < 0x110000 := c.valid
    have hpair : surrogatePair (0xD800 + (c.toNat - 0x10000) / 0x400)
        (0xDC00 + (c.toNat - 0x10000) % 0x400) = c := by
      rw [surrogatePair, ← Char.ofNat_toNat c]
      congr 1
      simp only [Char.ofNat_toNat]
      omega
    have hchar := ha.char (stringFrom_pair hn hm
      (by simp only [isHighSurrogate, Bool.and_eq_true, decide_eq_true_eq]; omega)
      (by simp only [isLowSurrogate, Bool.and_eq_true, decide_eq_true_eq]; omega))
    rw [hpair] at hchar
    exact hchar

theorem QuotedText.answers {s w : List Char} (h : QuotedText s w) :
    Answers (stringTail true) w (.ok s) := by
  induction h with
  | close => exact answers_close
  | char hc _ ih => exact hc.answers ih

/-! ### Texts of containers -/

/-- The elements of an array, up to the closing bracket. -/
inductive ElementsText {α : Type} (text : α → List Char → Prop) :
    Bool → List α → List Char → Prop where
  /-- The closing bracket. -/
  | close {fresh : Bool} {g : List Char} (hg : IsGap g) :
      ElementsText text fresh [] (g ++ [']'])
  /-- One element, and the others. -/
  | element {fresh : Bool} {separator w cs : List Char} {x : α} {xs : List α}
      (hseparator : IsSeparator fresh separator) (hx : text x w)
      (h : ElementsText text false xs cs) :
      ElementsText text fresh (x :: xs) (separator ++ w ++ cs)

/-- The text of an array. -/
def ArrayText {α : Type} (text : α → List Char → Prop) (xs : List α) (w : List Char) : Prop :=
  ∃ cs, ElementsText text true xs cs ∧ w = '[' :: cs

/-- A member of an object. -/
structure Member where
  /-- The key. -/
  key : String
  /-- The texts that may be written for the value. -/
  text : List Char → Prop
  /-- Whether the member may be left out. -/
  optional : Prop := False

/-- The members of an object, up to the closing brace. -/
inductive MembersText : Bool → List Member → List Char → Prop where
  /-- The closing brace. -/
  | close {fresh : Bool} {g : List Char} (hg : IsGap g) : MembersText fresh [] (g ++ ['\x7d'])
  /-- One member, and the others. -/
  | member {fresh : Bool} {separator key g g' w cs : List Char} {m : Member} {ms : List Member}
      (hseparator : IsSeparator fresh separator) (hkey : StringText m.key key) (hg : IsGap g)
      (hg' : IsGap g') (hw : m.text w) (h : MembersText false ms cs) :
      MembersText fresh (m :: ms) (separator ++ (key ++ (g ++ ':' :: (g' ++ w) ++ cs)))
  /-- A member that is left out. -/
  | without {fresh : Bool} {m : Member} {ms : List Member} {cs : List Char} (hm : m.optional)
      (h : MembersText fresh ms cs) : MembersText fresh (m :: ms) cs

/-- The text of an object. -/
def ObjectText (ms : List Member) (w : List Char) : Prop :=
  ∃ cs, MembersText true ms cs ∧ w = '\x7b' :: cs

/-! ### There is a text for every value -/

theorem exists_hexDigit {n : Nat} (hn : n < 16) : ∃ c, IsHexDigit n c :=
  ⟨n.digitChar, hn, .inl rfl⟩

theorem exists_hexText {n : Nat} (hn : n < 0x10000) : ∃ w, HexText n w := by
  obtain ⟨a, ha⟩ := exists_hexDigit (n := n / 4096) (by omega)
  obtain ⟨b, hb⟩ := exists_hexDigit (n := n / 256 % 16) (by omega)
  obtain ⟨c, hc⟩ := exists_hexDigit (n := n / 16 % 16) (by omega)
  obtain ⟨d, hd⟩ := exists_hexDigit (n := n % 16) (by omega)
  exact ⟨_, a, b, c, d, ha, hb, hc, hd, rfl⟩

/-- A character that need not be escaped. -/
def standsForItself (c : Char) : Bool :=
  c != '"' && c != '\\' && decide (0x20 ≤ c.toNat)

theorem charText_self {c : Char} (h : standsForItself c = true) : CharText c [c] := by
  simp only [standsForItself, Bool.and_eq_true, bne_iff_ne, decide_eq_true_eq] at h
  exact .plain h.1.1 h.1.2 h.2

theorem quotedText_self {cs : List Char} (h : cs.all standsForItself = true) :
    QuotedText cs (cs ++ ['"']) := by
  induction cs with
  | nil => exact .close
  | cons c cs ih =>
    rw [List.all_cons, Bool.and_eq_true] at h
    exact .char (u := [c]) (charText_self h.1) (ih h.2)

theorem stringText_self {s : String} (h : s.toList.all standsForItself = true) :
    StringText s ('"' :: (s.toList ++ ['"'])) :=
  ⟨_, quotedText_self h, rfl⟩

/-- Only quotes, backslashes and control characters have to be escaped. -/
theorem exists_charText (c : Char) : ∃ u, CharText c u := by
  by_cases hself : standsForItself c = true
  · exact ⟨[c], charText_self hself⟩
  · have hc : c.toNat < 0x10000 := by
      by_contra hlarge
      refine hself ?_
      simp only [standsForItself, Bool.and_eq_true, bne_iff_ne, decide_eq_true_eq]
      refine ⟨⟨?_, ?_⟩, by omega⟩ <;> rintro rfl <;> exact hlarge (by decide)
    obtain ⟨ds, hds⟩ := exists_hexText hc
    exact ⟨_, .unicode hds⟩

theorem exists_stringText (s : String) : ∃ w, StringText s w := by
  suffices ∀ cs, ∃ tail, QuotedText cs tail from
    (this s.toList).elim fun tail htail => ⟨_, tail, htail, rfl⟩
  intro cs
  induction cs with
  | nil => exact ⟨_, .close⟩
  | cons c cs ih =>
    obtain ⟨tail, htail⟩ := ih
    obtain ⟨u, hu⟩ := exists_charText c
    exact ⟨_, .char hu htail⟩

theorem exists_separator (fresh : Bool) : ∃ separator, IsSeparator fresh separator := by
  cases fresh with
  | true => exact ⟨[], isGap_nil⟩
  | false => exact ⟨_, [], [], isGap_nil, isGap_nil, rfl⟩

theorem exists_arrayText {α : Type} {text : α → List Char → Prop} {xs : List α}
    (h : ∀ x ∈ xs, ∃ w, text x w) : ∃ w, ArrayText text xs w := by
  suffices ∀ fresh, ∃ cs, ElementsText text fresh xs cs from
    (this true).elim fun cs hcs => ⟨_, cs, hcs, rfl⟩
  induction xs with
  | nil => exact fun fresh => ⟨_, .close isGap_nil⟩
  | cons x xs ih =>
    intro fresh
    obtain ⟨⟨w, hw⟩, htail⟩ := List.forall_mem_cons.1 h
    obtain ⟨cs, hcs⟩ := ih htail false
    obtain ⟨separator, hseparator⟩ := exists_separator fresh
    exact ⟨_, .element hseparator hw hcs⟩

theorem exists_objectText {ms : List Member} (h : ∀ m ∈ ms, ∃ w, m.text w) :
    ∃ w, ObjectText ms w := by
  suffices ∀ fresh, ∃ cs, MembersText fresh ms cs from
    (this true).elim fun cs hcs => ⟨_, cs, hcs, rfl⟩
  induction ms with
  | nil => exact fun fresh => ⟨_, .close isGap_nil⟩
  | cons m ms ih =>
    intro fresh
    obtain ⟨⟨w, hw⟩, htail⟩ := List.forall_mem_cons.1 h
    obtain ⟨cs, hcs⟩ := ih htail false
    obtain ⟨key, hkey⟩ := exists_stringText m.key
    obtain ⟨separator, hseparator⟩ := exists_separator fresh
    exact ⟨_, .member hseparator hkey isGap_nil isGap_nil hw hcs⟩

/-! ### Reading scalars -/

/-- A reader makes a value of each of its texts, with any gap in front of it. -/
def Reader.Reads {α : Type} (r : Reader α) (text : List Char → Prop) (x : α) : Prop :=
  ∀ ⦃w : List Char⦄, text w → Begins w ∧ ∀ g, IsGap g → Answers r.read (g ++ w) (.ok x)

section

variable {α β : Type} {r : Reader α} {text : List Char → Prop} {x : α}

theorem Reader.Reads.map (h : r.Reads text x) (f : α → β) : (r.map f).Reads text (f x) :=
  fun _ hw => ⟨(h hw).1, fun g hg => Reader.map_answers ((h hw).2 g hg) f⟩

theorem readOptional_reads (h : r.Reads text x) (hhead : ∀ w, text w → w.head? ≠ some 'n') :
    (readOptional r).Reads text (some x) := by
  intro w hw
  obtain ⟨hbegins, ha⟩ := h hw
  exact ⟨hbegins, fun g hg => readOptional_startsAtToken.answers hbegins hg
    (readOptional_answers hbegins (hhead w hw) (ha [] isGap_nil))⟩

end

theorem readString_reads (s : String) : readString.Reads (StringText s) s := by
  rintro w ⟨tail, htail, rfl⟩
  have hread := readString_answers htail.answers
  rw [Except.map, String.ofList_toList] at hread
  exact ⟨begins_cons.2 rfl, fun g hg =>
    readString_startsAtToken.answers (begins_cons.2 rfl) hg hread⟩

/-! ### Reading natural numbers -/

theorem head?_digits {n : Nat} (h : (Numeral.digits n).head? = some '0') : n = 0 := by
  unfold Numeral.digits at h
  induction n using Nat.strongRecOn with
  | ind n ih =>
    by_cases hn : n < 10
    · rw [Nat.toDigits_of_lt_base hn] at h
      have hdigit : ∀ k < 10, k.digitChar = '0' → k = 0 := by decide
      exact hdigit n hn (by simpa using h)
    · rw [Nat.toDigits_of_base_le (by decide) (by omega), List.head?_append,
        List.head?_eq_some_head Nat.toDigits_ne_nil, Option.some_or,
        ← List.head?_eq_some_head] at h
      have := ih (n / 10) (by omega) h
      omega

theorem digits_isDigits (n : Nat) : IsDigits (Numeral.digits n) :=
  ⟨Numeral.digits_ne_nil n, fun _ => Numeral.isDigit_of_mem_digits⟩

theorem digits_eq_zero {n : Nat} (h : (Numeral.digits n).head? = some '0') :
    Numeral.digits n = ['0'] := by
  rw [head?_digits h]
  rfl

theorem digits_isNumber (n : Nat) : IsNumber (Numeral.digits n) := by
  have hnone : IsFraction [] := .inl rfl
  have hnone' : IsExponent [] := .inl rfl
  simpa using IsNumber.mk (.inl rfl) (digits_isDigits n) digits_eq_zero hnone hnone'

theorem le_ofDigitChars (ds : List Char) (n : Nat) : n ≤ Nat.ofDigitChars 10 ds n := by
  rw [Nat.ofDigitChars_eq_ofDigitChars_zero]
  exact Nat.le_add_right_of_le (Nat.le_mul_of_pos_left n (Nat.pow_pos (by decide)))

/-- Digits of a number of 64 bits are all added. -/
theorem accumulate_eq (ds : List Char) (n count : Nat)
    (h : Nat.ofDigitChars 10 ds n ≤ Numeral.maxSize) :
    accumulate n count ds = (Nat.ofDigitChars 10 ds n, count + ds.length) := by
  induction ds generalizing n count with
  | nil => rfl
  | cons d ds ih =>
    rw [Nat.ofDigitChars_cons] at h ⊢
    have hnext := Nat.le_trans (le_ofDigitChars ds _) h
    simp only [accumulate, if_pos hnext]
    rw [ih _ _ h, List.length_cons]
    congr 1
    omega

theorem readNumber_digits {n : Nat} (hn : n ≤ Numeral.maxSize) :
    Answers (fun c => lift (readNumber c)) (Numeral.digits n) (.ok (.integer n)) := by
  intro p rest hrest
  obtain ⟨q, hwhole⟩ := wholeAt_append true (digits_isDigits n) digits_eq_zero
    hrest.isDigit_eq_false p
  have hnumber : numberAt true ⟨p, Numeral.digits n ++ rest⟩ =
      .ok (⟨false, Numeral.digits n, none, none⟩, ⟨q, rest⟩) :=
    numberAt_eq_ok_iff.2
      ⟨_, minusAt_eq_iff.2 (.inr ⟨rfl, (digits_isDigits n).head?_ne rfl rest, rfl⟩), _, hwhole, _,
        fractionAt_eq_ok_iff.2 (.inr ⟨rfl, hrest.head?_ne rfl, rfl⟩),
        exponentAt_eq_ok_iff.2 (.inr ⟨rfl, hrest.head?_ne rfl, hrest.head?_ne rfl, rfl⟩)⟩
  have hdigits : Nat.ofDigitChars 10 (Numeral.digits n) 0 = n :=
    Nat.ofDigitChars_toDigits (by decide) (by decide)
  have hvalue : NumberText.value ⟨false, Numeral.digits n, none, none⟩ q = .ok (.integer n) := by
    simp [NumberText.value, accumulate_eq _ _ _ (hdigits.symm ▸ hn), hdigits]
  exact ⟨q, by simp [readNumber, hnumber, hvalue, bind, Except.bind, pure, Except.pure, lift]⟩

theorem readWord_reads {n : Nat} (hn : n < 1 <<< 32) :
    readWord.Reads (· = Numeral.digits n) n := by
  rintro w rfl
  have hnumber := digits_isNumber n
  have hread := readWord_answers hnumber (readNumber_digits (by
    refine Nat.le_trans (Nat.le_of_lt hn) ?_
    decide))
  have hword : wordOf (.integer n) = .ok n := if_pos ⟨Int.natCast_nonneg n, hn⟩
  simp only [Except.bind, hword, Except.mapError] at hread
  exact ⟨(IsScalar.number hnumber).begins, fun g hg =>
    readWord_startsAtToken.answers (IsScalar.number hnumber).begins hg hread⟩

/-! ### Reading containers -/

section

variable {α β : Type} {r : Reader α}

theorem ElementsText.delimited {text : β → List Char → Prop} {xs : List β} {w : List Char}
    (h : ElementsText text false xs w) : Delimited w := by
  cases h with
  | close hg => exact (delimited_of_isGap hg).append (delimited_cons.2 rfl)
  | element hseparator _ _ => simpa using hseparator.delimited _

theorem readElements_answers {text : β → List Char → Prop} {f : β → α} {fresh : Bool}
    {xs : List β} {w : List Char} (h : ElementsText text fresh xs w)
    (hr : ∀ x ∈ xs, r.Reads (text x) (f x)) :
    ∀ i, (i == 0) = fresh → Answers (readElements r i) w (.ok (xs.map f)) := by
  induction h with
  | close hg => exact fun i _ => answers_noElements hg
  | element hseparator hx hcs ih =>
    rintro i rfl
    obtain ⟨hhead, htail⟩ := List.forall_mem_cons.1 hr
    obtain ⟨hbegins, ha⟩ := hhead hx
    exact (ha [] isGap_nil).element hseparator hbegins hcs.delimited (ih htail (i + 1) rfl)

theorem readList_reads {text : β → List Char → Prop} {f : β → α} {xs : List β}
    (hr : ∀ x ∈ xs, r.Reads (text x) (f x)) :
    (readList r).Reads (ArrayText text xs) (xs.map f) := by
  rintro w ⟨cs, hcs, rfl⟩
  exact ⟨begins_cons.2 rfl, fun g hg => readList_startsAtToken.answers (begins_cons.2 rfl) hg
    (readList_answers (readElements_answers hcs hr 0 rfl))⟩

end

section

variable {δ α : Type} {form : RecordForm δ α}

/-- The members fill a draft into a finished record, whichever of the optional ones are given. -/
def Fills (form : RecordForm δ α) (x : α) : List Member → δ → Prop
  | [], draft => form.finish draft = .ok x
  | m :: ms, draft =>
    (∃ slot filled, form.slots.find? (·.key == m.key) = some slot ∧
      slot.isFilled draft = false ∧ (slot.fill draft).Reads m.text filled ∧
      Fills form x ms filled) ∧
    (m.optional → Fills form x ms draft)

theorem MembersText.delimited {ms : List Member} {w : List Char} (h : MembersText false ms w) :
    Delimited w := by
  generalize hfresh : false = fresh at h
  induction h with
  | close hg => exact (delimited_of_isGap hg).append (delimited_cons.2 rfl)
  | member hseparator _ _ _ _ _ _ =>
    subst hfresh
    exact hseparator.delimited _
  | without _ _ ih => exact ih hfresh

theorem readMembers_answers {fresh : Bool} {ms : List Member} {w : List Char}
    (h : MembersText fresh ms w) {x : α} {draft : δ} (hfills : Fills form x ms draft) :
    ∃ filled, Answers (readMembers form fresh draft) w (.ok filled) ∧
      form.finish filled = .ok x := by
  induction h generalizing draft with
  | close hg => exact ⟨draft, answers_noMembers hg, hfills⟩
  | without hm _ ih => exact ih (hfills.2 hm)
  | @member fresh separator key g g' w cs m ms hseparator hkey hg hg' hw hcs ih =>
    obtain ⟨slot, filled, hslot, hfilled, hread, hrest⟩ := hfills.1
    obtain ⟨tail, htail, rfl⟩ := hkey
    obtain ⟨last, hlast, hfinish⟩ := ih hrest
    refine ⟨last, ?_, hfinish⟩
    refine Answers.slot (b := fun _ => .ok last) htail.answers hslot hfilled hseparator hg
      ((hread hw).2 g' hg') hcs.delimited ?_
    rintro _ ⟨⟩
    exact hlast

theorem readRecord_reads {ms : List Member} {x : α} (hfills : Fills form x ms form.blank) :
    (readRecord form).Reads (ObjectText ms) x := by
  rintro w ⟨cs, hcs, rfl⟩
  obtain ⟨filled, hfilled, hfinish⟩ := readMembers_answers hcs hfills
  have hread := readRecord_answers hfilled
  simp only [Except.bind, RecordForm.finished, hfinish, Except.mapError] at hread
  exact ⟨begins_cons.2 rfl, fun g hg =>
    readRecord_startsAtToken.answers (begins_cons.2 rfl) hg hread⟩

end

end FieldRules.Json
