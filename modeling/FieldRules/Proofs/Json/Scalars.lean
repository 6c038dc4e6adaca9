import FieldRules.Proofs.Json.Answers

/-!
# Answers to scalars

A number, a word or a string in front of a delimiter is read to its end, and what is made of it does
not depend on the delimiter. The same holds where something else should stand: the value is found to
be of the wrong kind, or to have a fault of its own.
-/

namespace FieldRules.Json

open Relation (Comp)

/-! ### Numbers -/

section

variable {cs : List Char}

theorem minusAt_append {minus : List Char} (hminus : minus = [] ∨ minus = ['-'])
    (hcs : cs.head? ≠ some '-') (p : Position) :
    ∃ q, minusAt ⟨p, minus ++ cs⟩ = (decide (minus = ['-']), ⟨q, cs⟩) := by
  rcases hminus with rfl | rfl
  · exact ⟨p, minusAt_eq_iff.2 (.inr ⟨rfl, hcs, rfl⟩)⟩
  · exact ⟨_, minusAt_eq_iff.2 (.inl ⟨rfl, rfl, rfl⟩)⟩

theorem wholeAt_append (strict : Bool) {whole : List Char} (hwhole : IsDigits whole)
    (hzero : whole.head? = some '0' → whole = ['0'])
    (hcs : ∀ x, cs.head? = some x → x.isDigit = false) (p : Position) :
    ∃ q, wholeAt strict ⟨p, whole ++ cs⟩ = .ok (whole, ⟨q, cs⟩) := by
  obtain ⟨x, ds, rfl⟩ := List.exists_cons_of_ne_nil hwhole.1
  have htake := takeDigits_append p hwhole.2 hcs
  by_cases hx : x = '0'
  · obtain ⟨rfl, rfl⟩ := List.cons.inj (hzero (by rw [hx]; rfl))
    have hany : (cs.head?.any Char.isDigit) = false := by
      cases hhead : cs.head? with
      | none => rfl
      | some y => exact hcs y hhead
    exact ⟨_, by simp [wholeAt, hany, Cursor.passed]; rfl⟩
  · exact ⟨_, wholeAt_of_takeDigits hx htake⟩

theorem IsFraction.fractionAt_append {fraction : List Char} (h : IsFraction fraction) :
    ∃ digits, ∀ (strict : Bool) p cs, (∀ x, cs.head? = some x → x.isDigit = false) →
      cs.head? ≠ some '.' → ∃ q, fractionAt strict ⟨p, fraction ++ cs⟩ = .ok (digits, ⟨q, cs⟩) := by
  rcases h with rfl | ⟨ds, hds, rfl⟩
  · exact ⟨none, fun strict p cs _ hpoint =>
      ⟨p, fractionAt_eq_ok_iff.2 (.inr ⟨rfl, hpoint, rfl⟩)⟩⟩
  · refine ⟨some ds, fun strict p cs hdigit _ => ?_⟩
    have htake := takeDigits_append ⟨p.line, p.column + 1⟩ hds.2 hdigit
    exact ⟨_, fractionAt_eq_ok_iff.2 (.inl ⟨ds, ⟨_, ⟨rfl, rfl⟩, htake⟩, hds.1, rfl⟩)⟩

theorem signAt_append {sign : List Char} (hsign : sign = [] ∨ sign = ['+'] ∨ sign = ['-'])
    (hplus : cs.head? ≠ some '+') (hminus : cs.head? ≠ some '-') (p : Position) :
    ∃ q, signAt ⟨p, sign ++ cs⟩ = (decide (sign = ['-']), ⟨q, cs⟩) := by
  rcases hsign with rfl | rfl | rfl
  · exact ⟨p, signAt_eq_iff.2 (.inr (.inr ⟨rfl, hplus, hminus, rfl⟩))⟩
  · exact ⟨_, signAt_eq_iff.2 (.inl ⟨rfl, rfl, rfl⟩)⟩
  · exact ⟨_, signAt_eq_iff.2 (.inr (.inl ⟨rfl, rfl, rfl⟩))⟩

/-- Digits begin with a digit. -/
theorem IsDigits.head?_ne {ds : List Char} (h : IsDigits ds) {x : Char} (hx : x.isDigit = false)
    (cs : List Char) : (ds ++ cs).head? ≠ some x := by
  obtain ⟨y, ys, rfl⟩ := List.exists_cons_of_ne_nil h.1
  rintro ⟨⟩
  cases (h.2 x (by simp)).symm.trans hx

theorem IsExponent.exponentAt_append {exponent : List Char} (h : IsExponent exponent) :
    ∃ digits, ∀ (strict : Bool) p cs, (∀ x, cs.head? = some x → x.isDigit = false) →
      cs.head? ≠ some 'e' → cs.head? ≠ some 'E' →
      ∃ q, exponentAt strict ⟨p, exponent ++ cs⟩ = .ok (digits, ⟨q, cs⟩) := by
  rcases h with rfl | ⟨mark, sign, ds, hmark, hsign, hds, rfl⟩
  · exact ⟨none, fun strict p cs _ he hE =>
      ⟨p, exponentAt_eq_ok_iff.2 (.inr ⟨rfl, he, hE, rfl⟩)⟩⟩
  · refine ⟨some (decide (sign = ['-']), ds), fun strict p cs hdigit _ _ => ?_⟩
    obtain ⟨q, hq⟩ := signAt_append hsign (hds.head?_ne (x := '+') rfl cs)
      (hds.head?_ne (x := '-') rfl cs) ⟨p.line, p.column + 1⟩
    have htake := takeDigits_append q hds.2 hdigit
    refine ⟨_, exponentAt_eq_ok_iff.2
      (.inl ⟨mark, _, ds, hmark, ⟨_, ⟨rfl, rfl⟩, _, ?_, htake⟩, hds.1, rfl⟩)⟩
    simpa [Cursor.passed] using hq

/-- A number in front of a delimiter is read to its end. -/
theorem IsNumber.numberAt_append {w : List Char} (h : IsNumber w) :
    ∃ t, ∀ (strict : Bool) p rest, Delimited rest →
      ∃ q, numberAt strict ⟨p, w ++ rest⟩ = .ok (t, ⟨q, rest⟩) := by
  obtain @⟨minus, whole, fraction, exponent, hminus, hwhole, hzero, hfraction, hexponent⟩ := h
  obtain ⟨places, hplaces⟩ := hfraction.fractionAt_append
  obtain ⟨power, hpower⟩ := hexponent.exponentAt_append
  refine ⟨⟨decide (minus = ['-']), whole, places, power⟩, fun strict p rest hrest => ?_⟩
  have hrest' := hrest.isDigit_eq_false
  -- what may come first behind the parts
  have hexponent' : ∀ x, (exponent ++ rest).head? = some x → x.isDigit = false ∧ x ≠ '.' := by
    rcases hexponent with rfl | ⟨mark, sign, ds, hmark, -, -, rfl⟩
    · intro x hx
      exact ⟨hrest' x hx, fun hpoint => hrest.head?_ne rfl (hpoint ▸ hx)⟩
    · rintro x ⟨⟩
      rcases hmark with rfl | rfl <;> decide
  have hfraction' : ∀ x, (fraction ++ (exponent ++ rest)).head? = some x → x.isDigit = false := by
    rcases hfraction with rfl | ⟨ds, -, rfl⟩
    · exact fun x hx => (hexponent' x hx).1
    · rintro x ⟨⟩
      rfl
  obtain ⟨q₁, h₁⟩ := minusAt_append hminus
    (hwhole.head?_ne rfl (fraction ++ (exponent ++ rest))) p
  obtain ⟨q₂, h₂⟩ := wholeAt_append strict hwhole hzero hfraction' q₁
  obtain ⟨q₃, h₃⟩ := hplaces strict q₂ (exponent ++ rest) (fun x hx => (hexponent' x hx).1)
    (fun hx => (hexponent' _ hx).2 rfl)
  obtain ⟨q₄, h₄⟩ := hpower strict q₃ rest hrest' (hrest.head?_ne rfl) (hrest.head?_ne rfl)
  refine ⟨q₄, numberAt_eq_ok_iff.2 ⟨_, ?_, _, h₂, _, h₃, h₄⟩⟩
  simpa using h₁

end

/-- Where a number ends matters for the place of a fault, and not for its value. -/
theorem NumberText.value_congr (t : NumberText) (stop stop' : Position) :
    (t.value stop).mapError Fault.cause = (t.value stop').mapError Fault.cause := by
  unfold NumberText.value
  rcases accumulate 0 0 t.whole with ⟨leading, taken⟩
  dsimp only
  rcases accumulate leading 0 (t.fraction.getD []) with ⟨digits, places⟩
  -- only the cases in which the number is too large look at the place
  split
  · split
    · split <;> rfl
    · generalize Double.scaled digits _ = x
      cases x <;> rfl
  · split
    · repeat' split
      all_goals rfl
    · generalize Double.scaled digits _ = x
      cases x <;> rfl

/-- The value of a number, read as any value. -/
theorem IsNumber.answers {w : List Char} (h : IsNumber w) :
    ∃ a, Answers (fun c => lift (readNumber c)) w a := by
  obtain ⟨t, ht⟩ := h.numberAt_append
  refine ⟨(t.value ⟨0, 0⟩).mapError fun fault => ([], fault.cause), fun p rest hrest => ?_⟩
  obtain ⟨q, hq⟩ := ht true p rest hrest
  have hcongr := t.value_congr q ⟨0, 0⟩
  simp only [readNumber, hq, bind, Except.bind]
  cases hvalue : t.value q with
  | error fault =>
    cases hvalue' : t.value ⟨0, 0⟩ with
    | ok n => simp [hvalue, hvalue', Except.mapError] at hcongr
    | error fault' =>
      have hcause : fault.cause = fault'.cause := by
        simpa [hvalue, hvalue', Except.mapError] using hcongr
      exact ⟨fault.position, by simp [lift, failed, Except.mapError, ← hcause]⟩
  | ok n =>
    cases hvalue' : t.value ⟨0, 0⟩ with
    | error fault => simp [hvalue, hvalue', Except.mapError] at hcongr
    | ok n' =>
      have hn : n = n' := by simpa [hvalue, hvalue', Except.mapError] using hcongr
      exact ⟨q, by simp [lift, pure, Except.pure, Except.mapError, hn]⟩

/-! ### Words -/

theorem wordFrom_append (p : Position) (w rest : List Char) :
    ∃ q, wordFrom p w (w ++ rest) = .ok ⟨q, rest⟩ := by
  induction w generalizing p with
  | nil => exact ⟨p, rfl⟩
  | cons x w ih =>
    obtain ⟨q, hq⟩ := ih (p.next x)
    exact ⟨q, by simpa [wordFrom] using hq⟩

theorem answers_word {α : Type} (word : String) (x : α) :
    Answers (fun c => lift ((wordAt word c).map (x, ·))) word.toList (.ok x) := by
  intro p rest _
  obtain ⟨q, hq⟩ := wordFrom_append p word.toList rest
  exact ⟨q, by simp [wordAt, hq, Except.map, lift]⟩

/-! ### Heads of values -/

theorem IsScalar.begins {w : List Char} (h : IsScalar w) : Begins w := by
  cases h with
  | @word w hw =>
    simp only [List.mem_cons, List.not_mem_nil, or_false] at hw
    rcases hw with rfl | rfl | rfl <;> exact ⟨_, rfl, rfl⟩
  | number h =>
    obtain ⟨x, hx, hminus | hdigit⟩ := h.head
    · exact ⟨x, hx, by rw [hminus]; rfl⟩
    · exact ⟨x, hx, isDelimiter_of_isDigit hdigit⟩
  | string _ => exact begins_cons.2 rfl

theorem IsContainer.begins {w : List Char} (h : IsContainer w) : Begins w := by
  obtain ⟨frame, members, -, rfl⟩ := h
  cases frame <;> exact begins_cons.2 rfl

theorem IsValue.begins {w : List Char} (h : IsValue w) : Begins w :=
  h.elim IsScalar.begins IsContainer.begins

/-! ### Values of the wrong kind -/

section

variable {α : Type} {expected : String} {v : List Char}

theorem Answers.unexpected {f : Cursor → Except Fault (Found × Cursor)} {a : Answer Found}
    (h : Answers (fun c => lift (f c)) v a)
    (hf : ∀ p rest, foundAt ⟨p, v ++ rest⟩ = f ⟨p, v ++ rest⟩) :
    ∃ cause, Answers (Json.unexpected expected : Cursor → Except Failure (α × Cursor)) v
      (.error ([], cause)) := by
  rcases a with ⟨path, cause⟩ | found
  · refine ⟨cause, fun p rest hrest => ?_⟩
    obtain ⟨q, hq⟩ := h p rest hrest
    cases hread : f ⟨p, v ++ rest⟩ with
    | ok y => simp [hread, lift] at hq
    | error fault =>
      simp only [hread, lift, failed, Answer.at, Except.error.injEq, Failure.mk.injEq] at hq
      exact ⟨q, by simp [Json.unexpected, hf, hread, hq.2, failed]⟩
  · refine ⟨.invalidType found expected, fun p rest hrest => ?_⟩
    obtain ⟨q, hq⟩ := h p rest hrest
    exact ⟨q, by simp [Json.unexpected, hf, lift_eq_ok_iff.1 hq, failed]⟩

/-- The value that stands somewhere is found, or has a fault of its own. -/
theorem IsValue.answers_unexpected (h : IsValue v) (expected : String) :
    ∃ cause, Answers (Json.unexpected expected : Cursor → Except Failure (α × Cursor)) v
      (.error ([], cause)) := by
  rcases h with (@⟨w, hw⟩ | @⟨_, hn⟩ | @⟨w, hw⟩) | ⟨frame, members, -, rfl⟩
  · simp only [List.mem_cons, List.not_mem_nil, or_false] at hw
    rcases hw with rfl | rfl | rfl
    · exact (answers_word "null" .null).unexpected fun p rest => by simp [foundAt]
    · exact (answers_word "true" (.boolean true)).unexpected fun p rest => by simp [foundAt]
    · exact (answers_word "false" (.boolean false)).unexpected fun p rest => by simp [foundAt]
  · obtain ⟨a, ha⟩ := hn.answers
    obtain ⟨x, hx, hdigit⟩ := hn.head
    obtain ⟨cs, rfl⟩ := List.head?_eq_some_iff.1 hx
    have hne : x ≠ 'n' ∧ x ≠ 't' ∧ x ≠ 'f' := by
      refine ⟨?_, ?_, ?_⟩ <;> rintro rfl <;> revert hdigit <;> decide
    have hfound := ha.map Number.found
    simp only [← lift_map] at hfound
    exact hfound.unexpected fun p rest => by simp [foundAt, hne, hdigit]
  · obtain ⟨a, ha⟩ := hw.answers
    have hfound := ha.string.map Found.text
    simp only [← lift_map] at hfound
    exact hfound.unexpected fun p rest => by simp [foundAt]
  · cases frame
    · exact ⟨.invalidType .sequence expected, fun p rest _ =>
        ⟨p, by simp [Json.unexpected, foundAt, Frame.opening, failed]⟩⟩
    · exact ⟨.invalidType .map expected, fun p rest _ =>
        ⟨p, by simp [Json.unexpected, foundAt, Frame.opening, failed]⟩⟩

end

end FieldRules.Json
