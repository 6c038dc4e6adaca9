import FieldRules.Json.Record
import FieldRules.Proofs.Json.Passing

/-!
# Readers take values

Every reader takes the text of one value (`Reader.TakesValue`), whatever it makes of it. The readers
of arrays and of records take a container, so that nothing behind the closing bracket matters.
-/

namespace FieldRules.Json

open Relation (Comp)

/-- A reader takes one value, with a gap in front of it. -/
def Reader.TakesValue {α : Type} (r : Reader α) : Prop :=
  ∀ ⦃c d : Cursor⦄ ⦃x : α⦄, r.read c = .ok (x, d) → ∃ g v, IsGap g ∧ IsValue v ∧
    Takes (fun c d => r.read c = .ok (x, d)) (g ++ v) c d

/-- A reader takes one array or object, and nothing behind it matters. -/
def Reader.TakesContainer {α : Type} (r : Reader α) : Prop :=
  ∀ ⦃c d : Cursor⦄ ⦃x : α⦄, r.read c = .ok (x, d) → ∃ g v, IsGap g ∧ IsContainer v ∧
    Closes (fun c d => r.read c = .ok (x, d)) (g ++ v) c d

namespace Reader

variable {α β : Type} {r : Reader α}

theorem TakesContainer.takesValue (hr : r.TakesContainer) : r.TakesValue := by
  intro c d x h
  obtain ⟨g, v, hg, hv, ht⟩ := hr h
  exact ⟨g, v, hg, .inr hv, ht.takes⟩

theorem map_eq_ok_iff {f : α → β} {c d : Cursor} {y : β} :
    (r.map f).read c = .ok (y, d) ↔ ∃ x, r.read c = .ok (x, d) ∧ f x = y := by
  simp [Reader.map, FieldRules.map_eq_ok_iff]

theorem TakesValue.map (hr : r.TakesValue) (f : α → β) : (r.map f).TakesValue := by
  intro c d y h
  obtain ⟨x, hx, rfl⟩ := map_eq_ok_iff.1 h
  obtain ⟨g, v, hg, hv, ht⟩ := hr hx
  exact ⟨g, v, hg, hv, ht.mono fun _ _ _ h' => map_eq_ok_iff.2 ⟨x, h', rfl⟩⟩

theorem within_eq_ok_iff {s : Segment} {c d : Cursor} {x : α} :
    (r.within s).read c = .ok (x, d) ↔ r.read c = .ok (x, d) := by
  simp only [within]
  cases r.read c <;> simp

end Reader

/-! ### Scalars -/

theorem readString_eq_ok_iff {c d : Cursor} {s : String} :
    readString.read c = .ok (s, d) ↔
      ∃ cs, Comp (fun c d => c.skipGap = d) (StringAt true cs) c d ∧ String.ofList cs = s := by
  simp only [Comp, exists_eq_left', readString]
  generalize c.skipGap = e
  constructor
  · intro h
    split at h
    · rename_i cs hcs
      obtain ⟨⟨t, f⟩, ht, heq⟩ := map_eq_ok_iff.1 (lift_eq_ok_iff.1 h)
      cases heq
      exact ⟨t, ⟨by rw [hcs]; rfl, ht⟩, rfl⟩
    · exact absurd h unexpected_ne_ok
  · rintro ⟨cs, ⟨hquote, hstring⟩, rfl⟩
    obtain ⟨ds, hds⟩ := List.head?_eq_some_iff.1 hquote
    simp only [hds]
    exact lift_eq_ok_iff.2 (map_eq_ok_iff.2 ⟨_, hstring, rfl⟩)

theorem readString_takesValue : readString.TakesValue := by
  intro c d s h
  obtain ⟨cs, ⟨e, rfl, hstring⟩, rfl⟩ := readString_eq_ok_iff.1 h
  obtain ⟨g, hg, ht⟩ := skipGap_takes c
  obtain ⟨w, hw, ht'⟩ := hstring.closes
  exact ⟨g, _, hg, .inl (.string hw), (ht.comp ht'.takes).mono fun _ _ _ h' =>
    readString_eq_ok_iff.2 ⟨cs, h', rfl⟩⟩

/-- A number of 32 bits, read from its first character on. -/
def WordAt (n : Nat) (c d : Cursor) : Prop :=
  ∃ t, numberAt true c = .ok (t, d) ∧ t.value d.position = .ok (.integer n) ∧ n < 1 <<< 32

theorem readWord_eq_ok_iff {c d : Cursor} {n : Nat} :
    readWord.read c = .ok (n, d) ↔ Comp (fun c d => c.skipGap = d) (WordAt n) c d := by
  simp only [Comp, exists_eq_left', readWord]
  generalize c.skipGap = e
  constructor
  · intro h
    split at h
    · split at h
      · cases h
      · rename_i k f hread
        split at h
        · rename_i hk
          cases h
          obtain ⟨⟨t, f⟩, ht, h⟩ := bind_eq_ok_iff.1 hread
          obtain ⟨m, hm, h⟩ := bind_eq_ok_iff.1 h
          cases h
          exact ⟨t, ht, by rw [hm, Int.toNat_of_nonneg hk.1], hk.2⟩
        · cases h
      · cases h
    · exact absurd h unexpected_ne_ok
  · rintro ⟨t, hnumber, hvalue, hn⟩
    have hread : readNumber e = .ok (.integer n, d) :=
      bind_eq_ok_iff.2 ⟨_, hnumber, bind_eq_ok_iff.2 ⟨_, hvalue, rfl⟩⟩
    obtain ⟨w, hw, ht⟩ := numberAt_takes hnumber
    obtain ⟨x, hx, hdigit⟩ := hw.head
    have hhead : e.rest.head? = some x := by
      rw [ht.rest_eq, List.head?_append, hx]
      rfl
    have hany : (e.rest.head?.any fun x => x == '-' || x.isDigit) = true := by
      simpa [hhead] using hdigit
    simp only [hany, if_true, hread]
    rw [if_pos ⟨Int.natCast_nonneg n, hn⟩]
    rfl

theorem readWord_takesValue : readWord.TakesValue := by
  intro c d n h
  obtain ⟨e, rfl, t, hnumber, hvalue, hn⟩ := readWord_eq_ok_iff.1 h
  obtain ⟨g, hg, ht⟩ := skipGap_takes c
  obtain ⟨w, hw, ht'⟩ := numberAt_takes hnumber
  have hword : Takes (WordAt n) w c.skipGap d := ht'.mono fun _ _ _ h' => ⟨t, h', hvalue, hn⟩
  exact ⟨g, w, hg, .inl (.number hw), (ht.comp hword).mono fun _ _ _ => readWord_eq_ok_iff.2⟩

section

variable {α : Type} {r : Reader α}

theorem readOptional_eq_ok_iff {c d : Cursor} {x : Option α} :
    (readOptional r).read c = .ok (x, d) ↔
      Comp (fun c d => c.skipGap = d) (fun c d => x = none ∧ wordAt "null" c = .ok d) c d ∨
      Comp (fun c d => c.skipGap = d ∧ d.rest.head? ≠ some 'n')
        (fun c d => (r.map some).read c = .ok (x, d)) c d := by
  simp only [Comp, exists_eq_left', and_assoc, readOptional]
  generalize c.skipGap = e
  split
  · rename_i cs hcs
    have hhead : e.rest.head? = some 'n' := by rw [hcs]; rfl
    simp only [lift_eq_ok_iff, map_eq_ok_iff, hhead, ne_eq, not_true_eq_false, false_and,
      or_false]
    constructor
    · rintro ⟨f, hf, heq⟩
      cases heq
      exact ⟨rfl, hf⟩
    · rintro ⟨rfl, hnull⟩
      exact ⟨d, hnull, rfl⟩
  · rename_i hcs
    have hhead := head?_ne_some hcs
    simp only [hhead, ne_eq, not_false_eq_true, true_and]
    refine ⟨.inr, ?_⟩
    rintro (⟨-, hnull⟩ | h)
    · exact absurd (by rw [(wordFrom_closes hnull).1]; rfl) hhead
    · exact h

theorem readOptional_takesValue (hr : r.TakesValue) : (readOptional r).TakesValue := by
  intro c d x h
  obtain ⟨g, hg, ht⟩ := skipGap_takes c
  rcases readOptional_eq_ok_iff.1 h with ⟨e, rfl, rfl, hnull⟩ | ⟨e, ⟨rfl, hhead⟩, hread⟩
  · have ht' := (wordAt_closes (by decide) hnull).takes
    refine ⟨g, _, hg, .inl (.word (by simp)), (ht.comp ht').mono ?_⟩
    rintro c' rest - ⟨e, he, h'⟩
    exact readOptional_eq_ok_iff.2 (.inl ⟨e, he, rfl, h'⟩)
  · obtain ⟨g', v, hg', hv, ht'⟩ := hr.map some hread
    have hnull : Takes (fun c d => c.skipGap = d ∧ d.rest.head? ≠ some 'n') g c c.skipGap :=
      ht.mono fun _ _ hrest h' => ⟨h', by rwa [hrest]⟩
    refine ⟨g ++ g', v, hg.append hg', hv, ?_⟩
    simpa using (hnull.comp ht').mono fun _ _ _ h' => readOptional_eq_ok_iff.2 (.inr h')

end

end FieldRules.Json
