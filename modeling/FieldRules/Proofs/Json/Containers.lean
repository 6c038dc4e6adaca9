import FieldRules.Proofs.Json.Values

/-!
# Readers of containers

A container is read member by member. What one member takes is what the grammar allows in front of
the rest of the container, and the reader stops right behind the closing bracket: neither the
elements of an array nor the fields of a record depend on what follows it.
-/

namespace FieldRules.Json

open Relation (Comp)

/-- From behind the last token to the next member of a container, over a comma unless it has just
been opened. -/
def Separates : Bool → Cursor → Cursor → Prop
  | true => fun c d => c.skipGap = d
  | false => Comp (Passes ',') fun c d => c.skipGap = d

theorem Separates.takes {fresh : Bool} {c d : Cursor} (h : Separates fresh c d) :
    ∃ w, IsSeparator fresh w ∧ Takes (Separates fresh) w c d := by
  cases fresh with
  | true =>
    obtain rfl : c.skipGap = d := h
    exact skipGap_takes c
  | false =>
    obtain ⟨e, hcomma, rfl⟩ := h
    obtain ⟨g, hg, ht⟩ := hcomma.closes
    obtain ⟨g', hg', ht'⟩ := skipGap_takes e
    exact ⟨_, ⟨g, g', hg, hg', by simp⟩, ht.takes.comp ht'⟩

/-! ### Arrays -/

theorem nextElement_true_iff {first : Bool} {c d : Cursor} :
    nextElement first c = .ok (true, d) ↔
      Separates first c d ∧ ∃ x, d.rest.head? = some x ∧ x ≠ ']' := by
  cases first with
  | true =>
    simp only [Separates, nextElement]
    generalize c.skipGap = e
    constructor
    · intro h
      split at h
      · cases h
      · cases h
      · rename_i x cs hx hrest
        cases h
        exact ⟨rfl, x, by rw [hrest]; rfl, hx⟩
    · rintro ⟨rfl, x, hx, hne⟩
      obtain ⟨cs, hcs⟩ := List.head?_eq_some_iff.1 hx
      simp [hcs]
  | false =>
    simp only [Separates, Comp, passes_iff, nextElement, Bool.false_eq_true, if_false]
    generalize c.skipGap = e
    constructor
    · intro h
      repeat' split at h
      all_goals cases h
      rename_i x cs _ hx hcomma _ hend hclose
      obtain ⟨y, ys, hy⟩ := List.exists_cons_of_ne_nil hend
      refine ⟨⟨_, ⟨by rw [hx, hcomma]; rfl, rfl⟩, rfl⟩, y, by rw [hy]; rfl, ?_⟩
      rintro rfl
      exact hclose ys hy
    · rintro ⟨⟨f, ⟨hcomma, rfl⟩, rfl⟩, x, hx, hne⟩
      obtain ⟨cs, hcs⟩ := List.head?_eq_some_iff.1 hcomma
      obtain ⟨cs', hcs'⟩ := List.head?_eq_some_iff.1 hx
      simp [hcs, hcs', hne]

theorem nextElement_false_iff (first : Bool) {c d : Cursor} :
    (∃ e, nextElement first c = .ok (false, e) ∧ e.advance = d) ↔ Passes ']' c d := by
  simp only [passes_iff, nextElement]
  generalize c.skipGap = e
  constructor
  · rintro ⟨f, h, rfl⟩
    repeat' split at h
    all_goals cases h
    rename_i hrest
    exact ⟨by rw [hrest]; rfl, rfl⟩
  · rintro ⟨hclose, rfl⟩
    obtain ⟨cs, hcs⟩ := List.head?_eq_some_iff.1 hclose
    simp [hcs]

theorem nextElement_takes {first : Bool} {c d : Cursor}
    (h : nextElement first c = .ok (true, d)) : ∃ w, IsSeparator first w ∧
      Takes (fun c d => nextElement first c = .ok (true, d)) w c d := by
  obtain ⟨hseparates, x, hx, hne⟩ := nextElement_true_iff.1 h
  obtain ⟨w, hw, ht⟩ := hseparates.takes
  exact ⟨w, hw, ht.mono fun _ _ hrest h' =>
    nextElement_true_iff.2 ⟨h', x, hrest.trans hx, hne⟩⟩

section

variable {α : Type} {r : Reader α}

theorem readElements_iff {i : Nat} {c d : Cursor} {xs : List α} :
    readElements r i c = .ok (xs, d) ↔
      (xs = [] ∧ Passes ']' c d) ∨
      ∃ x ys, xs = x :: ys ∧ Comp (fun c d => nextElement (i == 0) c = .ok (true, d))
        (Comp (fun c d => r.read c = .ok (x, d))
          (fun c d => readElements r (i + 1) c = .ok (ys, d))) c d := by
  rw [← nextElement_false_iff (i == 0)]
  constructor
  · intro h
    rw [readElements] at h
    split at h
    · cases h
    · rename_i here hnext
      cases h
      exact .inl ⟨rfl, here, hnext, rfl⟩
    · rename_i here hnext
      split at h
      · cases h
      · rename_i x behind hread
        split at h
        · cases h
        · rename_i ys stop hrest
          cases h
          exact .inr ⟨x, ys, rfl, here, hnext, behind, Reader.within_eq_ok_iff.1 hread, hrest⟩
  · rintro (⟨rfl, e, hnext, rfl⟩ | ⟨x, ys, rfl, e, hnext, f, hread, hrest⟩)
    · rw [readElements]
      split
      · rename_i hfault
        cases hfault.symm.trans hnext
      · rename_i hend
        cases hend.symm.trans hnext
        rfl
      · rename_i hmore
        cases hmore.symm.trans hnext
    · have hread' : (r.within (.index i)).read e = .ok (x, f) := Reader.within_eq_ok_iff.2 hread
      rw [readElements]
      split
      · rename_i hfault
        cases hfault.symm.trans hnext
      · rename_i hend
        cases hend.symm.trans hnext
      · rename_i hmore
        cases hmore.symm.trans hnext
        split
        · rename_i hfault
          cases hfault.symm.trans hread'
        · rename_i hvalue
          cases hvalue.symm.trans hread'
          rw [hrest]

/-- One element after the other takes what may stand in an array. -/
theorem readElements_closes (hr : r.TakesValue) {i : Nat} {c d : Cursor} {xs : List α}
    (h : readElements r i c = .ok (xs, d)) : ∃ w, IsMembers .list (i == 0) w ∧
      Closes (fun c d => readElements r i c = .ok (xs, d)) w c d := by
  induction xs generalizing i c with
  | nil =>
    rcases readElements_iff.1 h with ⟨-, hpasses⟩ | ⟨x, ys, hxs, -⟩
    · obtain ⟨g, hg, ht⟩ := hpasses.closes
      exact ⟨_, .close hg, ht.mono fun _ _ h' => readElements_iff.2 (.inl ⟨rfl, h'⟩)⟩
    · cases hxs
  | cons x xs ih =>
    rcases readElements_iff.1 h with ⟨hxs, -⟩ | ⟨x', ys, hxs, e, hnext, f, hread, hrest⟩
    · cases hxs
    · cases hxs
      obtain ⟨separator, hseparator, ht₁⟩ := nextElement_takes hnext
      obtain ⟨g, v, hg, hv, ht₂⟩ := hr hread
      obtain ⟨w, hw, ht₃⟩ := ih hrest
      refine ⟨separator ++ g ++ [] ++ v ++ w, .member (hseparator.append hg) .list hv hw, ?_⟩
      simpa using (ht₁.closes (ht₂.closes ht₃)).mono fun _ _ h' =>
        readElements_iff.2 (.inr ⟨x, xs, rfl, h'⟩)

theorem readList_iff {c d : Cursor} {xs : List α} :
    (readList r).read c = .ok (xs, d) ↔
      Comp (Passes '[') (fun c d => readElements r 0 c = .ok (xs, d)) c d := by
  simp only [Comp, passes_iff, readList]
  generalize c.skipGap = e
  split
  · rename_i cs hcs
    simp [hcs]
  · rename_i hcs
    simp [head?_ne_some hcs, unexpected_ne_ok]

theorem readList_takesContainer (hr : r.TakesValue) : (readList r).TakesContainer := by
  intro c d xs h
  obtain ⟨e, hopen, hrest⟩ := readList_iff.1 h
  obtain ⟨g, hg, ht⟩ := hopen.closes
  obtain ⟨w, hw, ht'⟩ := readElements_closes hr hrest
  refine ⟨g, '[' :: w, hg, ⟨.list, w, hw, rfl⟩, ?_⟩
  simpa using (ht.takes.closes ht').mono fun _ _ => readList_iff.2

end

/-! ### Members of objects -/

theorem nextKey_true_iff {first : Bool} {c d : Cursor} :
    nextKey first c = .ok (true, d) ↔ Separates first c d ∧ d.rest.head? = some '"' := by
  cases first with
  | true =>
    simp only [Separates, nextKey, if_true]
    generalize c.skipGap = e
    constructor
    · intro h
      repeat' split at h
      all_goals cases h
      rename_i x cs _ hquote hrest
      exact ⟨rfl, by rw [hrest, hquote]; rfl⟩
    · rintro ⟨rfl, hquote⟩
      obtain ⟨cs, hcs⟩ := List.head?_eq_some_iff.1 hquote
      simp [hcs]
  | false =>
    simp only [Separates, Comp, passes_iff, nextKey, Bool.false_eq_true, if_false]
    generalize c.skipGap = e
    constructor
    · intro h
      repeat' split at h
      all_goals cases h
      rename_i x cs _ hx hcomma _ tail hquote
      exact ⟨⟨_, ⟨by rw [hx, hcomma]; rfl, rfl⟩, rfl⟩, by rw [hquote]; rfl⟩
    · rintro ⟨⟨f, ⟨hcomma, rfl⟩, rfl⟩, hquote⟩
      obtain ⟨cs, hcs⟩ := List.head?_eq_some_iff.1 hcomma
      obtain ⟨cs', hcs'⟩ := List.head?_eq_some_iff.1 hquote
      simp [hcs, hcs']

theorem nextKey_false_iff (first : Bool) {c d : Cursor} :
    (∃ e, nextKey first c = .ok (false, e) ∧ e.advance = d) ↔ Passes '\x7d' c d := by
  simp only [passes_iff, nextKey]
  generalize c.skipGap = e
  constructor
  · rintro ⟨f, h, rfl⟩
    repeat' split at h
    all_goals cases h
    rename_i hrest
    exact ⟨by rw [hrest]; rfl, rfl⟩
  · rintro ⟨hclose, rfl⟩
    obtain ⟨cs, hcs⟩ := List.head?_eq_some_iff.1 hclose
    simp [hcs]

/-- A reader takes what follows the key of a member: the colon and one value. -/
def Reader.TakesMember {α : Type} (r : Reader α) : Prop :=
  ∀ ⦃c d : Cursor⦄ ⦃x : α⦄, r.read c = .ok (x, d) → ∃ g g' v, IsGap g ∧ IsGap g' ∧ IsValue v ∧
    Takes (fun c d => r.read c = .ok (x, d)) (g ++ ':' :: g' ++ v) c d

theorem readMemberValue_iff {α : Type} {r : Reader α} {key : String} {c d : Cursor} {x : α} :
    (readMemberValue key r).read c = .ok (x, d) ↔
      Comp (Passes ':') (fun c d => r.read c = .ok (x, d)) c d := by
  simp only [Comp, ← colonAt_iff, readMemberValue]
  split
  · rename_i fault hfault
    simp [hfault, failed]
  · rename_i e he
    simp [he, Reader.within_eq_ok_iff]

theorem readMemberValue_takesMember {α : Type} {r : Reader α} (hr : r.TakesValue)
    (key : String) : (readMemberValue key r).TakesMember := by
  intro c d x h
  obtain ⟨e, hcolon, hread⟩ := readMemberValue_iff.1 h
  obtain ⟨g, hg, ht⟩ := hcolon.closes
  obtain ⟨g', v, hg', hv, ht'⟩ := hr hread
  refine ⟨g, g', v, hg, hg', hv, ?_⟩
  simpa using (ht.takes.comp ht').mono fun _ _ _ => readMemberValue_iff.2

theorem readIgnored_iff {α : Type} {x y : α} {c d : Cursor} :
    (readIgnored x).read c = .ok (y, d) ↔ x = y ∧ skipValue c = .ok d := by
  simp only [readIgnored, lift_eq_ok_iff, map_eq_ok_iff, Prod.mk.injEq]
  constructor
  · rintro ⟨e, he, rfl, rfl⟩
    exact ⟨rfl, he⟩
  · rintro ⟨rfl, h⟩
    exact ⟨d, h, rfl, rfl⟩

theorem readIgnored_takesValue {α : Type} (x : α) : (readIgnored x).TakesValue := by
  intro c d y h
  obtain ⟨rfl, hskip⟩ := readIgnored_iff.1 h
  obtain ⟨g, v, hg, hv, ht⟩ := skipValue_takes hskip
  exact ⟨g, v, hg, hv, ht.mono fun _ _ _ h' => readIgnored_iff.2 ⟨rfl, h'⟩⟩

/-- Every field of a record is read from one value. -/
def RecordForm.TakesValues {δ α : Type} (form : RecordForm δ α) : Prop :=
  ∀ slot ∈ form.slots, ∀ draft, (slot.fill draft).TakesValue

section

variable {δ α : Type} {form : RecordForm δ α}

/-- A member is read from one value, whether it is a field or passed over. -/
theorem readMember_takesMember (hform : form.TakesValues) (draft : δ) (key : String) :
    (readMember form draft key).TakesMember := by
  intro c d x h
  unfold readMember at h ⊢
  split at h
  · rename_i slot hslot
    split at h
    · cases h
    · rename_i hfilled
      simp only [hfilled, Bool.false_eq_true, if_false]
      exact readMemberValue_takesMember (hform slot (List.mem_of_find?_eq_some hslot) draft) key h
  · split at h
    · cases h
    · rename_i hclosed
      simp only [hclosed, Bool.false_eq_true, if_false]
      exact readMemberValue_takesMember (readIgnored_takesValue draft) key h

theorem readMembers_iff {first : Bool} {draft x : δ} {c d : Cursor} :
    readMembers form first draft c = .ok (x, d) ↔
      (x = draft ∧ Passes '\x7d' c d) ∨
      ∃ key filled, Comp (Separates first) (Comp (StringAt true key)
        (Comp (fun c d => (readMember form draft (String.ofList key)).read c = .ok (filled, d))
          (fun c d => readMembers form false filled c = .ok (x, d)))) c d := by
  rw [← nextKey_false_iff first]
  constructor
  · intro h
    rw [readMembers] at h
    split at h
    · cases h
    · rename_i here hnext
      cases h
      exact .inl ⟨rfl, here, hnext, rfl⟩
    · rename_i here hnext
      obtain ⟨hseparates, hquote⟩ := nextKey_true_iff.1 hnext
      split at h
      · cases h
      · rename_i key behindKey hkey
        split at h
        · cases h
        · rename_i filled behind hmember
          exact .inr ⟨key, filled, here, hseparates, behindKey, ⟨hquote, hkey⟩, behind, hmember,
            h⟩
  · rintro (⟨rfl, e, hnext, rfl⟩ |
      ⟨key, filled, e, hseparates, f, ⟨hquote, hkey⟩, i, hmember, hrest⟩)
    · rw [readMembers]
      split
      · rename_i hfault
        cases hfault.symm.trans hnext
      · rename_i hend
        cases hend.symm.trans hnext
        rfl
      · rename_i hmore
        cases hmore.symm.trans hnext
    · have hnext := nextKey_true_iff.2 ⟨hseparates, hquote⟩
      rw [readMembers]
      split
      · rename_i hfault
        cases hfault.symm.trans hnext
      · rename_i hend
        cases hend.symm.trans hnext
      · rename_i hmore
        cases hmore.symm.trans hnext
        split
        · rename_i hfault
          cases hfault.symm.trans hkey
        · rename_i hname
          cases hname.symm.trans hkey
          split
          · rename_i hfault
            cases hfault.symm.trans hmember
          · rename_i hvalue
            cases hvalue.symm.trans hmember
            exact hrest

/-- One member after the other takes what may stand in an object. -/
theorem readMembers_closes (hform : form.TakesValues) {first : Bool} {draft x : δ} {c d : Cursor}
    (h : readMembers form first draft c = .ok (x, d)) : ∃ w, IsMembers .map first w ∧
      Closes (fun c d => readMembers form first draft c = .ok (x, d)) w c d := by
  rcases readMembers_iff.1 h with ⟨rfl, hpasses⟩ |
    ⟨key, filled, e, hseparates, f, hkey, i, hmember, hrest⟩
  · obtain ⟨g, hg, ht⟩ := hpasses.closes
    exact ⟨_, .close hg, ht.mono fun _ _ h' => readMembers_iff.2 (.inl ⟨rfl, h'⟩)⟩
  · obtain ⟨separator, hseparator, ht₁⟩ := hseparates.takes
    obtain ⟨name, hname, ht₂⟩ := hkey.closes
    obtain ⟨g, g', v, hg, hg', hv, ht₃⟩ := readMember_takesMember hform draft _ hmember
    have : i.rest.length < c.rest.length :=
      Nat.lt_of_le_of_lt ht₃.length_le (Nat.lt_of_lt_of_le ht₂.length_lt ht₁.length_le)
    obtain ⟨w, hw, ht₄⟩ := readMembers_closes hform hrest
    refine ⟨_, .member hseparator (.map hname hg hg') hv hw, ?_⟩
    simpa using (ht₁.closes (ht₂.takes.closes (ht₃.closes ht₄))).mono fun _ _ h' =>
      readMembers_iff.2 (.inr ⟨key, filled, h'⟩)
termination_by c.rest.length

/-! ### Records -/

theorem readObject_iff {c d : Cursor} {x : α} :
    readObject form c = .ok (x, d) ↔ ∃ draft,
      readMembers form true form.blank c = .ok (draft, d) ∧ form.finish draft = .ok x := by
  constructor
  · intro h
    unfold readObject at h
    split at h
    · cases h
    · rename_i draft behind hmembers
      split at h
      · rename_i y hfinish
        cases h
        exact ⟨draft, hmembers, hfinish⟩
      · cases h
  · rintro ⟨draft, hmembers, hfinish⟩
    simp [readObject, hmembers, hfinish]

theorem closeArray_iff {c d : Cursor} : closeArray c = .ok d ↔ Passes ']' c d := by
  simp only [passes_iff, closeArray]
  generalize c.skipGap = e
  constructor
  · intro h
    repeat' split at h
    all_goals cases h
    rename_i hrest
    exact ⟨by rw [hrest]; rfl, rfl⟩
  · rintro ⟨hclose, rfl⟩
    obtain ⟨cs, hcs⟩ := List.head?_eq_some_iff.1 hclose
    simp [hcs]

theorem readSlots_nil_iff {i : Nat} {draft x : δ} {c d : Cursor} :
    readSlots i draft c [] = .ok (x, d) ↔ x = draft ∧ Passes ']' c d := by
  simp only [readSlots, lift_eq_ok_iff, map_eq_ok_iff, ← closeArray_iff, Prod.mk.injEq]
  constructor
  · rintro ⟨e, he, rfl, rfl⟩
    exact ⟨rfl, he⟩
  · rintro ⟨rfl, h⟩
    exact ⟨d, h, rfl, rfl⟩

theorem readSlots_cons_iff {i : Nat} {draft x : δ} {c d : Cursor} {slot : Slot δ}
    {slots : List (Slot δ)} :
    readSlots i draft c (slot :: slots) = .ok (x, d) ↔
      (x = draft ∧ Passes ']' c d) ∨
      ∃ filled, Comp (fun c d => nextElement (i == 0) c = .ok (true, d))
        (Comp (fun c d => (slot.fill draft).read c = .ok (filled, d))
          (fun c d => readSlots (i + 1) filled c slots = .ok (x, d))) c d := by
  rw [← nextElement_false_iff (i == 0)]
  constructor
  · intro h
    rw [readSlots] at h
    split at h
    · cases h
    · rename_i here hnext
      cases h
      exact .inl ⟨rfl, here, hnext, rfl⟩
    · rename_i here hnext
      split at h
      · cases h
      · rename_i filled behind hread
        exact .inr ⟨filled, here, hnext, behind, Reader.within_eq_ok_iff.1 hread, h⟩
  · rintro (⟨rfl, e, hnext, rfl⟩ | ⟨filled, e, hnext, f, hread, hrest⟩)
    · simp [readSlots, hnext]
    · have hread' : ((slot.fill draft).within (.index i)).read e = .ok (filled, f) :=
        Reader.within_eq_ok_iff.2 hread
      simp [readSlots, hnext, hread', hrest]

theorem readSlots_closes {slots : List (Slot δ)}
    (hslots : ∀ slot ∈ slots, ∀ draft, (slot.fill draft).TakesValue) {i : Nat} {draft x : δ}
    {c d : Cursor} (h : readSlots i draft c slots = .ok (x, d)) :
    ∃ w, IsMembers .list (i == 0) w ∧
      Closes (fun c d => readSlots i draft c slots = .ok (x, d)) w c d := by
  induction slots generalizing i draft c with
  | nil =>
    obtain ⟨rfl, hpasses⟩ := readSlots_nil_iff.1 h
    obtain ⟨g, hg, ht⟩ := hpasses.closes
    exact ⟨_, .close hg, ht.mono fun _ _ h' => readSlots_nil_iff.2 ⟨rfl, h'⟩⟩
  | cons slot slots ih =>
    rcases readSlots_cons_iff.1 h with ⟨rfl, hpasses⟩ | ⟨filled, e, hnext, f, hread, hrest⟩
    · obtain ⟨g, hg, ht⟩ := hpasses.closes
      exact ⟨_, .close hg, ht.mono fun _ _ h' => readSlots_cons_iff.2 (.inl ⟨rfl, h'⟩)⟩
    · obtain ⟨separator, hseparator, ht₁⟩ := nextElement_takes hnext
      obtain ⟨g, v, hg, hv, ht₂⟩ := hslots slot (by simp) draft hread
      obtain ⟨w, hw, ht₃⟩ := ih (fun s hs => hslots s (by simp [hs])) hrest
      refine ⟨separator ++ g ++ [] ++ v ++ w, .member (hseparator.append hg) .list hv hw, ?_⟩
      simpa using (ht₁.closes (ht₂.closes ht₃)).mono fun _ _ h' =>
        readSlots_cons_iff.2 (.inr ⟨filled, h'⟩)

theorem readTuple_iff {c d : Cursor} {x : α} :
    readTuple form c = .ok (x, d) ↔ ∃ draft,
      readSlots 0 form.blank c form.slots = .ok (draft, d) ∧ form.finish draft = .ok x := by
  constructor
  · intro h
    unfold readTuple at h
    split at h
    · cases h
    · rename_i draft behind hslots
      split at h
      · rename_i y hfinish
        cases h
        exact ⟨draft, hslots, hfinish⟩
      · cases h
  · rintro ⟨draft, hslots, hfinish⟩
    simp [readTuple, hslots, hfinish]

theorem readRecord_iff {c d : Cursor} {x : α} :
    (readRecord form).read c = .ok (x, d) ↔
      Comp (Passes '[') (fun c d => readTuple form c = .ok (x, d)) c d ∨
      Comp (Passes '\x7b') (fun c d => readObject form c = .ok (x, d)) c d := by
  simp only [Comp, passes_iff, readRecord]
  generalize c.skipGap = e
  split
  · rename_i cs hcs
    simp [hcs]
  · rename_i cs hcs
    simp [hcs]
  · rename_i hlist hmap
    simp [head?_ne_some hlist, head?_ne_some hmap, unexpected_ne_ok]

theorem readRecord_takesContainer (hform : form.TakesValues) :
    (readRecord form).TakesContainer := by
  intro c d x h
  rcases readRecord_iff.1 h with ⟨e, hopen, h⟩ | ⟨e, hopen, h⟩
  · obtain ⟨draft, hslots, hfinish⟩ := readTuple_iff.1 h
    obtain ⟨g, hg, ht⟩ := hopen.closes
    obtain ⟨w, hw, ht'⟩ := readSlots_closes hform hslots
    have htuple : Closes (fun c d => readTuple form c = .ok (x, d)) w e d :=
      ht'.mono fun _ _ h' => readTuple_iff.2 ⟨draft, h', hfinish⟩
    refine ⟨g, '[' :: w, hg, ⟨.list, w, hw, rfl⟩, ?_⟩
    simpa using (ht.takes.closes htuple).mono fun _ _ h' => readRecord_iff.2 (.inl h')
  · obtain ⟨draft, hmembers, hfinish⟩ := readObject_iff.1 h
    obtain ⟨g, hg, ht⟩ := hopen.closes
    obtain ⟨w, hw, ht'⟩ := readMembers_closes hform hmembers
    have hobject : Closes (fun c d => readObject form c = .ok (x, d)) w e d :=
      ht'.mono fun _ _ h' => readObject_iff.2 ⟨draft, h', hfinish⟩
    refine ⟨g, '\x7b' :: w, hg, ⟨.map, w, hw, rfl⟩, ?_⟩
    simpa using (ht.takes.closes hobject).mono fun _ _ h' => readRecord_iff.2 (.inr h')

end

end FieldRules.Json
