import FieldRules.Proofs.Json.Takes

/-!
# What is passed over

A member that no field is made of is passed over without recursion, with the open containers on a
stack. What is taken in this way is the text of one value: `skipOpen` takes the rest of the
innermost container first, then that of the next one, and so on (`IsRest`).
-/

namespace FieldRules.Json

open Relation (Comp)

/-! ### Scalars and opening brackets -/

/-- From the first character of a scalar to behind its last. -/
def ScalarAt (c d : Cursor) : Prop :=
  (∃ w ∈ ["null", "true", "false"], wordAt w c = .ok d) ∨
    (∃ t, numberAt false c = .ok (t, d)) ∨ ∃ s, StringAt false s c d

theorem ScalarAt.takes {c d : Cursor} (h : ScalarAt c d) :
    ∃ w, IsScalar w ∧ Takes ScalarAt w c d := by
  rcases h with ⟨w, hw, h⟩ | ⟨t, h⟩ | ⟨s, h⟩
  · have hne : w.toList ≠ [] := by
      simp only [List.mem_cons, List.not_mem_nil, or_false] at hw
      rcases hw with rfl | rfl | rfl <;> decide
    exact ⟨_, .word hw, (wordAt_closes hne h).takes.mono fun _ _ _ h' => .inl ⟨w, hw, h'⟩⟩
  · obtain ⟨w, hw, ht⟩ := numberAt_takes h
    exact ⟨w, .number hw, ht.mono fun _ _ _ h' => .inr (.inl ⟨t, h'⟩)⟩
  · obtain ⟨w, hw, ht⟩ := h.closes
    exact ⟨_, .string hw, ht.takes.mono fun _ _ _ h' => .inr (.inr ⟨s, h'⟩)⟩

/-- Where a value starts, its first character decides what it is. -/
theorem skipStart_none_iff {c d : Cursor} :
    skipStart c = .ok (none, d) ↔ Comp (fun c d => c.skipGap = d) ScalarAt c d := by
  simp only [Comp, exists_eq_left']
  unfold skipStart
  generalize c.skipGap = e
  constructor
  · intro h
    simp only at h
    split at h
    · cases h
    · rename_i x cs hx
      repeat' split at h
      · obtain ⟨f, hf, heq⟩ := map_eq_ok_iff.1 h
        cases heq
        exact .inl ⟨"null", by simp, hf⟩
      · obtain ⟨f, hf, heq⟩ := map_eq_ok_iff.1 h
        cases heq
        exact .inl ⟨"true", by simp, hf⟩
      · obtain ⟨f, hf, heq⟩ := map_eq_ok_iff.1 h
        cases heq
        exact .inl ⟨"false", by simp, hf⟩
      · obtain ⟨⟨t, f⟩, hf, heq⟩ := map_eq_ok_iff.1 h
        cases heq
        exact .inr (.inl ⟨t, hf⟩)
      · rename_i hquote
        obtain ⟨⟨s, f⟩, hf, heq⟩ := map_eq_ok_iff.1 h
        cases heq
        exact .inr (.inr ⟨s, by rw [hx, hquote]; rfl, hf⟩)
      all_goals cases h
  · rintro (⟨w, hw, h⟩ | ⟨t, h⟩ | ⟨s, hquote, h⟩)
    · have hrest := (wordFrom_closes h).1
      simp only [List.mem_cons, List.not_mem_nil, or_false] at hw
      rcases hw with rfl | rfl | rfl
      all_goals simp [hrest, h, Except.map]
    · obtain ⟨w, hw, ht⟩ := numberAt_takes h
      obtain ⟨x, hx, hdigit⟩ := hw.head
      obtain ⟨cs, rfl⟩ := List.head?_eq_some_iff.1 hx
      have hn : x ≠ 'n' ∧ x ≠ 't' ∧ x ≠ 'f' := by
        refine ⟨?_, ?_, ?_⟩ <;> rintro rfl <;> revert hdigit <;> decide
      simp [ht.rest_eq, hn, hdigit, h, Except.map]
    · obtain ⟨cs, hcs⟩ := List.head?_eq_some_iff.1 hquote
      simp [hcs, h, Except.map]

theorem skipStart_some_iff {frame : Frame} {c d : Cursor} :
    skipStart c = .ok (some frame, d) ↔ Passes frame.opening c d := by
  rw [passes_iff]
  unfold skipStart
  generalize c.skipGap = e
  constructor
  · intro h
    simp only at h
    split at h
    · cases h
    · rename_i x cs hx
      repeat' split at h
      -- scalars open nothing
      iterate 5
        · obtain ⟨_, -, heq⟩ := map_eq_ok_iff.1 h
          cases heq
      · rename_i hopen
        cases h
        exact ⟨by rw [hx, hopen]; rfl, rfl⟩
      · rename_i hopen
        cases h
        exact ⟨by rw [hx, hopen]; rfl, rfl⟩
      · cases h
  · rintro ⟨hhead, rfl⟩
    obtain ⟨cs, hcs⟩ := List.head?_eq_some_iff.1 hhead
    cases frame <;> simp [hcs, Frame.opening]

/-- What `skipStart` takes: a scalar, or the bracket of the container that it opens. -/
def IsStart : Option Frame → List Char → Prop
  | none, w => IsScalar w
  | some frame, w => w = [frame.opening]

theorem skipStart_takes {c d : Cursor} {opened : Option Frame}
    (h : skipStart c = .ok (opened, d)) : ∃ g w, IsGap g ∧ IsStart opened w ∧
      Takes (fun c d => skipStart c = .ok (opened, d)) (g ++ w) c d := by
  cases opened with
  | none =>
    obtain ⟨e, rfl, hscalar⟩ := skipStart_none_iff.1 h
    obtain ⟨g, hg, ht⟩ := skipGap_takes c
    obtain ⟨w, hw, ht'⟩ := hscalar.takes
    exact ⟨g, w, hg, hw, (ht.comp ht').mono fun _ _ _ => skipStart_none_iff.2⟩
  | some frame =>
    obtain ⟨g, hg, ht⟩ := (skipStart_some_iff.1 h).closes
    exact ⟨g, _, hg, rfl, ht.takes.mono fun _ _ _ => skipStart_some_iff.2⟩

/-! ### Members -/

theorem colonAt_iff {c d : Cursor} : colonAt c = .ok d ↔ Passes ':' c d := by
  rw [passes_iff]
  unfold colonAt
  generalize c.skipGap = e
  simp only
  split <;> simp_all [List.head?_eq_some_iff]

/-- From a string to behind the colon that follows it. -/
def KeyAt (c d : Cursor) : Prop :=
  ∃ s, Comp (StringAt false s) (Passes ':') c d

theorem skipKey_iff {c d : Cursor} :
    skipKey c = .ok d ↔ Comp (fun c d => c.skipGap = d) KeyAt c d := by
  simp only [Comp, exists_eq_left']
  unfold skipKey KeyAt
  generalize c.skipGap = e
  constructor
  · intro h
    simp only at h
    split at h
    · cases h
    · rename_i cs hcs
      obtain ⟨⟨s, f⟩, hs, h⟩ := bind_eq_ok_iff.1 h
      exact ⟨s, f, ⟨by rw [hcs]; rfl, hs⟩, colonAt_iff.1 h⟩
    · cases h
  · rintro ⟨s, f, ⟨hquote, hs⟩, hcolon⟩
    obtain ⟨cs, hcs⟩ := List.head?_eq_some_iff.1 hquote
    simp only [hcs]
    exact bind_eq_ok_iff.2 ⟨(s, f), hs, colonAt_iff.2 hcolon⟩

/-- What stands in front of a member, passed over from behind the last token on. -/
theorem skipComma_takes {frame : Frame} {fresh : Bool} {c d : Cursor}
    (h : skipComma frame fresh c.skipGap = .ok d) :
    ∃ w, IsSeparator fresh w ∧
      Takes (fun c d => skipComma frame fresh c.skipGap = .ok d) w c d := by
  cases fresh with
  | true =>
    cases h
    obtain ⟨g, hg, ht⟩ := skipGap_takes c
    exact ⟨g, hg, ht.mono fun _ _ _ h' => congrArg Except.ok h'⟩
  | false =>
    have hiff {c d : Cursor} : skipComma frame false c.skipGap = .ok d ↔ Passes ',' c d := by
      rw [passes_iff]
      unfold skipComma
      generalize c.skipGap = e
      simp only [Bool.false_eq_true, if_false]
      split <;> simp_all [List.head?_eq_some_iff]
    obtain ⟨g, hg, ht⟩ := (hiff.1 h).closes
    exact ⟨_, ⟨g, [], hg, isGap_nil, rfl⟩, ht.takes.mono fun _ _ _ => hiff.2⟩

theorem KeyAt.takes {c d : Cursor} (h : KeyAt c d) :
    ∃ w, IsKey .map w ∧ Takes KeyAt w c d := by
  obtain ⟨s, e, hstring, hcolon⟩ := h
  obtain ⟨key, hkey, ht⟩ := hstring.closes
  obtain ⟨g, hg, ht'⟩ := hcolon.closes
  refine ⟨'"' :: key ++ (g ++ [':']), ?_,
    (ht.takes.comp ht'.takes).mono fun _ _ _ h' => ⟨s, h'⟩⟩
  simpa using IsKey.map hkey hg isGap_nil

theorem skipMember_list_iff {fresh : Bool} {c d : Cursor} {opened : Option Frame} :
    skipMember .list fresh c.skipGap = .ok (opened, d) ↔
      Comp (fun c d => skipComma .list fresh c.skipGap = .ok d)
        (fun c d => skipStart c = .ok (opened, d)) c d := by
  simp only [skipMember, bind_eq_ok_iff, Comp]

theorem skipMember_map_iff {fresh : Bool} {c d : Cursor} {opened : Option Frame} :
    skipMember .map fresh c.skipGap = .ok (opened, d) ↔
      Comp (fun c d => skipComma .map fresh c.skipGap = .ok d)
        (Comp (fun c d => skipKey c = .ok d) (fun c d => skipStart c = .ok (opened, d))) c d := by
  simp only [skipMember, bind_eq_ok_iff, Comp]

theorem skipMember_takes {frame : Frame} {fresh : Bool} {c d : Cursor} {opened : Option Frame}
    (h : skipMember frame fresh c.skipGap = .ok (opened, d)) :
    ∃ separator key w, IsSeparator fresh separator ∧ IsKey frame key ∧ IsStart opened w ∧
      Takes (fun c d => skipMember frame fresh c.skipGap = .ok (opened, d))
        (separator ++ key ++ w) c d := by
  cases frame with
  | list =>
    obtain ⟨e, hcomma, hstart⟩ := skipMember_list_iff.1 h
    obtain ⟨u, hu, ht⟩ := skipComma_takes hcomma
    obtain ⟨g, w, hg, hw, ht'⟩ := skipStart_takes hstart
    refine ⟨u ++ g, [], w, hu.append hg, .list, hw, ?_⟩
    simpa using (ht.comp ht').mono fun _ _ _ => skipMember_list_iff.2
  | map =>
    obtain ⟨e, hcomma, f, hkey, hstart⟩ := skipMember_map_iff.1 h
    obtain ⟨e', rfl, hkey⟩ := skipKey_iff.1 hkey
    obtain ⟨u, hu, ht₁⟩ := skipComma_takes hcomma
    obtain ⟨g, hg, ht₂⟩ := skipGap_takes e
    obtain ⟨key, hkey, ht₃⟩ := hkey.takes
    obtain ⟨g', w, hg', hw, ht₄⟩ := skipStart_takes hstart
    have hkeys : Takes (fun c d => skipKey c = .ok d) (g ++ key) e f :=
      (ht₂.comp ht₃).mono fun _ _ _ => skipKey_iff.2
    refine ⟨u ++ g, key ++ g', w, hu.append hg, hkey.append hg', hw, ?_⟩
    simpa using (ht₁.comp (hkeys.comp ht₄)).mono fun _ _ _ => skipMember_map_iff.2

/-! ### Open containers -/

/-- A closing bracket is not the start of a member. -/
theorem head?_of_skipMember {frame : Frame} {fresh : Bool} {e : Cursor}
    {x : Option Frame × Cursor} (h : skipMember frame fresh e = .ok x) :
    ∃ y, e.rest.head? = some y ∧ y ≠ frame.closing := by
  rcases he : e.rest with _ | ⟨y, cs⟩
  · cases frame <;> cases fresh <;>
      simp [skipMember, skipComma, skipStart, skipKey, Cursor.skipGap, Cursor.skipGapFrom, he,
        bind, Except.bind] at h
  · refine ⟨y, rfl, ?_⟩
    rintro rfl
    cases frame <;> cases fresh <;>
      simp [skipMember, skipComma, skipStart, skipKey, Cursor.skipGap, Cursor.skipGapFrom, he,
        bind, Except.bind, Frame.closing, Cursor.isGap] at h

/-- The containers that are open behind the start of a member. -/
def Frame.push (stack : List Frame) : Option Frame → List Frame
  | none => stack
  | some inner => inner :: stack

/-- The innermost container is closed, or has one more member. -/
theorem skipOpen_iff {frame : Frame} {frames : List Frame} {fresh : Bool} {c d : Cursor} :
    skipOpen (frame :: frames) fresh c = .ok d ↔
      Comp (Passes frame.closing) (fun c d => skipOpen frames false c = .ok d) c d ∨
      ∃ opened, Comp (fun c d => skipMember frame fresh c.skipGap = .ok (opened, d))
        (fun c d => skipOpen (Frame.push (frame :: frames) opened) opened.isSome c = .ok d)
        c d := by
  constructor
  · intro h
    rw [skipOpen] at h
    split at h
    · cases h
    · rename_i x cs hgap
      split at h
      · rename_i hx
        exact .inl ⟨_, passes_iff.2 ⟨by rw [hgap, hx]; rfl, rfl⟩, h⟩
      · split at h
        · cases h
        · rename_i opened behind hskip
          refine .inr ⟨opened, behind, hskip, ?_⟩
          cases opened <;> exact h
  · rintro (⟨e, hpasses, h⟩ | ⟨opened, e, hskip, h⟩)
    · obtain ⟨hhead, rfl⟩ := passes_iff.1 hpasses
      obtain ⟨cs, hcs⟩ := List.head?_eq_some_iff.1 hhead
      rw [skipOpen]
      split
      · rename_i hgap
        cases hgap.symm.trans hcs
      · rename_i hgap
        cases hgap.symm.trans hcs
        rw [if_pos rfl]
        exact h
    · obtain ⟨y, hhead, hy⟩ := head?_of_skipMember hskip
      obtain ⟨cs, hcs⟩ := List.head?_eq_some_iff.1 hhead
      rw [skipOpen]
      split
      · rename_i hgap
        cases hgap.symm.trans hcs
      · rename_i hgap
        cases hgap.symm.trans hcs
        rw [if_neg hy]
        split
        · rename_i hfault
          cases hfault.symm.trans hskip
        · rename_i hopened
          cases hopened.symm.trans hskip
          cases opened <;> exact h

/-- What closes the containers of a stack, the innermost first. -/
def IsRest : List Frame → Bool → List Char → Prop
  | [], _, w => w = []
  | frame :: frames, fresh, w =>
    ∃ u v, IsMembers frame fresh u ∧ IsRest frames false v ∧ w = u ++ v

/-- The start of a member together with what closes the containers that are open behind it. -/
theorem IsRest.of_start {frame : Frame} {frames : List Frame} {fresh : Bool}
    {opened : Option Frame} {separator key w rest : List Char}
    (hseparator : IsSeparator fresh separator) (hkey : IsKey frame key) (hw : IsStart opened w)
    (h : IsRest (Frame.push (frame :: frames) opened) opened.isSome rest) :
    IsRest (frame :: frames) fresh (separator ++ key ++ w ++ rest) := by
  cases opened with
  | none =>
    obtain ⟨u, v, hu, hv, rfl⟩ := h
    exact ⟨_, v, .scalar hseparator hkey hw hu, hv, by simp⟩
  | some inner =>
    obtain ⟨members, _, hmembers, ⟨u, v, hu, hv, rfl⟩, rfl⟩ := h
    obtain rfl : w = [inner.opening] := hw
    exact ⟨_, v, .nested hseparator hkey hmembers hu, hv, by simp⟩

/-- Each round closes a container or starts a member, and takes something in doing so. -/
theorem skipOpen_takes {stack : List Frame} {fresh : Bool} {c d : Cursor}
    (h : skipOpen stack fresh c = .ok d) : ∃ w, IsRest stack fresh w ∧
      Takes (fun c d => skipOpen stack fresh c = .ok d) w c d := by
  match stack with
  | [] =>
    rw [skipOpen] at h
    cases h
    exact ⟨[], rfl, takes_nil fun _ _ => by rw [skipOpen]⟩
  | frame :: frames =>
    rcases skipOpen_iff.1 h with ⟨e, hpasses, h⟩ | ⟨opened, e, hskip, h⟩
    · obtain ⟨g, hg, ht⟩ := hpasses.closes
      have := ht.length_lt
      obtain ⟨w, hw, ht'⟩ := skipOpen_takes h
      exact ⟨_, ⟨_, w, .close hg, hw, rfl⟩, (ht.takes.comp ht').mono fun _ _ _ h' =>
        skipOpen_iff.2 (.inl h')⟩
    · have := Nat.lt_of_lt_of_le (length_of_skipMember hskip) c.length_skipGap_le
      obtain ⟨separator, key, w, hseparator, hkey, hw, ht⟩ := skipMember_takes hskip
      obtain ⟨rest, hrest, ht'⟩ := skipOpen_takes h
      exact ⟨_, .of_start hseparator hkey hw hrest, (ht.comp ht').mono fun _ _ _ h' =>
        skipOpen_iff.2 (.inr ⟨opened, h'⟩)⟩
termination_by c.rest.length

/-! ### Values -/

theorem skipValue_iff {c d : Cursor} :
    skipValue c = .ok d ↔ skipStart c = .ok (none, d) ∨
      ∃ frame, Comp (fun c d => skipStart c = .ok (some frame, d))
        (fun c d => skipOpen [frame] true c = .ok d) c d := by
  simp only [skipValue, bind_eq_ok_iff, Comp]
  constructor
  · rintro ⟨⟨_ | frame, e⟩, hstart, h⟩
    · cases h
      exact .inl hstart
    · exact .inr ⟨frame, e, hstart, h⟩
  · rintro (hstart | ⟨frame, e, hstart, h⟩)
    · exact ⟨_, hstart, rfl⟩
    · exact ⟨_, hstart, h⟩

/-- What is passed over is one value. -/
theorem skipValue_takes {c d : Cursor} (h : skipValue c = .ok d) :
    ∃ g v, IsGap g ∧ IsValue v ∧ Takes (fun c d => skipValue c = .ok d) (g ++ v) c d := by
  rcases skipValue_iff.1 h with hstart | ⟨frame, e, hstart, h⟩
  · obtain ⟨g, w, hg, hw, ht⟩ := skipStart_takes hstart
    exact ⟨g, w, hg, .inl hw, ht.mono fun _ _ _ h' => skipValue_iff.2 (.inl h')⟩
  · obtain ⟨g, _, hg, rfl, ht⟩ := skipStart_takes hstart
    obtain ⟨w, ⟨members, _, hmembers, rfl, rfl⟩, ht'⟩ := skipOpen_takes h
    refine ⟨g, frame.opening :: members, hg, .inr ⟨frame, members, hmembers, rfl⟩, ?_⟩
    have hcomp : Takes (fun c d => skipValue c = .ok d) _ c d := (ht.comp ht').mono
      fun _ _ _ h' => skipValue_iff.2 (.inr ⟨frame, h'⟩)
    simpa using hcomp

end FieldRules.Json
