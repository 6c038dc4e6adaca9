import FieldRules.Proofs.Json.Scalars

/-!
# Every value is passed over

A member that is not a field may hold any value. `skipValue` passes over each of them, a scalar as
well as a container of any depth, and stops right behind it.
-/

namespace FieldRules.Json

open Relation (Comp)

theorem IsScalar.scalarAt {v rest : List Char} (h : IsScalar v) (hrest : Delimited rest)
    (p : Position) : ∃ q, ScalarAt ⟨p, v ++ rest⟩ ⟨q, rest⟩ := by
  cases h with
  | @word w hw =>
    obtain ⟨q, hq⟩ := wordFrom_append p w.toList rest
    exact ⟨q, .inl ⟨w, hw, hq⟩⟩
  | number hn =>
    obtain ⟨t, ht⟩ := hn.numberAt_append
    obtain ⟨q, hq⟩ := ht false p rest hrest
    exact ⟨q, .inr (.inl ⟨t, hq⟩)⟩
  | string hs =>
    obtain ⟨s, hs⟩ := hs.answers_passing
    obtain ⟨q, hq⟩ := hs.string p rest hrest
    exact ⟨q, .inr (.inr ⟨s, rfl, lift_eq_ok_iff.1 hq⟩)⟩

theorem IsStart.begins {opened : Option Frame} {w : List Char} (h : IsStart opened w) :
    Begins w := by
  cases opened with
  | none => exact IsScalar.begins h
  | some frame =>
    obtain rfl : w = [frame.opening] := h
    cases frame <;> exact begins_cons.2 rfl

theorem isStart_opening (frame : Frame) : IsStart (some frame) [frame.opening] := rfl

theorem IsStart.skipStart_eq {opened : Option Frame} {g w rest : List Char}
    (h : IsStart opened w) (hg : IsGap g) (hrest : opened = none → Delimited rest)
    (p : Position) : ∃ q, skipStart ⟨p, g ++ w ++ rest⟩ = .ok (opened, ⟨q, rest⟩) := by
  obtain ⟨q, hq⟩ := hg.skipGap_eq (h.begins.append rest).isGap_eq_false p
  rw [List.append_assoc]
  cases opened with
  | none =>
    obtain ⟨q', hscalar⟩ := IsScalar.scalarAt h (hrest rfl) q
    exact ⟨q', skipStart_none_iff.2 ⟨_, hq, hscalar⟩⟩
  | some frame =>
    obtain rfl : w = [frame.opening] := h
    exact ⟨_, skipStart_some_iff.2 (passes_iff.2 ⟨by rw [hq]; rfl, by rw [hq]; rfl⟩)⟩

/-! ### Members -/

/-- What is left of a separator behind its comma is a gap. -/
theorem IsSeparator.skipComma_eq {fresh : Bool} {separator cs : List Char}
    (h : IsSeparator fresh separator) (hcs : Begins cs) (frame : Frame) (p : Position) :
    ∃ q g, IsGap g ∧
      skipComma frame fresh (Cursor.skipGap ⟨p, separator ++ cs⟩) = .ok ⟨q, g ++ cs⟩ := by
  cases fresh with
  | true =>
    obtain ⟨q, hq⟩ := IsGap.skipGap_eq h hcs.isGap_eq_false p
    exact ⟨q, [], isGap_nil, by rw [hq]; rfl⟩
  | false =>
    obtain ⟨g, g', hg, hg', rfl⟩ := h
    obtain ⟨q, hq⟩ := hg.skipGap_cons (x := ',') rfl p (g' ++ cs)
    refine ⟨q.next ',', g', hg', ?_⟩
    rw [List.append_assoc, List.cons_append, hq]
    rfl

theorem IsQuoted.keyAt {key g : List Char} (hkey : IsQuoted key) (hg : IsGap g) (p : Position)
    (cs : List Char) : ∃ q, KeyAt ⟨p, '"' :: (key ++ (g ++ ':' :: cs))⟩ ⟨q, cs⟩ := by
  obtain ⟨s, hs⟩ := hkey.answers_passing
  have hdelimited : Delimited (g ++ ':' :: cs) :=
    (delimited_of_isGap hg).append (delimited_cons.2 rfl)
  obtain ⟨q, hq⟩ := hs.string p _ hdelimited
  obtain ⟨q', hcolon⟩ := hg.passes (x := ':') rfl q cs
  exact ⟨q', s, ⟨q, _⟩, ⟨rfl, lift_eq_ok_iff.1 hq⟩, hcolon⟩

theorem skipMember_append {frame : Frame} {fresh : Bool} {opened : Option Frame}
    {separator key w rest : List Char} (hseparator : IsSeparator fresh separator)
    (hkey : IsKey frame key) (hw : IsStart opened w) (hrest : opened = none → Delimited rest)
    (p : Position) :
    ∃ q, skipMember frame fresh (Cursor.skipGap ⟨p, separator ++ key ++ w ++ rest⟩) =
      .ok (opened, ⟨q, rest⟩) := by
  cases hkey with
  | list =>
    obtain ⟨q, g, hg, hcomma⟩ := hseparator.skipComma_eq (hw.begins.append rest) .list p
    obtain ⟨q', hstart⟩ := hw.skipStart_eq hg hrest q
    refine ⟨q', skipMember_list_iff.2 ⟨_, by simpa using hcomma, by simpa using hstart⟩⟩
  | @map key g g' hquoted hg hg' =>
    have hbegins : Begins ('"' :: (key ++ (g ++ ':' :: (g' ++ w ++ rest)))) := begins_cons.2 rfl
    obtain ⟨q, g₀, hg₀, hcomma⟩ := hseparator.skipComma_eq hbegins .map p
    obtain ⟨q₁, hgap⟩ := hg₀.skipGap_eq hbegins.isGap_eq_false q
    obtain ⟨q₂, hkey⟩ := hquoted.keyAt hg q₁ (g' ++ w ++ rest)
    obtain ⟨q₃, hstart⟩ := hw.skipStart_eq hg' hrest q₂
    exact ⟨q₃, skipMember_map_iff.2
      ⟨_, by simpa using hcomma, _, skipKey_iff.2 ⟨_, hgap, hkey⟩, hstart⟩⟩

/-! ### Containers -/

/-- Something may stand behind the members that are still to come. -/
theorem IsMembers.delimited {frame : Frame} {w : List Char} (h : IsMembers frame false w) :
    Delimited w := by
  cases h with
  | close hg => exact (delimited_of_isGap hg).append (delimited_cons.2 (by cases frame <;> rfl))
  | scalar hseparator _ _ _ => simpa using hseparator.delimited _
  | nested hseparator _ _ _ => simpa using hseparator.delimited _

/-- The members of the innermost container are passed over together with its bracket, and the next
container is the innermost one. -/
theorem IsMembers.skipOpen_eq {frame : Frame} {fresh : Bool} {w : List Char}
    (h : IsMembers frame fresh w) (frames : List Frame) {rest : List Char}
    (hrest : Delimited rest) (p : Position) :
    ∃ q, ∀ d, skipOpen frames false ⟨q, rest⟩ = .ok d →
      skipOpen (frame :: frames) fresh ⟨p, w ++ rest⟩ = .ok d := by
  induction h generalizing frames rest p with
  | @close frame fresh g hg =>
    obtain ⟨q, hclose⟩ := hg.passes (x := frame.closing) (by cases frame <;> rfl) p rest
    exact ⟨q, fun d hd => skipOpen_iff.2 (.inl ⟨_, by simpa using hclose, hd⟩)⟩
  | @scalar frame fresh separator key value cs hseparator hkey hvalue hcs ih =>
    have hstart : IsStart none value := hvalue
    obtain ⟨q, hmember⟩ :=
      skipMember_append hseparator hkey hstart (fun _ => hcs.delimited.append hrest) p
    obtain ⟨q', hq'⟩ := ih frames hrest q
    exact ⟨q', fun d hd => skipOpen_iff.2 (.inr ⟨none, _, by simpa using hmember, hq' d hd⟩)⟩
  | @nested frame inner fresh separator key members cs hseparator hkey _ hcs ihmembers ih =>
    have hnone : some inner = none → Delimited (members ++ (cs ++ rest)) := by simp
    obtain ⟨q, hmember⟩ := skipMember_append hseparator hkey (isStart_opening inner) hnone p
    obtain ⟨q₁, hq₁⟩ := ihmembers (frame :: frames) (hcs.delimited.append hrest) q
    obtain ⟨q₂, hq₂⟩ := ih frames hrest q₁
    exact ⟨q₂, fun d hd => skipOpen_iff.2
      (.inr ⟨some inner, _, by simpa using hmember, hq₁ d (hq₂ d hd)⟩)⟩

theorem IsValue.skipValue_eq {g v rest : List Char} (h : IsValue v) (hg : IsGap g)
    (hrest : Delimited rest) (p : Position) :
    ∃ q, skipValue ⟨p, g ++ v ++ rest⟩ = .ok ⟨q, rest⟩ := by
  rcases h with hscalar | ⟨frame, members, hmembers, rfl⟩
  · have hstart : IsStart none v := hscalar
    obtain ⟨q, hq⟩ := hstart.skipStart_eq hg (fun _ => hrest) p
    exact ⟨q, skipValue_iff.2 (.inl hq)⟩
  · have hnone : some frame = none → Delimited (members ++ rest) := by simp
    obtain ⟨q, hq⟩ := (isStart_opening frame).skipStart_eq hg hnone p
    obtain ⟨q', hq'⟩ := hmembers.skipOpen_eq [] hrest q
    exact ⟨q', skipValue_iff.2 (.inr ⟨frame, _, by simpa using hq, hq' _ (by rw [skipOpen])⟩)⟩

end FieldRules.Json
