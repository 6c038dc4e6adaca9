import FieldRules.Proofs.Json.Determined
import Mathlib.Tactic.Choose

/-!
# Records are determined by the value

The reader of a record is determined by the text of the value if the readers of its fields are. The
members of an object may be in any order, unknown or given twice, and an array may have fewer or
more elements than there are fields.
-/

namespace FieldRules.Json

/-! ### Objects -/

/-- The answer to the value of a field does not depend on where the value stands. -/
def RecordForm.Determined {δ α : Type} (form : RecordForm δ α) : Prop :=
  ∀ slot ∈ form.slots, ∀ draft, (slot.fill draft).Determined

theorem Answers.memberValue {α : Type} {r : Reader α} {g w : List Char} {a : Answer α}
    (h : Answers r.read w a) (hg : IsGap g) (key : String) :
    Answers (readMemberValue key r).read (g ++ ':' :: w) (a.within (.key key)) := by
  intro p rest hrest
  obtain ⟨q, hcolon⟩ := hg.passes (x := ':') rfl p (w ++ rest)
  obtain ⟨q', hq'⟩ := h.within (.key key) q rest hrest
  refine ⟨q', ?_⟩
  simp only [readMemberValue, List.append_assoc, List.cons_append, colonAt_iff.2 hcolon]
  rw [Reader.within_read]
  exact hq'

theorem answers_refuse {α : Type} (path : List Segment) (cause : Cause)
    (place : Cursor → Position) (w : List Char) :
    Answers (Reader.refuse fun c => ⟨path, cause, place c⟩ : Reader α).read w
      (.error (path, cause)) :=
  fun _ _ _ => ⟨_, rfl⟩

section

variable {δ α : Type} {form : RecordForm δ α}

theorem readMembers_of_next {first : Bool} {draft : δ} {c d : Cursor}
    (h : nextKey first c = .ok (true, d)) :
    readMembers form first draft c =
      ((lift (stringAt true d)).mapError (Failure.within .unknown)).bind fun (key, e) =>
        ((readMember form draft (String.ofList key)).read e).bind fun (filled, stop) =>
          readMembers form false filled stop := by
  rw [readMembers]
  split
  · rename_i hfault
    cases hfault.symm.trans h
  · rename_i hend
    cases hend.symm.trans h
  · rename_i hmore
    cases hmore.symm.trans h
    split
    · rename_i hkey
      rw [hkey]
      rfl
    · rename_i key behind hkey
      simp only [hkey, lift, Except.mapError, Except.bind]
      split
      · rename_i hmember
        rw [hmember]
      · rename_i hmember
        rw [hmember]

theorem answers_noMembers {first : Bool} {draft : δ} {g : List Char} (hg : IsGap g) :
    Answers (readMembers form first draft) (g ++ ['\x7d']) (.ok draft) := by
  intro p rest _
  obtain ⟨q, hclose⟩ := hg.passes (x := '\x7d') rfl p rest
  exact ⟨q, readMembers_iff.2 (.inl ⟨rfl, by simpa using hclose⟩)⟩

/-- One member, and then the others with the draft as it is then. -/
theorem Answers.member {first : Bool} {draft : δ} {separator key w cs : List Char}
    {k : Answer (List Char)} {a : List Char → Answer δ} {b : δ → Answer δ}
    (hkey : Answers (stringTail true) key k) (hseparator : IsSeparator first separator)
    (hw : Delimited w) (hcs : Delimited cs)
    (ha : ∀ x, k = .ok x → Answers (readMember form draft (String.ofList x)).read w (a x))
    (hb : ∀ x filled, k = .ok x → a x = .ok filled →
      Answers (readMembers form false filled) cs (b filled)) :
    Answers (readMembers form first draft) (separator ++ ('"' :: key ++ (w ++ cs)))
      ((k.within .unknown).bind fun x => (a x).bind b) := by
  have hmember := (hkey.string.within .unknown).bind (hw.append hcs) fun x hx => by
    have hx' : k = .ok x := by
      cases k with
      | error f => cases hx
      | ok y => exact hx
    exact (ha x hx').bind hcs (hb x · hx')
  refine hmember.separated hseparator (begins_cons.2 rfl) fun c d hcd hd => ?_
  exact readMembers_of_next (nextKey_true_iff.2 ⟨hcd, hd⟩)

theorem readMember_of_slot {draft : δ} {key : String} {slot : Slot δ}
    (hslot : form.slots.find? (·.key == key) = some slot) (hfilled : slot.isFilled draft = false) :
    readMember form draft key = readMemberValue key (slot.fill draft) := by
  simp [readMember, hslot, hfilled]

/-- A field that the draft does not have yet, and then the other members. -/
theorem Answers.slot {first : Bool} {draft : δ} {key : String} {slot : Slot δ}
    {separator tail g w cs : List Char} {a : Answer δ} {b : δ → Answer δ}
    (hkey : Answers (stringTail true) tail (.ok key.toList))
    (hslot : form.slots.find? (·.key == key) = some slot) (hfilled : slot.isFilled draft = false)
    (hseparator : IsSeparator first separator) (hg : IsGap g)
    (ha : Answers (slot.fill draft).read w a) (hcs : Delimited cs)
    (hb : ∀ filled, a = .ok filled → Answers (readMembers form false filled) cs (b filled)) :
    Answers (readMembers form first draft) (separator ++ ('"' :: tail ++ (g ++ ':' :: w ++ cs)))
      ((a.within (.key key)).bind b) := by
  have hw : Delimited (g ++ ':' :: w) := (delimited_of_isGap hg).append (delimited_cons.2 rfl)
  refine hkey.member (a := fun _ => a.within (.key key)) hseparator hw hcs ?_ ?_
  · rintro _ ⟨⟩
    rw [String.ofList_toList, readMember_of_slot hslot hfilled]
    exact ha.memberValue hg key
  · rintro _ filled ⟨⟩ hfill
    cases a with
    | error f => cases hfill
    | ok x => exact hb filled hfill

theorem readMember_determined (hform : form.Determined) (draft : δ) (key : String)
    {g g' v : List Char} (hg : IsGap g) (hg' : IsGap g') (hv : IsValue v) :
    ∃ a, Answers (readMember form draft key).read (g ++ ':' :: (g' ++ v)) a := by
  unfold readMember
  split
  · rename_i slot hslot
    split
    · exact ⟨_, answers_refuse _ _ _ _⟩
    · obtain ⟨a, ha⟩ := hform slot (List.mem_of_find?_eq_some hslot) draft hv
      exact ⟨_, (ha g' hg').memberValue hg key⟩
  · split
    · exact ⟨_, answers_refuse _ _ _ _⟩
    · obtain ⟨a, ha⟩ := readIgnored_determined draft hv
      exact ⟨_, (ha g' hg').memberValue hg key⟩

theorem readMembers_determined (hform : form.Determined) {first : Bool} {w : List Char}
    (h : IsMembers .map first w) (draft : δ) :
    ∃ a, Answers (readMembers form first draft) w a := by
  induction h using IsMembers.member_induction generalizing draft with
  | close first g hg => exact ⟨_, answers_noMembers hg⟩
  | member first separator key v cs hseparator hkey hv hcs ih =>
    obtain - | @⟨key, g, g', hquoted, hg, hg'⟩ := hkey
    obtain ⟨k, hk⟩ := hquoted.answers
    choose a ha using fun x => readMember_determined hform draft (String.ofList x) hg hg' hv
    choose b hb using ih
    have hw : Delimited (g ++ ':' :: (g' ++ v)) :=
      (delimited_of_isGap hg).append (delimited_cons.2 rfl)
    have hmember := Answers.member hk hseparator hw hcs.delimited (fun x _ => ha x)
      fun _ filled _ _ => hb filled
    exact ⟨_, by simpa using hmember⟩

/-- The record of a draft that a container has filled, at the end of the container. -/
def RecordForm.finished (form : RecordForm δ α) (cause : String → Cause) (draft : δ) :
    Except Cause α :=
  (form.finish draft).mapError cause

theorem readObject_eq :
    readObject form = fun c => (readMembers form true form.blank c).bind fun (draft, d) =>
      judged (form.finished .missingField draft) d := by
  funext c
  unfold readObject
  rcases readMembers form true form.blank c with f | ⟨draft, d⟩
  · rfl
  · simp only [Except.bind, RecordForm.finished]
    cases form.finish draft <;> rfl

/-! ### Records in arrays -/

theorem readSlots_of_next {i : Nat} {draft : δ} {slot : Slot δ} {slots : List (Slot δ)}
    {c d : Cursor} (h : nextElement (i == 0) c = .ok (true, d)) :
    readSlots i draft c (slot :: slots) =
      (((slot.fill draft).read d).mapError (Failure.within (.index i))).bind fun (filled, e) =>
        readSlots (i + 1) filled e slots := by
  simp only [readSlots, h, ← Reader.within_read]
  cases ((slot.fill draft).within (.index i)).read d <;> rfl

/-- An array with more elements than there are fields. -/
theorem closeArray_of_separates {first : Bool} {c d : Cursor} (h : Separates first c d)
    (hd : Begins d.rest) : ∃ q, closeArray c = .error ⟨.trailingCharacters, q⟩ := by
  obtain ⟨x, hx, hcomma, hclose, -⟩ := hd.head?_eq
  obtain ⟨cs, hcs⟩ := List.head?_eq_some_iff.1 hx
  cases first with
  | true =>
    obtain rfl : c.skipGap = d := h
    exact ⟨_, by simp [closeArray, hcs, hcomma, hclose]; rfl⟩
  | false =>
    obtain ⟨e, hpasses, rfl⟩ := h
    obtain ⟨hhead, rfl⟩ := passes_iff.1 hpasses
    obtain ⟨cs', hcs'⟩ := List.head?_eq_some_iff.1 hhead
    exact ⟨_, by simp [closeArray, hcs, hcs', hclose]; rfl⟩

theorem answers_noSlots {i : Nat} {draft : δ} {slots : List (Slot δ)} {g : List Char}
    (hg : IsGap g) : Answers (readSlots i draft · slots) (g ++ [']']) (.ok draft) := by
  intro p rest _
  obtain ⟨q, hclose⟩ := hg.passes (x := ']') rfl p rest
  refine ⟨q, ?_⟩
  cases slots with
  | nil => exact readSlots_nil_iff.2 ⟨rfl, by simpa using hclose⟩
  | cons slot slots => exact readSlots_cons_iff.2 (.inl ⟨rfl, by simpa using hclose⟩)

theorem readSlots_determined {slots : List (Slot δ)}
    (hslots : ∀ slot ∈ slots, ∀ draft, (slot.fill draft).Determined) {first : Bool}
    {w : List Char} (h : IsMembers .list first w) :
    ∀ i, (i == 0) = first → ∀ draft, ∃ a, Answers (readSlots i draft · slots) w a := by
  induction slots generalizing first w with
  | nil =>
    induction h using IsMembers.member_induction with
    | close first g hg => exact fun _ _ _ => ⟨_, answers_noSlots hg⟩
    | member first separator key v cs hseparator hkey hv hcs _ =>
      cases hkey
      refine fun i _ draft => ⟨.error ([], .trailingCharacters), fun p rest _ => ?_⟩
      have hbegins : Begins (v ++ (cs ++ rest)) := hv.begins.append _
      obtain ⟨q, hseparates⟩ := hseparator.separates hbegins p
      obtain ⟨q', hclose⟩ := closeArray_of_separates hseparates hbegins
      exact ⟨q', by simp [readSlots, hclose, lift, failed, Except.map]⟩
  | cons slot slots ih =>
    obtain ⟨hslot, hslots⟩ := List.forall_mem_cons.1 hslots
    induction h using IsMembers.member_induction with
    | close first g hg => exact fun _ _ _ => ⟨_, answers_noSlots hg⟩
    | member first separator key v cs hseparator hkey hv hcs _ =>
      cases hkey
      rintro i rfl draft
      obtain ⟨a, ha⟩ := hslot draft hv
      choose b hb using ih hslots hcs (i + 1) rfl
      have hmember := ((ha [] isGap_nil).within (.index i)).bind hcs.delimited fun x _ => hb x
      have hv' := hv.begins.append cs
      have hslots := hmember.separated (h := (readSlots i draft · (slot :: slots))) hseparator hv'
        fun c d hcd hd => readSlots_of_next (nextElement_of_separates hcd (hv'.of_head hd))
      exact ⟨_, by simpa using hslots⟩

/-- An array that ends before all fields are given. -/
def RecordForm.tooShort (form : RecordForm δ α) (key : String) : Cause :=
  .invalidLength (form.slots.findIdx (·.key == key))
    (form.title ++ " with " ++ String.ofList (Numeral.digits form.slots.length) ++ " elements")

theorem readTuple_eq :
    readTuple form = fun c => (readSlots 0 form.blank c form.slots).bind fun (draft, d) =>
      judged (form.finished form.tooShort draft) d := by
  funext c
  unfold readTuple
  rcases readSlots 0 form.blank c form.slots with f | ⟨draft, d⟩
  · rfl
  · simp only [Except.bind, RecordForm.finished]
    cases form.finish draft <;> rfl

theorem readTuple_determined (hform : form.Determined) {w : List Char}
    (h : IsMembers .list true w) : ∃ a, Answers (readTuple form) w a := by
  obtain ⟨a, ha⟩ := readSlots_determined hform h 0 rfl form.blank
  rw [readTuple_eq]
  exact ⟨_, ha.judged _⟩

/-! ### Records -/

theorem readRecord_read (c : Cursor) :
    (readRecord form).read c = if c.skipGap.rest.head? = some '[' then
      readTuple form c.skipGap.advance
    else if c.skipGap.rest.head? = some '\x7b' then readObject form c.skipGap.advance
    else unexpected form.title c.skipGap := by
  simp only [readRecord]
  generalize c.skipGap = e
  split
  · rename_i cs hcs
    rw [if_pos (by rw [hcs]; rfl)]
  · rename_i cs hcs
    rw [if_neg (by simp [hcs]), if_pos (by rw [hcs]; rfl)]
  · rename_i hlist hmap
    rw [if_neg (head?_ne_some hlist), if_neg (head?_ne_some hmap)]

theorem readRecord_startsAtToken : (readRecord form).StartsAtToken := by
  intro c
  simp only [readRecord, Cursor.skipGap_skipGap]

/-- An object is read member by member. -/
theorem readRecord_answers {w : List Char} {a : Answer δ}
    (h : Answers (readMembers form true form.blank) w a) :
    Answers (readRecord form).read ('\x7b' :: w)
      (a.bind fun draft => (form.finished .missingField draft).mapError ([], ·)) := by
  have hobject := h.judged (form.finished .missingField)
  rw [← readObject_eq] at hobject
  refine (hobject.opened '\x7b').of_head (begins_cons.2 rfl) fun c hc hhead => ?_
  rw [readRecord_read, hc, if_neg (by simp [hhead]), if_pos (hhead.trans List.head?_cons)]

theorem readRecord_determined (hform : form.Determined) : (readRecord form).Determined := by
  refine readRecord_startsAtToken.determined fun v hv => ?_
  by_cases hlist : v.head? = some '['
  · obtain ⟨members, hmembers, rfl⟩ := hv.members_of_head .list hlist
    obtain ⟨a, ha⟩ := readTuple_determined hform hmembers
    refine ⟨a, (ha.opened '[').of_head hv.begins fun c hc hhead => ?_⟩
    rw [readRecord_read, hc, if_pos (hhead.trans hlist)]
  by_cases hmap : v.head? = some '\x7b'
  · obtain ⟨members, hmembers, rfl⟩ := hv.members_of_head .map hmap
    obtain ⟨a, ha⟩ := readMembers_determined hform hmembers form.blank
    exact ⟨_, readRecord_answers ha⟩
  · obtain ⟨cause, hcause⟩ := hv.answers_unexpected form.title
    refine ⟨_, hcause.of_head hv.begins fun c hc hhead => ?_⟩
    rw [readRecord_read, hc, if_neg (hhead ▸ hlist), if_neg (hhead ▸ hmap)]

end

end FieldRules.Json
