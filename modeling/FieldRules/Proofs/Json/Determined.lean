import FieldRules.Proofs.Json.PassesOver

/-!
# Readers are determined by the value

What a reader answers to the text of a value, be it a result or a path with a cause, is a function
of that text (`Reader.Determined`), whether the value is of the right kind or not. Scalars are read
to their end; the elements of an array are read one after the other, up to the first that fails.
-/

namespace FieldRules.Json

open Relation (Comp)

/-- The answer to a value is the same wherever it stands and with any gap in front of it. -/
def Reader.Determined {α : Type} (r : Reader α) : Prop :=
  ∀ ⦃v : List Char⦄, IsValue v → ∃ a, ∀ g, IsGap g → Answers r.read (g ++ v) a

/-! ### Kinds of values -/

section

variable {v : List Char}

theorem IsValue.quoted_of_head (h : IsValue v) (hhead : v.head? = some '"') :
    ∃ w, IsQuoted w ∧ v = '"' :: w := by
  rcases h with (@⟨w, hw⟩ | @⟨_, hn⟩ | @⟨w, hw⟩) | ⟨frame, members, -, rfl⟩
  · simp only [List.mem_cons, List.not_mem_nil, or_false] at hw
    rcases hw with rfl | rfl | rfl <;> cases hhead
  · obtain ⟨x, hx, hdigit⟩ := hn.head
    cases hx.symm.trans hhead
    exact absurd hdigit (by decide)
  · exact ⟨w, hw, rfl⟩
  · cases frame <;> cases hhead

theorem IsValue.isNumber_of_head (h : IsValue v) {x : Char} (hhead : v.head? = some x)
    (hx : x = '-' ∨ x.isDigit = true) : IsNumber v := by
  rcases h with (@⟨w, hw⟩ | @⟨_, hn⟩ | @⟨w, hw⟩) | ⟨frame, members, -, rfl⟩
  · simp only [List.mem_cons, List.not_mem_nil, or_false] at hw
    rcases hw with rfl | rfl | rfl <;> cases hhead <;> exact absurd hx (by decide)
  · exact hn
  · cases hhead
    exact absurd hx (by decide)
  · cases frame <;> cases hhead <;> exact absurd hx (by decide)

theorem IsValue.eq_null_of_head (h : IsValue v) (hhead : v.head? = some 'n') :
    v = "null".toList := by
  rcases h with (@⟨w, hw⟩ | @⟨_, hn⟩ | @⟨w, hw⟩) | ⟨frame, members, -, rfl⟩
  · simp only [List.mem_cons, List.not_mem_nil, or_false] at hw
    rcases hw with rfl | rfl | rfl
    · rfl
    all_goals cases hhead
  · obtain ⟨x, hx, hdigit⟩ := hn.head
    cases hx.symm.trans hhead
    exact absurd hdigit (by decide)
  · cases hhead
  · cases frame <;> cases hhead

theorem IsValue.members_of_head (h : IsValue v) (frame : Frame)
    (hhead : v.head? = some frame.opening) :
    ∃ members, IsMembers frame true members ∧ v = frame.opening :: members := by
  rcases h with (@⟨w, hw⟩ | @⟨_, hn⟩ | @⟨w, hw⟩) | ⟨frame', members, hmembers, rfl⟩
  · simp only [List.mem_cons, List.not_mem_nil, or_false] at hw
    rcases hw with rfl | rfl | rfl <;> cases frame <;> cases hhead
  · obtain ⟨x, hx, hdigit⟩ := hn.head
    cases hx.symm.trans hhead
    cases frame <;> exact absurd hdigit (by decide)
  · cases frame <;> cases hhead
  · cases frame <;> cases frame' <;> cases hhead <;> exact ⟨members, hmembers, rfl⟩

end

/-! ### Ways of making readers -/

namespace Reader

variable {α β : Type} {r : Reader α}

/-- A reader starts at the next token, wherever it is asked. -/
def StartsAtToken (r : Reader α) : Prop :=
  ∀ c, r.read c = r.read c.skipGap

/-- Such a reader only has to be asked where a value begins. -/
theorem StartsAtToken.answers (hr : r.StartsAtToken) {v g : List Char} {a : Answer α}
    (hv : Begins v) (hg : IsGap g) (h : Answers r.read v a) : Answers r.read (g ++ v) a := by
  have hseparator : IsSeparator true g := hg
  refine h.separated hseparator hv ?_
  rintro c d rfl -
  exact hr c

theorem StartsAtToken.determined (hr : r.StartsAtToken)
    (h : ∀ v, IsValue v → ∃ a, Answers r.read v a) : r.Determined := by
  intro v hv
  obtain ⟨a, ha⟩ := h v hv
  exact ⟨a, fun g hg => hr.answers hv.begins hg ha⟩

theorem map_answers {w : List Char} {a : Answer α} (h : Answers r.read w a) (f : α → β) :
    Answers (r.map f).read w (a.map f) :=
  h.map f

theorem Determined.map (hr : r.Determined) (f : α → β) : (r.map f).Determined := by
  intro v hv
  obtain ⟨a, ha⟩ := hr hv
  exact ⟨a.map f, fun g hg => map_answers (ha g hg) f⟩

theorem within_read (r : Reader α) (s : Segment) (c : Cursor) :
    (r.within s).read c = (r.read c).mapError (Failure.within s) := by
  simp only [Reader.within]
  cases r.read c <;> rfl

end Reader

/-! ### Scalars -/

theorem readString_read (c : Cursor) :
    readString.read c = if c.skipGap.rest.head? = some '"' then
      (lift (stringAt true c.skipGap)).map fun (s, d) => (String.ofList s, d)
    else unexpected "a string" c.skipGap := by
  simp only [readString]
  generalize c.skipGap = e
  split
  · rename_i cs hcs
    rw [if_pos (by rw [hcs]; rfl), lift_map]
  · rename_i hcs
    rw [if_neg (head?_ne_some hcs)]

theorem readString_startsAtToken : readString.StartsAtToken := by
  intro c
  simp only [readString, Cursor.skipGap_skipGap]

theorem readString_answers {w : List Char} {a : Answer (List Char)}
    (h : Answers (stringTail true) w a) :
    Answers readString.read ('"' :: w) (a.map String.ofList) := by
  refine (h.string.map String.ofList).of_head (begins_cons.2 rfl) fun c hc hhead => ?_
  rw [readString_read, hc, if_pos (hhead.trans List.head?_cons)]

theorem readString_determined : readString.Determined := by
  refine readString_startsAtToken.determined fun v hv => ?_
  by_cases hhead : v.head? = some '"'
  · obtain ⟨w, hw, rfl⟩ := hv.quoted_of_head hhead
    obtain ⟨a, ha⟩ := hw.answers
    exact ⟨_, readString_answers ha⟩
  · obtain ⟨cause, hcause⟩ := hv.answers_unexpected "a string"
    refine ⟨_, hcause.of_head hv.begins fun c hc hhead' => ?_⟩
    rw [readString_read, hc, if_neg (hhead' ▸ hhead)]

/-- A number, where a natural number of 32 bits should stand. -/
def wordOf : Number → Except Cause Nat
  | .integer n =>
    if 0 ≤ n ∧ n.toNat < 1 <<< 32 then .ok n.toNat
    else .error (.invalidValue (.integer n) "u32")
  | .float x => .error (.invalidType (.float x) "u32")

theorem readWord_read (c : Cursor) :
    readWord.read c = if c.skipGap.rest.head?.any fun x => x == '-' || x.isDigit then
      (lift (readNumber c.skipGap)).bind fun (n, d) => judged (wordOf n) d
    else unexpected "u32" c.skipGap := by
  simp only [readWord]
  generalize c.skipGap = e
  split
  · rcases readNumber e with fault | ⟨n | x, d⟩
    · rfl
    · simp only [lift, Except.bind, wordOf]
      split <;> rfl
    · rfl
  · rfl

theorem readWord_startsAtToken : readWord.StartsAtToken := by
  intro c
  simp only [readWord, Cursor.skipGap_skipGap]

theorem readWord_answers {w : List Char} (hw : IsNumber w) {a : Answer Number}
    (h : Answers (fun c => lift (readNumber c)) w a) :
    Answers readWord.read w (a.bind fun n => (wordOf n).mapError ([], ·)) := by
  refine (h.judged wordOf).of_head (IsScalar.number hw).begins fun c hc hhead => ?_
  obtain ⟨x, hx, hdigit⟩ := hw.head
  rw [readWord_read, hc, if_pos (by simpa [hhead, hx] using hdigit)]

theorem readWord_determined : readWord.Determined := by
  refine readWord_startsAtToken.determined fun v hv => ?_
  by_cases hhead : v.head?.any (fun x => x == '-' || x.isDigit) = true
  · obtain ⟨x, hx, hdigit⟩ := (Option.any_eq_true _ _).1 hhead
    have hnumber :=
      hv.isNumber_of_head hx (by simpa only [Bool.or_eq_true, beq_iff_eq] using hdigit)
    obtain ⟨a, ha⟩ := hnumber.answers
    exact ⟨_, readWord_answers hnumber ha⟩
  · obtain ⟨cause, hcause⟩ := hv.answers_unexpected "u32"
    refine ⟨_, hcause.of_head hv.begins fun c hc hhead' => ?_⟩
    rw [readWord_read, hc, if_neg (hhead' ▸ hhead)]

section

variable {α : Type} {r : Reader α}

theorem readOptional_read (c : Cursor) :
    (readOptional r).read c = if c.skipGap.rest.head? = some 'n' then
      lift ((wordAt "null" c.skipGap).map (none, ·))
    else (r.map some).read c.skipGap := by
  simp only [readOptional]
  generalize c.skipGap = e
  split
  · rename_i cs hcs
    rw [if_pos (by rw [hcs]; rfl)]
  · rename_i hcs
    rw [if_neg (head?_ne_some hcs)]

theorem readOptional_startsAtToken : (readOptional r).StartsAtToken := by
  intro c
  simp only [readOptional, Cursor.skipGap_skipGap]

theorem readOptional_answers {v : List Char} {a : Answer α} (hv : Begins v)
    (hhead : v.head? ≠ some 'n') (h : Answers r.read v a) :
    Answers (readOptional r).read v (a.map some) := by
  refine (h.map some).of_head hv fun c hc hhead' => ?_
  rw [readOptional_read, hc, if_neg (hhead' ▸ hhead)]
  rfl

theorem readOptional_determined (hr : r.Determined) : (readOptional r).Determined := by
  refine readOptional_startsAtToken.determined fun v hv => ?_
  by_cases hhead : v.head? = some 'n'
  · obtain rfl := hv.eq_null_of_head hhead
    refine ⟨_, (answers_word "null" none).of_head hv.begins fun c hc hhead' => ?_⟩
    rw [readOptional_read, hc, if_pos (hhead'.trans hhead)]
  · obtain ⟨a, ha⟩ := hr hv
    exact ⟨_, readOptional_answers hv.begins hhead (ha [] isGap_nil)⟩

end

theorem readIgnored_determined {α : Type} (x : α) : (readIgnored x).Determined := by
  refine fun v hv => ⟨.ok x, fun g hg p rest hrest => ?_⟩
  obtain ⟨q, hq⟩ := hv.skipValue_eq hg hrest p
  exact ⟨q, readIgnored_iff.2 ⟨rfl, hq⟩⟩

/-! ### Arrays -/

/-- The members of a container come one after the other; this is what a proof about all of them has
to show. -/
theorem IsMembers.member_induction {frame : Frame}
    {motive : (fresh : Bool) → (w : List Char) → IsMembers frame fresh w → Prop}
    (close : ∀ fresh g (hg : IsGap g), motive fresh _ (.close hg))
    (member : ∀ fresh separator key v cs (hseparator : IsSeparator fresh separator)
      (hkey : IsKey frame key) (hv : IsValue v) (hcs : IsMembers frame false cs),
      motive false cs hcs → motive fresh _ (.member hseparator hkey hv hcs))
    {fresh : Bool} {w : List Char} (h : IsMembers frame fresh w) : motive fresh w h := by
  induction h with
  | close hg => exact close _ _ hg
  | scalar hseparator hkey hvalue hcs ih =>
    exact member _ _ _ _ _ hseparator hkey (.inl hvalue) hcs (ih close member)
  | @nested frame inner _ _ _ members _ hseparator hkey hmembers hcs _ ih =>
    exact member _ _ _ _ _ hseparator hkey (.inr ⟨inner, members, hmembers, rfl⟩) hcs
      (ih close member)

section

variable {α : Type} {r : Reader α}

theorem Begins.head?_eq {cs : List Char} (h : Begins cs) :
    ∃ x, cs.head? = some x ∧ x ≠ ',' ∧ x ≠ ']' ∧ x ≠ '\x7d' := by
  obtain ⟨x, hx, hdelimiter⟩ := h
  refine ⟨x, hx, ?_, ?_, ?_⟩ <;> rintro rfl <;> cases hdelimiter

theorem nextElement_of_separates {first : Bool} {c d : Cursor} (h : Separates first c d)
    (hd : Begins d.rest) : nextElement first c = .ok (true, d) := by
  obtain ⟨x, hx, -, hne, -⟩ := hd.head?_eq
  exact nextElement_true_iff.2 ⟨h, x, hx, hne⟩

theorem readElements_of_next {i : Nat} {c d : Cursor} (h : nextElement (i == 0) c = .ok (true, d)) :
    readElements r i c = ((r.read d).mapError (Failure.within (.index i))).bind fun (x, e) =>
      (readElements r (i + 1) e).map fun (xs, stop) => (x :: xs, stop) := by
  rw [readElements]
  split
  · rename_i hfault
    cases hfault.symm.trans h
  · rename_i hend
    cases hend.symm.trans h
  · rename_i hmore
    cases hmore.symm.trans h
    rw [← Reader.within_read]
    split
    · rename_i hread
      rw [hread]
      rfl
    · rename_i x behind hread
      simp only [hread, Except.bind]
      cases readElements r (i + 1) behind <;> rfl

theorem answers_noElements {i : Nat} {g : List Char} (hg : IsGap g) :
    Answers (readElements r i) (g ++ [']']) (.ok []) := by
  intro p rest _
  obtain ⟨q, hclose⟩ := hg.passes (x := ']') rfl p rest
  exact ⟨q, readElements_iff.2 (.inl ⟨rfl, by simpa using hclose⟩)⟩

/-- One element, and then the others. -/
theorem Answers.element {i : Nat} {separator v cs : List Char} {a : Answer α}
    {b : Answer (List α)} (hseparator : IsSeparator (i == 0) separator) (hv : Begins v)
    (hcs : Delimited cs) (ha : Answers r.read v a) (hb : Answers (readElements r (i + 1)) cs b) :
    Answers (readElements r i) (separator ++ v ++ cs)
      ((a.within (.index i)).bind fun x => b.map (x :: ·)) := by
  have helement := (ha.within (.index i)).bind hcs fun x _ => hb.map (x :: ·)
  rw [List.append_assoc]
  refine helement.separated hseparator (hv.append cs) fun c d hcd hd => ?_
  exact readElements_of_next (nextElement_of_separates hcd ((hv.append cs).of_head hd))

/-- A failure lies in one of the elements. -/
theorem readElements_determined (hr : r.Determined) {fresh : Bool} {w : List Char}
    (h : IsMembers .list fresh w) : ∀ i, (i == 0) = fresh → ∃ a, Answers (readElements r i) w a ∧
      ∀ path cause, a = .error (path, cause) → ∃ j tail, path = .index j :: tail := by
  induction h using IsMembers.member_induction with
  | close fresh g hg =>
    exact fun i _ => ⟨_, answers_noElements hg, fun path cause h => by cases h⟩
  | member fresh separator key v cs hseparator hkey hv hcs ih =>
    rintro i rfl
    cases hkey
    obtain ⟨a, ha⟩ := hr hv
    obtain ⟨b, hb, hpath⟩ := ih (i + 1) rfl
    refine ⟨_, by simpa using
      (ha [] isGap_nil).element hseparator hv.begins hcs.delimited hb, ?_⟩
    intro path cause heq
    rcases a with ⟨path', cause'⟩ | x
    · cases heq
      exact ⟨i, path', rfl⟩
    · exact hpath path cause (by simpa [Answer.within, Except.bind, map_eq_error_iff] using heq)

theorem readList_read (c : Cursor) :
    (readList r).read c = if c.skipGap.rest.head? = some '[' then
      readElements r 0 c.skipGap.advance
    else unexpected "a sequence" c.skipGap := by
  simp only [readList]
  generalize c.skipGap = e
  split
  · rename_i cs hcs
    rw [if_pos (by rw [hcs]; rfl)]
  · rename_i hcs
    rw [if_neg (head?_ne_some hcs)]

/-- A container that is opened, and what its members answer. -/
theorem Answers.opened {f : Cursor → Except Failure (α × Cursor)} {w : List Char} {a : Answer α}
    (h : Answers f w a) (x : Char) : Answers (fun c => f c.advance) (x :: w) a :=
  fun p rest hrest => h (p.next x) rest hrest

theorem readList_startsAtToken : (readList r).StartsAtToken := by
  intro c
  simp only [readList, Cursor.skipGap_skipGap]

theorem readList_answers {w : List Char} {a : Answer (List α)}
    (h : Answers (readElements r 0) w a) : Answers (readList r).read ('[' :: w) a := by
  refine (h.opened '[').of_head (begins_cons.2 rfl) fun c hc hhead => ?_
  rw [readList_read, hc, if_pos (hhead.trans List.head?_cons)]

theorem readList_determined (hr : r.Determined) : (readList r).Determined := by
  refine readList_startsAtToken.determined fun v hv => ?_
  by_cases hhead : v.head? = some '['
  · obtain ⟨members, hmembers, rfl⟩ := hv.members_of_head .list hhead
    obtain ⟨a, ha, -⟩ := readElements_determined hr hmembers 0 rfl
    exact ⟨a, readList_answers ha⟩
  · obtain ⟨cause, hcause⟩ := hv.answers_unexpected "a sequence"
    refine ⟨_, hcause.of_head hv.begins fun c hc hhead' => ?_⟩
    rw [readList_read, hc, if_neg (hhead' ▸ hhead)]

end

end FieldRules.Json
