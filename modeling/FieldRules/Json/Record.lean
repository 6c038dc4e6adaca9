import FieldRules.Json.Reader

/-!
# Records in JSON

A record has named fields. It is written as an object, whose members may come in any order, or as an
array of the fields in their order. A `RecordForm` says how a record is read: its fields fill a
draft, and the draft makes the record, unless a field is missing.

Members that are not fields are passed over, or refused if the form is closed.
-/

namespace FieldRules.Json

/-- A field of a record that is filled into a draft. -/
structure Slot (δ : Type) where
  /-- The key of the field. -/
  key : String
  /-- Whether the draft has the field. -/
  isFilled : δ → Bool
  /-- Reads the field into the draft. -/
  fill : δ → Reader δ

/-- How a record is read. -/
structure RecordForm (δ α : Type) where
  /-- The name of the form in errors. -/
  title : String
  /-- The fields in order. -/
  slots : List (Slot δ)
  /-- Whether members that are not fields are refused. -/
  closed : Bool
  /-- The draft without fields. -/
  blank : δ
  /-- The record of a draft, or the key of the first field that is missing. -/
  finish : δ → Except String α

/-! ### Objects -/

/-- Whether a member follows in an object, and the place of its key or of the closing brace; `first`
says that no member has been read yet. -/
def nextKey (first : Bool) (c : Cursor) : Except Fault (Bool × Cursor) :=
  let c := c.skipGap
  match c.rest with
  | [] => .error ⟨.eofObject, c.peek⟩
  | '\x7d' :: _ => .ok (false, c)
  | x :: _ =>
    if first then if x = '"' then .ok (true, c) else .error ⟨.keyMustBeString, c.peek⟩
    else if x = ',' then
      let c := c.advance.skipGap
      match c.rest with
      | [] => .error ⟨.eofValue, c.peek⟩
      | '"' :: _ => .ok (true, c)
      | '\x7d' :: _ => .error ⟨.trailingComma, c.peek⟩
      | _ => .error ⟨.keyMustBeString, c.peek⟩
    else .error ⟨.expectedObjectCommaOrEnd, c.peek⟩

/-- Where a key is refused: behind the gap that follows it, and behind the brace if the object ends
there. -/
def refusedAt (c : Cursor) : Position :=
  let c := c.skipGap
  match c.rest with
  | '\x7d' :: _ => c.advance.position
  | _ => c.position

theorem length_of_nextKey {first more : Bool} {c d : Cursor}
    (h : nextKey first c = .ok (more, d)) : d.rest.length ≤ c.rest.length := by
  have := c.length_skipGap_le
  have := c.skipGap.length_advance_le
  have := c.skipGap.advance.length_skipGap_le
  unfold nextKey at h
  simp only at h
  repeat' split at h
  all_goals cases h
  all_goals omega

/-- Reads a value behind its colon. -/
def readMemberValue {α : Type} (key : String) (r : Reader α) : Reader α where
  read c :=
    match colonAt c with
    | .error fault => failed fault
    | .ok c => (r.within (.key key)).read c
  shorter {c d x} h := by
    split at h
    · cases h
    · rename_i e he
      exact Nat.lt_trans ((r.within _).shorter h) (length_of_colonAt he)

/-- Passes over a value. -/
def readIgnored {α : Type} (x : α) : Reader α where
  read c := lift ((skipValue c).map (x, ·))
  shorter h := by
    obtain ⟨e, he, heq⟩ := map_eq_ok_iff.1 (lift_eq_ok_iff.1 h)
    cases heq
    exact length_of_skipValue he

/-- Reads the member with the given key into a draft, from behind the key on. -/
def readMember {δ α : Type} (form : RecordForm δ α) (draft : δ) (key : String) : Reader δ :=
  match form.slots.find? (·.key == key) with
  | some slot =>
    if slot.isFilled draft then .refuse fun c => ⟨[], .duplicateField key, refusedAt c⟩
    else readMemberValue key (slot.fill draft)
  | none =>
    if form.closed then
      .refuse fun c => ⟨[.key key], .unknownField key (form.slots.map (·.key)), refusedAt c⟩
    else readMemberValue key (readIgnored draft)

/-- Reads the members of an object into a draft, and the closing brace. -/
def readMembers {δ α : Type} (form : RecordForm δ α) (first : Bool) (draft : δ) (c : Cursor) :
    Except Failure (δ × Cursor) :=
  match hnext : nextKey first c with
  | .error fault => .error ⟨[.unknown], fault⟩
  | .ok (false, here) => .ok (draft, here.advance)
  | .ok (true, here) =>
    match hkey : stringAt true here with
    | .error fault => .error ⟨[.unknown], fault⟩
    | .ok (key, behindKey) =>
      match hmember : (readMember form draft (String.ofList key)).read behindKey with
      | .error f => .error f
      | .ok (filled, behind) =>
        have := Nat.lt_of_lt_of_le
          (Nat.lt_trans ((readMember _ _ _).shorter hmember) (length_of_stringAt hkey))
          (length_of_nextKey hnext)
        readMembers form false filled behind
termination_by c.rest.length

theorem length_of_readMembers {δ α : Type} {form : RecordForm δ α} {first : Bool} {draft x : δ}
    {c d : Cursor} (h : readMembers form first draft c = .ok (x, d)) :
    d.rest.length ≤ c.rest.length := by
  fun_induction readMembers form first draft c with
  | case1 => cases h
  | case2 _ _ _ here hnext =>
    cases h
    exact Nat.le_trans here.length_advance_le (length_of_nextKey hnext)
  | case3 => cases h
  | case4 => cases h
  | case5 _ _ _ _ _ _ _ _ _ _ _ hless ih =>
    have := ih h
    omega

/-- Reads a record from the members of an object. -/
def readObject {δ α : Type} (form : RecordForm δ α) (c : Cursor) : Except Failure (α × Cursor) :=
  match readMembers form true form.blank c with
  | .error f => .error f
  | .ok (draft, behind) =>
    match form.finish draft with
    | .ok x => .ok (x, behind)
    | .error key => failed ⟨.missingField key, behind.position⟩

theorem length_of_readObject {δ α : Type} {form : RecordForm δ α} {c d : Cursor} {x : α}
    (h : readObject form c = .ok (x, d)) : d.rest.length ≤ c.rest.length := by
  unfold readObject at h
  split at h
  · cases h
  · rename_i draft e he
    split at h
    · cases h
      exact length_of_readMembers he
    · cases h

/-! ### Arrays -/

/-- The end of an array that holds all fields. -/
def closeArray (c : Cursor) : Except Fault Cursor :=
  let c := c.skipGap
  match c.rest with
  | [] => .error ⟨.eofList, c.peek⟩
  | ']' :: _ => .ok c.advance
  | ',' :: _ =>
    let c := c.advance.skipGap
    match c.rest with
    | ']' :: _ => .error ⟨.trailingComma, c.peek⟩
    | _ => .error ⟨.trailingCharacters, c.peek⟩
  | _ => .error ⟨.trailingCharacters, c.peek⟩

theorem length_of_closeArray {c d : Cursor} (h : closeArray c = .ok d) :
    d.rest.length ≤ c.rest.length := by
  unfold closeArray at h
  simp only at h
  repeat' split at h
  all_goals cases h
  exact Nat.le_trans c.skipGap.length_advance_le c.length_skipGap_le

/-- Reads fields from an array into a draft, until the array ends or all are read. -/
def readSlots {δ : Type} (index : Nat) (draft : δ) (c : Cursor) :
    List (Slot δ) → Except Failure (δ × Cursor)
  | [] => lift ((closeArray c).map (draft, ·))
  | slot :: slots =>
    match nextElement (index == 0) c with
    | .error fault => failed fault
    | .ok (false, c) => .ok (draft, c.advance)
    | .ok (true, c) =>
      match ((slot.fill draft).within (.index index)).read c with
      | .error f => .error f
      | .ok (draft, c) => readSlots (index + 1) draft c slots

theorem length_of_readSlots {δ : Type} {index : Nat} {draft x : δ} {c d : Cursor}
    {slots : List (Slot δ)} (h : readSlots index draft c slots = .ok (x, d)) :
    d.rest.length ≤ c.rest.length := by
  induction slots generalizing index draft c with
  | nil =>
    obtain ⟨e, he, heq⟩ := map_eq_ok_iff.1 (lift_eq_ok_iff.1 h)
    cases heq
    exact length_of_closeArray he
  | cons slot slots ih =>
    unfold readSlots at h
    split at h
    · cases h
    · rename_i e he
      cases h
      exact Nat.le_trans e.length_advance_le (length_of_nextElement he)
    · rename_i e he
      split at h
      · cases h
      · rename_i filled f hf
        have := ih h
        have := ((slot.fill draft).within _).shorter hf
        have := length_of_nextElement he
        omega

/-- Reads a record from the elements of an array. -/
def readTuple {δ α : Type} (form : RecordForm δ α) (c : Cursor) : Except Failure (α × Cursor) :=
  match readSlots 0 form.blank c form.slots with
  | .error f => .error f
  | .ok (draft, behind) =>
    match form.finish draft with
    | .ok x => .ok (x, behind)
    | .error key =>
      let size := String.ofList (Numeral.digits form.slots.length)
      failed ⟨.invalidLength (form.slots.findIdx (·.key == key))
        (form.title ++ " with " ++ size ++ " elements"), behind.position⟩

theorem length_of_readTuple {δ α : Type} {form : RecordForm δ α} {c d : Cursor} {x : α}
    (h : readTuple form c = .ok (x, d)) : d.rest.length ≤ c.rest.length := by
  unfold readTuple at h
  split at h
  · cases h
  · rename_i draft e he
    split at h
    · cases h
      exact length_of_readSlots he
    · cases h

/-! ### Both -/

/-- Reads a record. -/
def readRecord {δ α : Type} (form : RecordForm δ α) : Reader α where
  read c :=
    match c.skipGap.rest with
    | '[' :: _ => readTuple form c.skipGap.advance
    | '\x7b' :: _ => readObject form c.skipGap.advance
    | _ => unexpected form.title c.skipGap
  shorter {c d x} h := by
    split at h
    · rename_i cs hc
      exact Nat.lt_of_le_of_lt (length_of_readTuple h) (c.length_advance_skipGap_lt hc)
    · rename_i cs hc
      exact Nat.lt_of_le_of_lt (length_of_readObject h) (c.length_advance_skipGap_lt hc)
    · exact absurd h unexpected_ne_ok

end FieldRules.Json
