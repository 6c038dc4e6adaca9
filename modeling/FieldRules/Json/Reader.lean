import FieldRules.Json.Skip

/-!
# Readers of JSON values

A reader takes a value of a known form from the front of a text. It reads from left to right and
stops at the first fault, so a value of the wrong kind is reported before anything that is wrong
behind it. A scalar of the wrong kind is read to its end first; an array or object is not.

Every value takes at least one character. This is a part of what a reader is, and the reason why the
elements of an array can be read one after the other.
-/

namespace FieldRules.Json

/-- Reads a value from a place on. -/
structure Reader (α : Type) where
  /-- The value with the place behind it, or the first failure. -/
  read : Cursor → Except Failure (α × Cursor)
  /-- What is behind a value is shorter than what the value is at the front of. -/
  shorter : ∀ {c d : Cursor} {x : α}, read c = .ok (x, d) → d.rest.length < c.rest.length

/-- A fault of the value that is being read. -/
def failed {α : Type} (fault : Fault) : Except Failure α :=
  .error ⟨[], fault⟩

/-- The result of a step that reports no path. -/
def lift {α : Type} : Except Fault α → Except Failure α
  | .ok x => .ok x
  | .error fault => failed fault

theorem lift_eq_ok_iff {α : Type} {x : Except Fault α} {a : α} :
    lift x = .ok a ↔ x = .ok a := by
  cases x <;> simp [lift, failed]

namespace Reader

variable {α β : Type}

/-- Makes something of the value. -/
def map (f : α → β) (r : Reader α) : Reader β where
  read c := (r.read c).map fun (x, d) => (f x, d)
  shorter h := by
    obtain ⟨⟨x, e⟩, he, heq⟩ := map_eq_ok_iff.1 h
    cases heq
    exact r.shorter he

/-- Reads a part of a value: its failures lead through `s`. -/
def within (s : Segment) (r : Reader α) : Reader α where
  read c :=
    match r.read c with
    | .ok x => .ok x
    | .error f => .error (f.within s)
  shorter {c d x} h := by
    cases hr : r.read c with
    | error f => simp [hr] at h
    | ok y =>
      simp only [hr] at h
      exact r.shorter (hr.trans h)

/-- Refuses whatever follows. -/
def refuse (failure : Cursor → Failure) : Reader α where
  read c := .error (failure c)
  shorter h := by cases h

end Reader

/-! ### Values of the wrong kind -/

/-- The value of a number, and the place behind it. -/
def readNumber (c : Cursor) : Except Fault (Number × Cursor) := do
  let (text, behind) ← numberAt true c
  let n ← text.value behind.position
  return (n, behind)

theorem length_of_readNumber {c d : Cursor} {n : Number} (h : readNumber c = .ok (n, d)) :
    d.rest.length < c.rest.length := by
  obtain ⟨⟨text, e⟩, he, h⟩ := bind_eq_ok_iff.1 h
  obtain ⟨m, _, h⟩ := bind_eq_ok_iff.1 h
  cases h
  exact length_of_numberAt he

/-- A number where something else should stand. -/
def Number.found : Number → Found
  | .integer n => .integer n
  | .float x => .float x

/-- The value that stands at a place, found where something else should stand. -/
def foundAt (c : Cursor) : Except Fault (Found × Cursor) :=
  match c.rest with
  | [] => .error ⟨.eofValue, c.peek⟩
  | x :: _ =>
    if x = 'n' then (wordAt "null" c).map (.null, ·)
    else if x = 't' then (wordAt "true" c).map (.boolean true, ·)
    else if x = 'f' then (wordAt "false" c).map (.boolean false, ·)
    else if x = '-' ∨ x.isDigit then (readNumber c).map fun (n, c) => (n.found, c)
    else if x = '"' then (stringAt true c).map fun (s, c) => (.text s, c)
    else if x = '[' then .ok (.sequence, c)
    else if x = '\x7b' then .ok (.map, c)
    else .error ⟨.expectedValue, c.peek⟩

/-- The fault of a value of the wrong kind. -/
def unexpected {α : Type} (expected : String) (c : Cursor) : Except Failure α :=
  match foundAt c with
  | .error fault => failed fault
  | .ok (found, behind) => failed ⟨.invalidType found expected, behind.position⟩

theorem unexpected_ne_ok {α : Type} {expected : String} {c : Cursor} {x : α} :
    unexpected expected c ≠ .ok x := by
  unfold unexpected
  split <;> simp [failed]

/-! ### Scalars -/

/-- Reads a string. -/
def readString : Reader String where
  read c :=
    match c.skipGap.rest with
    | '"' :: _ =>
      lift ((stringAt true c.skipGap).map fun (s, behind) => (String.ofList s, behind))
    | _ => unexpected "a string" c.skipGap
  shorter {c d x} h := by
    split at h
    · obtain ⟨⟨s, e⟩, he, heq⟩ := map_eq_ok_iff.1 (lift_eq_ok_iff.1 h)
      cases heq
      exact Nat.lt_of_lt_of_le (length_of_stringAt he) c.length_skipGap_le
    · exact absurd h unexpected_ne_ok

/-- Reads a natural number of 32 bits. -/
def readWord : Reader Nat where
  read c :=
    if c.skipGap.rest.head?.any fun x => x == '-' || x.isDigit then
      match readNumber c.skipGap with
      | .error fault => failed fault
      | .ok (.integer n, behind) =>
        if 0 ≤ n ∧ n.toNat < 1 <<< 32 then .ok (n.toNat, behind)
        else failed ⟨.invalidValue (.integer n) "u32", behind.position⟩
      | .ok (.float x, behind) => failed ⟨.invalidType (.float x) "u32", behind.position⟩
    else unexpected "u32" c.skipGap
  shorter {c d x} h := by
    split at h
    · split at h
      · cases h
      · rename_i n e he
        split at h
        · cases h
          exact Nat.lt_of_lt_of_le (length_of_readNumber he) c.length_skipGap_le
        · cases h
      · cases h
    · exact absurd h unexpected_ne_ok

/-- Reads a value that may be `null`. -/
def readOptional {α : Type} (r : Reader α) : Reader (Option α) where
  read c :=
    match c.skipGap.rest with
    | 'n' :: _ => lift ((wordAt "null" c.skipGap).map (none, ·))
    | _ => (r.map some).read c.skipGap
  shorter {c d x} h := by
    refine Nat.lt_of_lt_of_le ?_ c.length_skipGap_le
    split at h
    · obtain ⟨e, he, heq⟩ := map_eq_ok_iff.1 (lift_eq_ok_iff.1 h)
      cases heq
      have := length_of_wordAt he
      have : 0 < "null".toList.length := by decide
      omega
    · exact (r.map some).shorter h

/-! ### Arrays -/

/-- Whether an element follows in an array, and the place of the element or of the closing bracket;
`first` says that no element has been read yet. -/
def nextElement (first : Bool) (c : Cursor) : Except Fault (Bool × Cursor) :=
  let c := c.skipGap
  match c.rest with
  | [] => .error ⟨.eofList, c.peek⟩
  | ']' :: _ => .ok (false, c)
  | x :: _ =>
    if first then .ok (true, c)
    else if x = ',' then
      let c := c.advance.skipGap
      match c.rest with
      | [] => .error ⟨.eofValue, c.peek⟩
      | ']' :: _ => .error ⟨.trailingComma, c.peek⟩
      | _ => .ok (true, c)
    else .error ⟨.expectedListCommaOrEnd, c.peek⟩

theorem length_of_nextElement {first more : Bool} {c d : Cursor}
    (h : nextElement first c = .ok (more, d)) : d.rest.length ≤ c.rest.length := by
  have := c.length_skipGap_le
  have := c.skipGap.length_advance_le
  have := c.skipGap.advance.length_skipGap_le
  unfold nextElement at h
  simp only at h
  repeat' split at h
  all_goals cases h
  all_goals omega

/-- Reads the elements of an array from the one at `index` on, and the closing bracket. -/
def readElements {α : Type} (r : Reader α) (index : Nat) (c : Cursor) :
    Except Failure (List α × Cursor) :=
  match hnext : nextElement (index == 0) c with
  | .error fault => failed fault
  | .ok (false, here) => .ok ([], here.advance)
  | .ok (true, here) =>
    match hread : (r.within (.index index)).read here with
    | .error f => .error f
    | .ok (x, behind) =>
      have := Nat.lt_of_lt_of_le ((r.within _).shorter hread) (length_of_nextElement hnext)
      match readElements r (index + 1) behind with
      | .error f => .error f
      | .ok (xs, stop) => .ok (x :: xs, stop)
termination_by c.rest.length

theorem length_of_readElements {α : Type} {r : Reader α} {index : Nat} {c d : Cursor}
    {xs : List α} (h : readElements r index c = .ok (xs, d)) :
    d.rest.length ≤ c.rest.length := by
  fun_induction readElements r index c generalizing xs d with
  | case1 => cases h
  | case2 _ _ here hnext =>
    cases h
    exact Nat.le_trans here.length_advance_le (length_of_nextElement hnext)
  | case3 => cases h
  | case4 => cases h
  | case5 _ _ _ _ _ _ _ hless _ _ hrest ih =>
    cases h
    have := ih hrest
    omega

/-- Reads an array. -/
def readList {α : Type} (r : Reader α) : Reader (List α) where
  read c :=
    match c.skipGap.rest with
    | '[' :: _ => readElements r 0 c.skipGap.advance
    | _ => unexpected "a sequence" c.skipGap
  shorter {c d x} h := by
    split at h
    · rename_i cs hc
      exact Nat.lt_of_le_of_lt (length_of_readElements h) (c.length_advance_skipGap_lt hc)
    · exact absurd h unexpected_ne_ok

end FieldRules.Json
