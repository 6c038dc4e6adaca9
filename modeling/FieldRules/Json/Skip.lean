import FieldRules.Json.NumberLiteral
import FieldRules.Json.StringLiteral

/-!
# Passing over a JSON value

A member whose key is not known is passed over without making a value of it. The containers that are
still open are kept on a stack, so any depth is passed over. Strings and numbers only have to be
well formed: surrogates need no partner and numbers no bound.
-/

namespace FieldRules.Json

/-- The word that a literal spells, read from its first letter; the letters are compared in
order. -/
def wordFrom (p : Position) : List Char → List Char → Except Fault Cursor
  | [], cs => .ok ⟨p, cs⟩
  | _ :: _, [] => .error ⟨.eofValue, p⟩
  | w :: ws, c :: cs =>
    if w = c then wordFrom (p.next c) ws cs
    else .error ⟨.expectedIdent, p.after 1 (c :: cs)⟩

/-- The place behind a word. -/
def wordAt (word : String) (c : Cursor) : Except Fault Cursor :=
  wordFrom c.position word.toList c.rest

/-- An open container. -/
inductive Frame where
  /-- An array. -/
  | list
  /-- An object. -/
  | map
  deriving DecidableEq, Repr

/-- The bracket that closes a container. -/
def Frame.closing : Frame → Char
  | .list => ']'
  | .map => '\x7d'

/-- The text ends inside a container. -/
def Frame.eof : Frame → Cause
  | .list => .eofList
  | .map => .eofObject

/-- Neither a comma nor the end follows inside a container. -/
def Frame.expectedCommaOrEnd : Frame → Cause
  | .list => .expectedListCommaOrEnd
  | .map => .expectedObjectCommaOrEnd

/-- Passes over a scalar, or over the bracket that opens a container. -/
def skipStart (c : Cursor) : Except Fault (Option Frame × Cursor) :=
  let c := c.skipGap
  match c.rest with
  | [] => .error ⟨.eofValue, c.peek⟩
  | x :: _ =>
    if x = 'n' then (wordAt "null" c).map (none, ·)
    else if x = 't' then (wordAt "true" c).map (none, ·)
    else if x = 'f' then (wordAt "false" c).map (none, ·)
    else if x = '-' ∨ x.isDigit then (numberAt false c).map fun (_, c) => (none, c)
    else if x = '"' then (stringAt false c).map fun (_, c) => (none, c)
    else if x = '[' then .ok (some .list, c.advance)
    else if x = '\x7b' then .ok (some .map, c.advance)
    else .error ⟨.expectedValue, c.peek⟩

/-- Passes over the colon behind a key. -/
def colonAt (c : Cursor) : Except Fault Cursor :=
  let c := c.skipGap
  match c.rest with
  | [] => .error ⟨.eofObject, c.peek⟩
  | ':' :: _ => .ok c.advance
  | _ => .error ⟨.expectedColon, c.peek⟩

/-- Passes over a key and its colon. -/
def skipKey (c : Cursor) : Except Fault Cursor :=
  let c := c.skipGap
  match c.rest with
  | [] => .error ⟨.eofObject, c.peek⟩
  | '"' :: _ => do
    let (_, c) ← stringAt false c
    colonAt c
  | _ => .error ⟨.keyMustBeString, c.peek⟩

/-- Passes over the comma in front of a member of a container; `fresh` says that the container has
just been opened, so that no comma is due. -/
def skipComma (frame : Frame) (fresh : Bool) (c : Cursor) : Except Fault Cursor :=
  if fresh then .ok c
  else
    match c.rest with
    | ',' :: _ => .ok c.advance
    | _ => .error ⟨frame.expectedCommaOrEnd, c.peek⟩

/-- Passes over the next member of a container, or over its bracket if that is one more
container. -/
def skipMember (frame : Frame) (fresh : Bool) (c : Cursor) :
    Except Fault (Option Frame × Cursor) := do
  let c ← skipComma frame fresh c
  match frame with
  | .list => skipStart c
  | .map => skipStart (← skipKey c)

/-! ### What is left of the text -/

theorem length_of_wordFrom {p : Position} {ws cs : List Char} {d : Cursor}
    (h : wordFrom p ws cs = .ok d) : d.rest.length + ws.length = cs.length := by
  fun_induction wordFrom p ws cs with
  | case1 => cases h; rfl
  | case2 => cases h
  | case3 p ws w cs ih =>
    have := ih h
    simp only [List.length_cons]
    omega
  | case4 => cases h

/-- A word takes as many characters as it has. -/
theorem length_of_wordAt {word : String} {c d : Cursor} (h : wordAt word c = .ok d) :
    d.rest.length + word.toList.length = c.rest.length :=
  length_of_wordFrom h

/-- A scalar or an opening bracket takes at least one character. -/
theorem length_of_skipStart {c d : Cursor} {opened : Option Frame}
    (h : skipStart c = .ok (opened, d)) : d.rest.length < c.rest.length := by
  refine Nat.lt_of_lt_of_le ?_ c.length_skipGap_le
  have word {s : String} (hs : 0 < s.toList.length)
      (h : (wordAt s c.skipGap).map ((none : Option Frame), ·) = .ok (opened, d)) :
      d.rest.length < c.skipGap.rest.length := by
    obtain ⟨e, he, heq⟩ := map_eq_ok_iff.1 h
    cases heq
    have := length_of_wordAt he
    omega
  unfold skipStart at h
  simp only at h
  split at h
  · cases h
  · rename_i x cs hc
    repeat' split at h
    · exact word (by decide) h
    · exact word (by decide) h
    · exact word (by decide) h
    · obtain ⟨⟨t, e⟩, he, heq⟩ := map_eq_ok_iff.1 h
      cases heq
      exact length_of_numberAt he
    · obtain ⟨⟨s, e⟩, he, heq⟩ := map_eq_ok_iff.1 h
      cases heq
      exact length_of_stringAt he
    · cases h
      exact Cursor.length_advance_lt hc
    · cases h
      exact Cursor.length_advance_lt hc
    · cases h

/-- The colon takes at least one character. -/
theorem length_of_colonAt {c d : Cursor} (h : colonAt c = .ok d) :
    d.rest.length < c.rest.length := by
  unfold colonAt at h
  simp only at h
  split at h
  · cases h
  · rename_i cs hc
    cases h
    exact c.length_advance_skipGap_lt hc
  · cases h

theorem length_of_skipKey {c d : Cursor} (h : skipKey c = .ok d) :
    d.rest.length < c.rest.length := by
  unfold skipKey at h
  simp only at h
  split at h
  · cases h
  · obtain ⟨⟨s, e⟩, hs, h⟩ := bind_eq_ok_iff.1 h
    have : d.rest.length < e.rest.length := length_of_colonAt h
    have := length_of_stringAt hs
    have := c.length_skipGap_le
    omega
  · cases h

theorem length_of_skipComma {frame : Frame} {fresh : Bool} {c d : Cursor}
    (h : skipComma frame fresh c = .ok d) : d.rest.length ≤ c.rest.length := by
  unfold skipComma at h
  split at h
  · cases h
    exact Nat.le_refl _
  · split at h
    · cases h
      exact c.length_advance_le
    · cases h

/-- A member takes at least one character. -/
theorem length_of_skipMember {frame : Frame} {fresh : Bool} {c d : Cursor}
    {opened : Option Frame} (h : skipMember frame fresh c = .ok (opened, d)) :
    d.rest.length < c.rest.length := by
  unfold skipMember at h
  obtain ⟨e, he, h⟩ := bind_eq_ok_iff.1 h
  have := length_of_skipComma he
  cases frame with
  | list =>
    have := length_of_skipStart h
    omega
  | map =>
    obtain ⟨k, hk, h⟩ := bind_eq_ok_iff.1 h
    have := length_of_skipKey hk
    have := length_of_skipStart h
    omega

/-- Passes over what is left of the open containers, the innermost first. -/
def skipOpen (stack : List Frame) (fresh : Bool) (c : Cursor) : Except Fault Cursor :=
  match stack with
  | [] => .ok c
  | frame :: frames =>
    match hgap : c.skipGap.rest with
    | [] => .error ⟨frame.eof, c.skipGap.peek⟩
    | x :: _ =>
      if x = frame.closing then
        have := c.length_advance_skipGap_lt hgap
        skipOpen frames false c.skipGap.advance
      else
        match hmember : skipMember frame fresh c.skipGap with
        | .error fault => .error fault
        | .ok (opened, behind) =>
          have := Nat.lt_of_lt_of_le (length_of_skipMember hmember) c.length_skipGap_le
          match opened with
          | none => skipOpen (frame :: frames) false behind
          | some inner => skipOpen (inner :: frame :: frames) true behind
termination_by c.rest.length

theorem length_of_skipOpen {stack : List Frame} {fresh : Bool} {c d : Cursor}
    (h : skipOpen stack fresh c = .ok d) : d.rest.length ≤ c.rest.length := by
  fun_induction skipOpen stack fresh c with
  | case1 =>
    cases h
    exact Nat.le_refl _
  | case2 => cases h
  | case3 _ _ _ _ _ _ _ ih =>
    have := ih h
    omega
  | case4 => cases h
  | case5 _ _ _ _ _ _ _ _ _ _ _ _ ih =>
    have := ih h
    omega
  | case6 _ _ _ _ _ _ _ _ _ _ _ _ _ ih =>
    have := ih h
    omega

/-- Passes over a value. -/
def skipValue (c : Cursor) : Except Fault Cursor := do
  match ← skipStart c with
  | (none, c) => return c
  | (some frame, c) => skipOpen [frame] true c

/-- A value takes at least one character. -/
theorem length_of_skipValue {c d : Cursor} (h : skipValue c = .ok d) :
    d.rest.length < c.rest.length := by
  unfold skipValue at h
  obtain ⟨⟨opened, e⟩, he, h⟩ := bind_eq_ok_iff.1 h
  have := length_of_skipStart he
  cases opened with
  | none =>
    cases h
    exact this
  | some frame =>
    have : d.rest.length ≤ e.rest.length := length_of_skipOpen h
    omega

end FieldRules.Json
