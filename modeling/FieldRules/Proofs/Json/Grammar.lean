import FieldRules.Json.Skip

/-!
# The grammar of JSON

The texts of JSON values, one predicate for each form. A container is described from left to right,
as it is read: `IsMembers` says what may stand from some place inside it up to its closing bracket.

An array or object ends where its brackets are closed, whatever follows. `behindContainer` finds the
place by counting the brackets outside of strings, so a text begins with at most one container.
-/

namespace FieldRules.Json

/-! ### Scalars -/

/-- Characters that may stand between tokens. -/
def IsGap (cs : List Char) : Prop :=
  ∀ c ∈ cs, Cursor.isGap c = true

/-- A string from behind its opening quote on, with the closing one. -/
inductive IsQuoted : List Char → Prop where
  /-- The closing quote. -/
  | close : IsQuoted ['"']
  /-- A character that stands for itself. -/
  | plain {x : Char} {cs : List Char} (hquote : x ≠ '"') (hslash : x ≠ '\\')
      (hcontrol : ¬ x.toNat < 0x20) (h : IsQuoted cs) : IsQuoted (x :: cs)
  /-- An escape of one letter. -/
  | escape {x y : Char} {cs : List Char} (hx : escapedChar x = some y) (h : IsQuoted cs) :
      IsQuoted ('\\' :: x :: cs)
  /-- An escape of four hexadecimal digits. -/
  | unicode {a b c d : Char} {n : Nat} {cs : List Char} (hn : hexValue a b c d = some n)
      (h : IsQuoted cs) : IsQuoted ('\\' :: 'u' :: a :: b :: c :: d :: cs)

/-- At least one digit. -/
def IsDigits (ds : List Char) : Prop :=
  ds ≠ [] ∧ ∀ d ∈ ds, d.isDigit = true

/-- A point with digits behind it, or nothing. -/
def IsFraction (cs : List Char) : Prop :=
  cs = [] ∨ ∃ ds, IsDigits ds ∧ cs = '.' :: ds

/-- A mark with a sign, if any, and digits behind it, or nothing. -/
def IsExponent (cs : List Char) : Prop :=
  cs = [] ∨ ∃ mark sign ds, (mark = 'e' ∨ mark = 'E') ∧ (sign = [] ∨ sign = ['+'] ∨ sign = ['-']) ∧
    IsDigits ds ∧ cs = mark :: (sign ++ ds)

/-- A number. Its first digit is zero only if no other digit stands in front of the point. -/
inductive IsNumber : List Char → Prop where
  /-- A sign, the digits in front of the point, those behind it, and the exponent. -/
  | mk {minus whole fraction exponent : List Char} (hminus : minus = [] ∨ minus = ['-'])
      (hwhole : IsDigits whole) (hzero : whole.head? = some '0' → whole = ['0'])
      (hfraction : IsFraction fraction) (hexponent : IsExponent exponent) :
      IsNumber (minus ++ whole ++ fraction ++ exponent)

/-- A number begins with a minus sign or a digit. -/
theorem IsNumber.head {w : List Char} (h : IsNumber w) :
    ∃ x, w.head? = some x ∧ (x = '-' ∨ x.isDigit = true) := by
  obtain @⟨minus, whole, _, _, hminus, ⟨hne, hdigits⟩, -, -, -⟩ := h
  obtain ⟨x, cs, rfl⟩ := List.exists_cons_of_ne_nil hne
  rcases hminus with rfl | rfl
  · exact ⟨x, rfl, .inr (hdigits x (by simp))⟩
  · exact ⟨'-', rfl, .inl rfl⟩

/-! ### Values -/

/-- The bracket that opens a container. -/
def Frame.opening : Frame → Char
  | .list => '['
  | .map => '\x7b'

/-- What stands in front of a member: a gap, with a comma in it unless the container has just been
opened. -/
def IsSeparator : Bool → List Char → Prop
  | true, cs => IsGap cs
  | false, cs => ∃ g g', IsGap g ∧ IsGap g' ∧ cs = g ++ ',' :: g'

/-- What stands between the separator and the value of a member: a key and a colon in an object,
and nothing in an array. -/
inductive IsKey : Frame → List Char → Prop where
  /-- Elements of an array have no keys. -/
  | list : IsKey .list []
  /-- A key, and a colon with gaps around it. -/
  | map {key g g' : List Char} (hkey : IsQuoted key) (hg : IsGap g) (hg' : IsGap g') :
      IsKey .map ('"' :: key ++ g ++ ':' :: g')

theorem isGap_nil : IsGap [] :=
  fun _ h => absurd h List.not_mem_nil

theorem IsGap.append {g g' : List Char} (hg : IsGap g) (hg' : IsGap g') : IsGap (g ++ g') :=
  List.forall_mem_append.2 ⟨hg, hg'⟩

theorem IsSeparator.append {fresh : Bool} {w g : List Char} (h : IsSeparator fresh w)
    (hg : IsGap g) : IsSeparator fresh (w ++ g) := by
  cases fresh with
  | true => exact IsGap.append h hg
  | false =>
    obtain ⟨g₁, g₂, hg₁, hg₂, rfl⟩ := h
    exact ⟨g₁, g₂ ++ g, hg₁, hg₂.append hg, by simp⟩

theorem IsKey.append {w g : List Char} (h : IsKey .map w) (hg : IsGap g) :
    IsKey .map (w ++ g) := by
  obtain _ | ⟨hkey, hg₁, hg₂⟩ := h
  simpa using IsKey.map hkey hg₁ (hg₂.append hg)

/-- A value without members. -/
inductive IsScalar : List Char → Prop where
  /-- One of the three words. -/
  | word {w : String} (hw : w ∈ ["null", "true", "false"]) : IsScalar w.toList
  /-- A number. -/
  | number {cs : List Char} (h : IsNumber cs) : IsScalar cs
  /-- A string. -/
  | string {cs : List Char} (h : IsQuoted cs) : IsScalar ('"' :: cs)

/-- What may stand inside a container from some place on, with the closing bracket; `fresh` says
that the place is right behind the opening one. -/
inductive IsMembers : Frame → Bool → List Char → Prop where
  /-- The closing bracket. -/
  | close {frame : Frame} {fresh : Bool} {g : List Char} (hg : IsGap g) :
      IsMembers frame fresh (g ++ [frame.closing])
  /-- A member that is a scalar. -/
  | scalar {frame : Frame} {fresh : Bool} {separator key value cs : List Char}
      (hseparator : IsSeparator fresh separator) (hkey : IsKey frame key) (hvalue : IsScalar value)
      (h : IsMembers frame false cs) : IsMembers frame fresh (separator ++ key ++ value ++ cs)
  /-- A member that is a container of its own. -/
  | nested {frame inner : Frame} {fresh : Bool} {separator key members cs : List Char}
      (hseparator : IsSeparator fresh separator) (hkey : IsKey frame key)
      (hmembers : IsMembers inner true members) (h : IsMembers frame false cs) :
      IsMembers frame fresh (separator ++ key ++ inner.opening :: members ++ cs)

/-- The text of an array or an object. -/
def IsContainer (cs : List Char) : Prop :=
  ∃ frame members, IsMembers frame true members ∧ cs = frame.opening :: members

/-- The text of a value. -/
def IsValue (cs : List Char) : Prop :=
  IsScalar cs ∨ IsContainer cs

/-- A member of either kind may stand in front of others. -/
theorem IsMembers.member {frame : Frame} {fresh : Bool} {separator key value cs : List Char}
    (hseparator : IsSeparator fresh separator) (hkey : IsKey frame key) (hvalue : IsValue value)
    (h : IsMembers frame false cs) : IsMembers frame fresh (separator ++ key ++ value ++ cs) := by
  rcases hvalue with hvalue | ⟨inner, members, hmembers, rfl⟩
  · exact .scalar hseparator hkey hvalue h
  · exact .nested hseparator hkey hmembers h

/-- A JSON text that is an array or an object: the container with a gap on both sides, and nothing
else. -/
def IsContainerText (cs : List Char) : Prop :=
  ∃ g container g', IsGap g ∧ IsContainer container ∧ IsGap g' ∧ cs = g ++ container ++ g'

/-! ### Where a container ends -/

/-- What a character of a text belongs to. -/
inductive Mode where
  /-- The text outside of strings. -/
  | bare
  /-- A string. -/
  | quoted
  /-- A string, right behind a backslash. -/
  | escaped
  deriving DecidableEq, Repr

/-- What is left behind the first container of a text, read from a place with `depth` containers
open. -/
def behindContainer : Nat → Mode → List Char → List Char
  | _, _, [] => []
  | depth, .escaped, _ :: cs => behindContainer depth .quoted cs
  | depth, .quoted, c :: cs =>
    if c = '\\' then behindContainer depth .escaped cs
    else if c = '"' then behindContainer depth .bare cs
    else behindContainer depth .quoted cs
  | depth, .bare, c :: cs =>
    if c = '"' then behindContainer depth .quoted cs
    else if c = '[' ∨ c = '\x7b' then behindContainer (depth + 1) .bare cs
    else if c = ']' ∨ c = '\x7d' then
      if depth ≤ 1 then cs else behindContainer (depth - 1) .bare cs
    else behindContainer depth .bare cs

/-- A character that is neither a quote nor a bracket. -/
def isInert (c : Char) : Bool :=
  !(c == '"' || c == '[' || c == '\x7b' || c == ']' || c == '\x7d')

theorem behindContainer_inert {w : List Char} (h : ∀ c ∈ w, isInert c = true) (depth : Nat)
    (cs : List Char) : behindContainer depth .bare (w ++ cs) = behindContainer depth .bare cs := by
  induction w with
  | nil => rfl
  | cons c w ih =>
    have hc := h c (by simp)
    simp only [isInert, Bool.not_eq_true', Bool.or_eq_false_iff, beq_eq_false_iff_ne] at hc
    obtain ⟨⟨⟨⟨h₁, h₂⟩, h₃⟩, h₄⟩, h₅⟩ := hc
    simp only [List.cons_append, behindContainer, h₁, h₂, h₃, h₄, h₅, or_self, if_false]
    exact ih fun d hd => h d (by simp [hd])

theorem isInert_of_isGap {c : Char} (h : Cursor.isGap c = true) : isInert c = true := by
  simp only [Cursor.isGap, Bool.or_eq_true, beq_iff_eq] at h
  rcases h with ((rfl | rfl) | rfl) | rfl <;> rfl

/-- Gaps with one more character between them. -/
theorem isInert_of_mem_gaps {g g' : List Char} {x : Char} (hg : IsGap g) (hg' : IsGap g')
    (hx : isInert x = true) : ∀ c ∈ g ++ x :: g', isInert c = true := by
  simp only [List.mem_append, List.mem_cons]
  rintro c (hc | rfl | hc)
  · exact isInert_of_isGap (hg c hc)
  · exact hx
  · exact isInert_of_isGap (hg' c hc)

theorem behindContainer_gap {g : List Char} (h : IsGap g) (depth : Nat) (cs : List Char) :
    behindContainer depth .bare (g ++ cs) = behindContainer depth .bare cs :=
  behindContainer_inert (fun c hc => isInert_of_isGap (h c hc)) depth cs

theorem isInert_of_isDigit {c : Char} (h : c.isDigit = true) : isInert c = true := by
  cases hi : isInert c with
  | true => rfl
  | false =>
    simp only [isInert, Bool.not_eq_false', Bool.or_eq_true, beq_iff_eq] at hi
    rcases hi with (((rfl | rfl) | rfl) | rfl) | rfl <;> revert h <;> decide

theorem IsNumber.isInert {w : List Char} (h : IsNumber w) : ∀ c ∈ w, isInert c = true := by
  obtain ⟨hminus, hwhole, -, hfraction, hexponent⟩ := h
  simp only [List.mem_append]
  rintro c (((hc | hc) | hc) | hc)
  · rcases hminus with rfl | rfl
    · simp at hc
    · rw [List.mem_singleton.1 hc]; rfl
  · exact isInert_of_isDigit (hwhole.2 c hc)
  · rcases hfraction with rfl | ⟨ds, hds, rfl⟩
    · simp at hc
    · rcases List.mem_cons.1 hc with rfl | hc
      · rfl
      · exact isInert_of_isDigit (hds.2 c hc)
  · rcases hexponent with rfl | ⟨mark, sign, ds, hmark, hsign, hds, rfl⟩
    · simp at hc
    · simp only [List.mem_cons, List.mem_append] at hc
      rcases hc with rfl | hc | hc
      · rcases hmark with rfl | rfl <;> rfl
      · rcases hsign with rfl | rfl | rfl
        · simp at hc
        all_goals rw [List.mem_singleton.1 hc]; rfl
      · exact isInert_of_isDigit (hds.2 c hc)

theorem hexDigit_ne {c : Char} {n : Nat} (h : hexDigit c = some n) : c ≠ '"' ∧ c ≠ '\\' := by
  constructor <;> rintro rfl <;> exact absurd h (by decide +revert)

theorem hexDigit_of_hexValue {a b c d : Char} {n : Nat} (h : hexValue a b c d = some n) :
    ∀ x ∈ [a, b, c, d], ∃ k, hexDigit x = some k := by
  simp only [hexValue, bind, Option.bind_eq_some_iff] at h
  obtain ⟨i, ha, j, hb, k, hc, l, hd, -⟩ := h
  simp only [List.mem_cons, List.not_mem_nil, or_false]
  rintro x (rfl | rfl | rfl | rfl)
  · exact ⟨i, ha⟩
  · exact ⟨j, hb⟩
  · exact ⟨k, hc⟩
  · exact ⟨l, hd⟩

/-- A string is passed from its opening quote to its closing one. -/
theorem IsQuoted.behindContainer_eq {w : List Char} (h : IsQuoted w) (depth : Nat)
    (cs : List Char) :
    behindContainer depth .quoted (w ++ cs) = behindContainer depth .bare cs := by
  induction h with
  | close => simp [behindContainer]
  | plain hquote hslash _ _ ih => simpa [behindContainer, hquote, hslash] using ih
  | escape _ _ ih => simpa [behindContainer] using ih
  | @unicode a b c d n w hn _ ih =>
    have hne (x : Char) (hx : x ∈ [a, b, c, d]) : x ≠ '"' ∧ x ≠ '\\' :=
      (hexDigit_of_hexValue hn x hx).elim fun _ => hexDigit_ne
    simpa [behindContainer, hne a (by simp), hne b (by simp), hne c (by simp),
      hne d (by simp)] using ih

theorem IsSeparator.isInert {fresh : Bool} {w : List Char} (h : IsSeparator fresh w) :
    ∀ c ∈ w, isInert c = true := by
  cases fresh with
  | true => exact fun c hc => isInert_of_isGap (h c hc)
  | false =>
    obtain ⟨g, g', hg, hg', rfl⟩ := h
    exact isInert_of_mem_gaps hg hg' rfl

theorem IsKey.behindContainer_eq {frame : Frame} {w : List Char} (h : IsKey frame w) (depth : Nat)
    (cs : List Char) : behindContainer depth .bare (w ++ cs) = behindContainer depth .bare cs := by
  cases h with
  | list => rfl
  | @map key g g' hkey hg hg' =>
    calc behindContainer depth .bare ('"' :: key ++ g ++ ':' :: g' ++ cs)
        = behindContainer depth .quoted (key ++ ((g ++ ':' :: g') ++ cs)) := by
          simp [behindContainer]
      _ = behindContainer depth .bare ((g ++ ':' :: g') ++ cs) := hkey.behindContainer_eq _ _
      _ = behindContainer depth .bare cs :=
        behindContainer_inert (isInert_of_mem_gaps hg hg' rfl) _ _

theorem behindContainer_opening (frame : Frame) (depth : Nat) (cs : List Char) :
    behindContainer depth .bare (frame.opening :: cs) = behindContainer (depth + 1) .bare cs := by
  cases frame <;> simp [behindContainer, Frame.opening]

theorem behindContainer_closing (frame : Frame) (depth : Nat) (cs : List Char) :
    behindContainer (depth + 1) .bare (frame.closing :: cs) =
      if depth = 0 then cs else behindContainer depth .bare cs := by
  cases frame <;> simp [behindContainer, Frame.closing]

theorem IsScalar.behindContainer_eq {w : List Char} (h : IsScalar w) (depth : Nat)
    (cs : List Char) : behindContainer depth .bare (w ++ cs) = behindContainer depth .bare cs := by
  cases h with
  | word hw =>
    refine behindContainer_inert ?_ _ _
    simp only [List.mem_cons, List.not_mem_nil, or_false] at hw
    rcases hw with rfl | rfl | rfl <;> exact List.all_eq_true.1 rfl
  | number h => exact behindContainer_inert h.isInert _ _
  | string h => simpa [behindContainer] using h.behindContainer_eq depth cs

/-- The members of a container close it, and those of a container inside it close that one. -/
theorem IsMembers.behindContainer_eq {frame : Frame} {fresh : Bool} {w : List Char}
    (h : IsMembers frame fresh w) (depth : Nat) (cs : List Char) :
    behindContainer (depth + 1) .bare (w ++ cs) =
      if depth = 0 then cs else behindContainer depth .bare cs := by
  induction h generalizing depth cs with
  | close hg =>
    rw [List.append_assoc, behindContainer_gap hg]
    exact behindContainer_closing _ depth cs
  | scalar hseparator hkey hvalue _ ih =>
    rw [List.append_assoc, List.append_assoc, List.append_assoc,
      behindContainer_inert hseparator.isInert, hkey.behindContainer_eq,
      hvalue.behindContainer_eq, ih]
  | nested hseparator hkey _ _ ihmembers ih =>
    rw [List.append_assoc, List.append_assoc, List.append_assoc,
      behindContainer_inert hseparator.isInert, hkey.behindContainer_eq, List.cons_append,
      behindContainer_opening, ihmembers, if_neg (Nat.succ_ne_zero depth), ih]

/-- The end of the first container of a text does not depend on what follows. -/
theorem behindContainer_of_isContainer {g w : List Char} (hg : IsGap g) (h : IsContainer w)
    (cs : List Char) : behindContainer 0 .bare (g ++ w ++ cs) = cs := by
  obtain ⟨frame, members, hmembers, rfl⟩ := h
  rw [List.append_assoc, behindContainer_gap hg, List.cons_append, behindContainer_opening,
    hmembers.behindContainer_eq]
  rfl

theorem IsContainerText.isGap_behindContainer {cs : List Char} (h : IsContainerText cs) :
    IsGap (behindContainer 0 .bare cs) := by
  obtain ⟨g, w, g', hg, hw, hg', rfl⟩ := h
  rwa [behindContainer_of_isContainer hg hw]

/-- A text that begins with a container is nothing else exactly if a gap is all that is left. -/
theorem isContainerText_iff {g w cs : List Char} (hg : IsGap g) (h : IsContainer w) :
    IsContainerText (g ++ w ++ cs) ↔ IsGap cs := by
  constructor
  · intro htext
    have := htext.isGap_behindContainer
    rwa [behindContainer_of_isContainer hg h] at this
  · exact fun hcs => ⟨g, w, cs, hg, h, hcs, rfl⟩

end FieldRules.Json
