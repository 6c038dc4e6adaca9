import FieldRules.Proofs.Json.Grammar
import Mathlib.Data.List.TakeWhile
import Mathlib.Logic.Relation

/-!
# What a reader takes

A reader goes from one place of a text to another and makes something of what lies between. `Takes`
says what it takes, and that the result depends on this and on one character more. That character
matters behind a number or a gap, which do not say themselves where they end; a string, a word or a
bracket does (`Closes`).

The steps of a reader are relations between places, so that the steps of a composed reader are
composed relations.
-/

namespace FieldRules.Json

open Relation (Comp)

/-- A step from `c` to `d` takes `w`, and would take it as well if the text went on in another way
behind the next character. -/
structure Takes (R : Cursor → Cursor → Prop) (w : List Char) (c d : Cursor) : Prop where
  /-- The text that is taken. -/
  rest_eq : c.rest = w ++ d.rest
  /-- The same step in another text. -/
  again (rest : List Char) (h : rest.head? = d.rest.head?) :
    R ⟨c.position, w ++ rest⟩ ⟨d.position, rest⟩

/-- A step from `c` to `d` takes `w`, which is not empty, and would take it whatever follows. -/
structure Closes (R : Cursor → Cursor → Prop) (w : List Char) (c d : Cursor) : Prop where
  /-- Something is taken. -/
  ne_nil : w ≠ []
  /-- The text that is taken. -/
  rest_eq : c.rest = w ++ d.rest
  /-- The same step in another text. -/
  again (rest : List Char) : R ⟨c.position, w ++ rest⟩ ⟨d.position, rest⟩

section

variable {R S : Cursor → Cursor → Prop} {u v w : List Char} {c d e : Cursor}

theorem Closes.takes (h : Closes R w c d) : Takes R w c d :=
  ⟨h.rest_eq, fun rest _ => h.again rest⟩

theorem Closes.length_lt (h : Closes R w c d) : d.rest.length < c.rest.length := by
  rw [h.rest_eq, List.length_append]
  have := List.length_pos_iff.2 h.ne_nil
  omega

theorem Takes.length_le (h : Takes R w c d) : d.rest.length ≤ c.rest.length := by
  rw [h.rest_eq, List.length_append]
  omega

/-- Where nothing is taken, nothing but the next character is looked at. -/
theorem takes_nil (h : ∀ rest : List Char, rest.head? = c.rest.head? →
    R ⟨c.position, rest⟩ ⟨c.position, rest⟩) : Takes R [] c c :=
  ⟨rfl, h⟩

/-- A step may be known by more than its relation: where it ends, and which character follows. -/
theorem Takes.mono (h : Takes R w c d)
    (hS : ∀ (c' : Cursor) (rest : List Char), rest.head? = d.rest.head? →
      R c' ⟨d.position, rest⟩ → S c' ⟨d.position, rest⟩) : Takes S w c d :=
  ⟨h.rest_eq, fun rest hrest => hS _ rest hrest (h.again rest hrest)⟩

theorem Closes.mono (h : Closes R w c d) (hS : ∀ c' d' : Cursor, R c' d' → S c' d') :
    Closes S w c d :=
  ⟨h.ne_nil, h.rest_eq, fun rest => hS _ _ (h.again rest)⟩

theorem Takes.comp (h : Takes R u c d) (h' : Takes S v d e) :
    Takes (Comp R S) (u ++ v) c e where
  rest_eq := by rw [h.rest_eq, h'.rest_eq, List.append_assoc]
  again rest hrest := by
    refine ⟨⟨d.position, v ++ rest⟩, ?_, h'.again rest hrest⟩
    rw [List.append_assoc]
    exact h.again _ (by rw [h'.rest_eq, List.head?_append, List.head?_append, hrest])

theorem Takes.closes (h : Takes R u c d) (h' : Closes S v d e) :
    Closes (Comp R S) (u ++ v) c e where
  ne_nil := by simp [h'.ne_nil]
  rest_eq := by rw [h.rest_eq, h'.rest_eq, List.append_assoc]
  again rest := by
    refine ⟨⟨d.position, v ++ rest⟩, ?_, h'.again rest⟩
    rw [List.append_assoc]
    obtain ⟨x, xs, rfl⟩ := List.exists_cons_of_ne_nil h'.ne_nil
    exact h.again _ (by rw [h'.rest_eq]; rfl)

end

/-! ### Gaps and single characters -/

theorem head?_ne_some {x : Char} {cs : List Char} (h : ∀ tail, cs = x :: tail → False) :
    cs.head? ≠ some x := by
  intro hx
  obtain ⟨tail, htail⟩ := List.head?_eq_some_iff.1 hx
  exact h tail htail

theorem skipGapFrom_takes (p : Position) (cs : List Char) :
    ∃ g, IsGap g ∧ Takes (fun c d => Cursor.skipGapFrom c.position c.rest = d) g ⟨p, cs⟩
      (Cursor.skipGapFrom p cs) := by
  induction cs generalizing p with
  | nil =>
    refine ⟨[], isGap_nil, takes_nil fun rest hrest => ?_⟩
    rw [List.head?_eq_none_iff.1 hrest]
    rfl
  | cons x cs ih =>
    by_cases hx : Cursor.isGap x = true
    · obtain ⟨g, hg, ht⟩ := ih (p.next x)
      have hstep (rest : List Char) : Cursor.skipGapFrom p (x :: rest) =
          Cursor.skipGapFrom (p.next x) rest := by
        simp [Cursor.skipGapFrom, hx]
      rw [hstep]
      refine ⟨x :: g, List.forall_mem_cons.2 ⟨hx, hg⟩, ?_, fun rest hrest => ?_⟩
      · rw [List.cons_append, ← ht.rest_eq]
      · exact (hstep _).trans (ht.again rest hrest)
    · have hstep (rest : List Char) : Cursor.skipGapFrom p (x :: rest) = ⟨p, x :: rest⟩ := by
        simp [Cursor.skipGapFrom, hx]
      rw [hstep]
      refine ⟨[], isGap_nil, takes_nil fun rest hrest => ?_⟩
      obtain ⟨rest', rfl⟩ := List.head?_eq_some_iff.1 hrest
      exact hstep rest'

theorem skipGap_takes (c : Cursor) :
    ∃ g, IsGap g ∧ Takes (fun c d => c.skipGap = d) g c c.skipGap :=
  skipGapFrom_takes c.position c.rest

/-- From `c` to behind the next token, which is the character `x`. -/
def Passes (x : Char) (c d : Cursor) : Prop :=
  c.skipGap.rest = x :: d.rest ∧ c.skipGap.advance = d

theorem passes_iff {x : Char} {c d : Cursor} :
    Passes x c d ↔ c.skipGap.rest.head? = some x ∧ c.skipGap.advance = d := by
  constructor
  · rintro ⟨hc, hd⟩
    exact ⟨by rw [hc]; rfl, hd⟩
  · rintro ⟨hc, rfl⟩
    obtain ⟨cs, hc⟩ := List.head?_eq_some_iff.1 hc
    exact ⟨by simp [Cursor.advance, hc], rfl⟩

theorem Passes.closes {x : Char} {c d : Cursor} (h : Passes x c d) :
    ∃ g, IsGap g ∧ Closes (Passes x) (g ++ [x]) c d := by
  obtain ⟨g, hg, ht⟩ := skipGap_takes c
  have hposition : d.position = c.skipGap.position.next x := by
    rw [← h.2, Cursor.advance, h.1]
  refine ⟨g, hg, by simp, ?_, fun rest => ?_⟩
  · rw [ht.rest_eq, h.1]
    simp
  · have hgap := ht.again (x :: rest) (by rw [h.1]; rfl)
    rw [List.append_assoc, List.singleton_append]
    refine ⟨congrArg Cursor.rest hgap, ?_⟩
    rw [hgap, hposition]
    rfl

/-! ### Words -/

theorem wordFrom_closes {p : Position} {w cs : List Char} {d : Cursor}
    (h : wordFrom p w cs = .ok d) : cs = w ++ d.rest ∧
      ∀ rest, wordFrom p w (w ++ rest) = .ok ⟨d.position, rest⟩ := by
  fun_induction wordFrom p w cs with
  | case1 => cases h; exact ⟨rfl, fun rest => rfl⟩
  | case2 => cases h
  | case3 p w x cs ih =>
    obtain ⟨hcs, hagain⟩ := ih h
    exact ⟨by rw [hcs]; rfl, fun rest => by simpa [wordFrom] using hagain rest⟩
  | case4 => cases h

theorem wordAt_closes {w : String} {c d : Cursor} (hw : w.toList ≠ [])
    (h : wordAt w c = .ok d) : Closes (fun c d => wordAt w c = .ok d) w.toList c d :=
  ⟨hw, (wordFrom_closes h).1, (wordFrom_closes h).2⟩

/-! ### Strings -/

/-- A string that is read from behind its opening quote on, and is read whatever follows it. -/
def ReadsString (strict : Bool) (p : Position) (cs s : List Char) (d : Cursor) : Prop :=
  ∃ w, IsQuoted w ∧ cs = w ++ d.rest ∧
    ∀ rest, stringFrom strict p (w ++ rest) = .ok (s, ⟨d.position, rest⟩)

/-- One character of a string, written as `u`, and the characters behind it. -/
theorem ReadsString.step {strict : Bool} {p q : Position} {u cs s : List Char} {y : Char}
    {d : Cursor}
    (hquoted : ∀ w, IsQuoted w → IsQuoted (u ++ w))
    (hstep : ∀ cs, stringFrom strict p (u ++ cs) =
      (stringFrom strict q cs).map fun (value, stop) => (y :: value, stop))
    (ih : ∀ {s : List Char} {d : Cursor}, stringFrom strict q cs = .ok (s, d) →
      ReadsString strict q cs s d)
    (h : ((stringFrom strict q cs).map fun (value, stop) => (y :: value, stop)) = .ok (s, d)) :
    ReadsString strict p (u ++ cs) s d := by
  obtain ⟨⟨t, e⟩, ht, heq⟩ := map_eq_ok_iff.1 h
  cases heq
  obtain ⟨w, hw, hcs, hagain⟩ := ih ht
  refine ⟨u ++ w, hquoted w hw, by rw [hcs, List.append_assoc], fun rest => ?_⟩
  rw [List.append_assoc, hstep, hagain]
  rfl

theorem readsString_of_stringFrom {strict : Bool} {p : Position} {cs s : List Char} {d : Cursor}
    (h : stringFrom strict p cs = .ok (s, d)) : ReadsString strict p cs s d := by
  fun_induction stringFrom strict p cs generalizing s d with
  | case2 p cs =>
    cases h
    exact ⟨['"'], .close, rfl, fun rest => rfl⟩
  | case6 p a b c d' high hhigh hnotlow hishigh e f g i cs low hlow hislow here behind =>
    rename_i after ih
    refine ReadsString.step (u := ['\\', 'u', a, b, c, d', '\\', 'u', e, f, g, i])
      (fun w hw => .unicode hhigh (.unicode hlow hw)) (fun cs => ?_) ih h
    simp [stringFrom, hhigh, hnotlow, hishigh, hlow, hislow, after, behind, here,
      Cursor.advanceBy, Cursor.advance]
  | case9 p a b c d' cs here n hn behind hnotlow =>
    rename_i hnothigh ih
    refine ReadsString.step (u := ['\\', 'u', a, b, c, d']) (fun w hw => .unicode hn hw)
      (fun cs => ?_) ih h
    simp [stringFrom, hn, hnotlow, hnothigh, behind, here, Cursor.advanceBy, Cursor.advance]
  | case11 p x cs _ hu y hy ih =>
    refine ReadsString.step (u := ['\\', x]) (fun w hw => .escape hy hw) (fun cs => ?_) ih h
    rw [List.cons_append, List.singleton_append, stringFrom, hy]
    · exact fun _ _ _ _ _ hx => (hu hx).elim
    · exact hu
  | case15 p x cs hquote _ _ hslash hend hcontrol ih =>
    have hplain : x ≠ '\\' := by
      intro hx
      cases cs with
      | nil => exact hend hx rfl
      | cons y cs => exact hslash y cs hx rfl
    refine ReadsString.step (u := [x]) (fun w hw => .plain hquote hplain hcontrol hw)
      (fun cs => ?_) ih h
    simp [stringFrom, hplain, hcontrol]
  | _ => cases h

/-- From the opening quote of a string to behind the closing one. -/
def StringAt (strict : Bool) (s : List Char) (c d : Cursor) : Prop :=
  c.rest.head? = some '"' ∧ stringAt strict c = .ok (s, d)

theorem StringAt.closes {strict : Bool} {s : List Char} {c d : Cursor}
    (h : StringAt strict s c d) :
    ∃ w, IsQuoted w ∧ Closes (StringAt strict s) ('"' :: w) c d := by
  obtain ⟨hquote, h⟩ := h
  obtain ⟨cs, hc⟩ := List.head?_eq_some_iff.1 hquote
  have hstring (rest : List Char) : stringAt strict ⟨c.position, '"' :: rest⟩ =
      stringFrom strict (c.position.next '"') rest := rfl
  have heta : c = ⟨c.position, '"' :: cs⟩ := by rw [← hc]
  rw [heta, hstring] at h
  obtain ⟨w, hw, hcs, hagain⟩ := readsString_of_stringFrom h
  refine ⟨w, hw, by simp, by rw [hc, hcs]; rfl, fun rest => ⟨rfl, ?_⟩⟩
  rw [List.cons_append, hstring]
  exact hagain rest

/-! ### Numbers -/

/-- From the character `x` to the place behind it, where `x` is a part of a number. -/
def StepsOver (x : Char) (c d : Cursor) : Prop :=
  c.rest = x :: d.rest ∧ c.passed 1 = d

theorem stepsOver_iff {x : Char} {c d : Cursor} :
    StepsOver x c d ↔ c.rest.head? = some x ∧ c.passed 1 = d := by
  constructor
  · rintro ⟨hc, hd⟩
    exact ⟨by rw [hc]; rfl, hd⟩
  · rintro ⟨hc, rfl⟩
    obtain ⟨cs, hc⟩ := List.head?_eq_some_iff.1 hc
    exact ⟨by simp [Cursor.passed, hc], rfl⟩

theorem StepsOver.takes {x : Char} {c d : Cursor} (h : StepsOver x c d) :
    Takes (StepsOver x) [x] c d where
  rest_eq := h.1
  again _ _ := ⟨rfl, by rw [← h.2]; rfl⟩

theorem takeDigits_append {ds rest : List Char} (p : Position)
    (hds : ∀ x ∈ ds, x.isDigit = true) (hrest : ∀ x, rest.head? = some x → x.isDigit = false) :
    takeDigits ⟨p, ds ++ rest⟩ = (ds, ⟨⟨p.line, p.column + ds.length⟩, rest⟩) := by
  have hstop : rest.takeWhile Char.isDigit = [] := by
    cases rest with
    | nil => rfl
    | cons x rest => simp [hrest x rfl]
  have hall : (ds ++ rest).takeWhile Char.isDigit = ds := by
    rw [List.takeWhile_append_of_pos hds, hstop, List.append_nil]
  simp only [takeDigits, Cursor.passed, hall, List.drop_left]

theorem takeDigits_takes {c d : Cursor} {ds : List Char} (h : takeDigits c = (ds, d)) :
    (∀ x ∈ ds, x.isDigit = true) ∧ Takes (fun c d => takeDigits c = (ds, d)) ds c d := by
  have hds : ∀ x ∈ c.rest.takeWhile Char.isDigit, x.isDigit = true := fun x hx =>
    List.mem_takeWhile_imp hx
  have hrest : ∀ x, (c.rest.dropWhile Char.isDigit).head? = some x → x.isDigit = false := by
    intro x hx
    simpa [hx] using List.head?_dropWhile_not Char.isDigit c.rest
  have heq := takeDigits_append c.position hds hrest
  rw [List.takeWhile_append_dropWhile, h] at heq
  cases heq
  refine ⟨hds, List.takeWhile_append_dropWhile.symm, fun rest hagain => ?_⟩
  exact takeDigits_append c.position hds (by rwa [hagain])

theorem head?_of_takeDigits {c d : Cursor} {x : Char} {ds : List Char}
    (h : takeDigits c = (x :: ds, d)) : c.rest.head? = some x := by
  rw [(takeDigits_takes h).2.rest_eq]
  rfl

theorem wholeAt_of_takeDigits {strict : Bool} {c d : Cursor} {x : Char} {ds : List Char}
    (hx : x ≠ '0') (h : takeDigits c = (x :: ds, d)) : wholeAt strict c = .ok (x :: ds, d) := by
  have hdigit : x.isDigit = true := (takeDigits_takes h).1 x (by simp)
  obtain ⟨cs, hc⟩ := List.head?_eq_some_iff.1 (head?_of_takeDigits h)
  simp [wholeAt, hc, hdigit, h]

theorem wholeAt_takes {strict : Bool} {c d : Cursor} {ds : List Char}
    (h : wholeAt strict c = .ok (ds, d)) : IsDigits ds ∧ (ds.head? = some '0' → ds = ['0']) ∧
      Takes (fun c d => wholeAt strict c = .ok (ds, d)) ds c d := by
  unfold wholeAt at h
  split at h
  · cases h
  · rename_i cs hc
    simp only at h
    split at h
    · cases h
    · rename_i hdigit
      cases h
      have hstep : StepsOver '0' c (c.passed 1) := stepsOver_iff.2 ⟨by rw [hc]; rfl, rfl⟩
      refine ⟨⟨by simp, by simp⟩, fun _ => rfl, hstep.takes.mono ?_⟩
      rintro c' rest hrest ⟨hc', hpassed⟩
      have hnext : (c.passed 1).rest = cs := by simp [Cursor.passed, hc]
      rw [hnext] at hrest
      simp only at hc'
      simp only [wholeAt, hc', hrest, hdigit, hpassed]
      rfl
  · rename_i x cs hx hc
    split at h
    · rename_i hdigit
      have htake := Except.ok.inj h
      cases ds with
      | nil => simp [takeDigits, hc, hdigit] at htake
      | cons y ds =>
        obtain ⟨hds, ht⟩ := takeDigits_takes htake
        have hy := head?_of_takeDigits htake
        rw [hc] at hy
        cases hy
        exact ⟨⟨by simp, hds⟩, fun h0 => absurd (Option.some.inj h0) hx,
          ht.mono fun c' rest _ htake' => wholeAt_of_takeDigits hx htake'⟩
    · cases h

theorem minusAt_eq_iff {c d : Cursor} {negative : Bool} :
    minusAt c = (negative, d) ↔
      (negative = true ∧ StepsOver '-' c d) ∨
        (negative = false ∧ c.rest.head? ≠ some '-' ∧ c = d) := by
  unfold minusAt
  split
  · rename_i cs hc
    simp [stepsOver_iff, hc, eq_comm]
  · rename_i hc
    simp [stepsOver_iff, head?_ne_some hc, eq_comm]

theorem minusAt_takes {c d : Cursor} {negative : Bool} (h : minusAt c = (negative, d)) :
    ∃ w, (w = [] ∨ w = ['-']) ∧ Takes (fun c d => minusAt c = (negative, d)) w c d := by
  rcases minusAt_eq_iff.1 h with ⟨rfl, hstep⟩ | ⟨rfl, hhead, rfl⟩
  · exact ⟨['-'], .inr rfl, hstep.takes.mono fun c' rest _ hstep' =>
      minusAt_eq_iff.2 (.inl ⟨rfl, hstep'⟩)⟩
  · exact ⟨[], .inl rfl, takes_nil fun rest hrest =>
      minusAt_eq_iff.2 (.inr ⟨rfl, by rwa [hrest], rfl⟩)⟩

theorem signAt_eq_iff {c d : Cursor} {negative : Bool} :
    signAt c = (negative, d) ↔
      (negative = false ∧ StepsOver '+' c d) ∨ (negative = true ∧ StepsOver '-' c d) ∨
        (negative = false ∧ c.rest.head? ≠ some '+' ∧ c.rest.head? ≠ some '-' ∧ c = d) := by
  unfold signAt
  split
  · rename_i cs hc
    simp [stepsOver_iff, hc, eq_comm]
  · rename_i cs hc
    simp [stepsOver_iff, hc, eq_comm]
  · rename_i hplus hminus
    simp [stepsOver_iff, head?_ne_some hplus, head?_ne_some hminus, eq_comm]

theorem signAt_takes {c d : Cursor} {negative : Bool} (h : signAt c = (negative, d)) :
    ∃ w, (w = [] ∨ w = ['+'] ∨ w = ['-']) ∧
      Takes (fun c d => signAt c = (negative, d)) w c d := by
  rcases signAt_eq_iff.1 h with ⟨rfl, hstep⟩ | ⟨rfl, hstep⟩ | ⟨rfl, hplus, hminus, rfl⟩
  · exact ⟨['+'], .inr (.inl rfl), hstep.takes.mono fun c' rest _ hstep' =>
      signAt_eq_iff.2 (.inl ⟨rfl, hstep'⟩)⟩
  · exact ⟨['-'], .inr (.inr rfl), hstep.takes.mono fun c' rest _ hstep' =>
      signAt_eq_iff.2 (.inr (.inl ⟨rfl, hstep'⟩))⟩
  · exact ⟨[], .inl rfl, takes_nil fun rest hrest =>
      signAt_eq_iff.2 (.inr (.inr ⟨rfl, by rwa [hrest], by rwa [hrest], rfl⟩))⟩

/-- With a point, digits have to follow; nothing happens without one. -/
theorem fractionAt_eq_ok_iff {strict : Bool} {c d : Cursor} {fraction : Option (List Char)} :
    fractionAt strict c = .ok (fraction, d) ↔
      (∃ ds, Comp (StepsOver '.') (fun c d => takeDigits c = (ds, d)) c d ∧ ds ≠ [] ∧
        fraction = some ds) ∨
      (fraction = none ∧ c.rest.head? ≠ some '.' ∧ c = d) := by
  unfold fractionAt Comp
  split
  · rename_i cs hc
    have hstep (e : Cursor) : StepsOver '.' c e ↔ e = c.passed 1 := by
      simp [stepsOver_iff, hc, eq_comm]
    rcases htake : takeDigits (c.passed 1) with ⟨ds, behind⟩
    simp only [hstep, exists_eq_left, htake, Prod.mk.injEq]
    split <;> grind
  · rename_i hc
    simp [stepsOver_iff, head?_ne_some hc, eq_comm]

theorem fractionAt_takes {strict : Bool} {c d : Cursor} {fraction : Option (List Char)}
    (h : fractionAt strict c = .ok (fraction, d)) :
    ∃ w, IsFraction w ∧ Takes (fun c d => fractionAt strict c = .ok (fraction, d)) w c d := by
  rcases fractionAt_eq_ok_iff.1 h with ⟨ds, ⟨e, hstep, htake⟩, hne, rfl⟩ | ⟨rfl, hhead, rfl⟩
  · obtain ⟨hds, ht⟩ := takeDigits_takes htake
    exact ⟨'.' :: ds, .inr ⟨ds, ⟨hne, hds⟩, rfl⟩, (hstep.takes.comp ht).mono fun c' rest _ hcomp =>
      fractionAt_eq_ok_iff.2 (.inl ⟨ds, hcomp, hne, rfl⟩)⟩
  · exact ⟨[], .inl rfl, takes_nil fun rest hrest =>
      fractionAt_eq_ok_iff.2 (.inr ⟨rfl, by rwa [hrest], rfl⟩)⟩

/-- With a mark, digits have to follow, behind a sign if there is one; nothing happens without a
mark. -/
theorem exponentAt_eq_ok_iff {strict : Bool} {c d : Cursor}
    {exponent : Option (Bool × List Char)} :
    exponentAt strict c = .ok (exponent, d) ↔
      (∃ mark negative ds, (mark = 'e' ∨ mark = 'E') ∧
        Comp (StepsOver mark) (Comp (fun c d => signAt c = (negative, d))
          (fun c d => takeDigits c = (ds, d))) c d ∧ ds ≠ [] ∧ exponent = some (negative, ds)) ∨
      (exponent = none ∧ c.rest.head? ≠ some 'e' ∧ c.rest.head? ≠ some 'E' ∧ c = d) := by
  unfold exponentAt Comp
  split
  · rename_i hc
    simp [stepsOver_iff, hc, eq_comm]
  · rename_i x cs hc
    have hstep (mark : Char) (e : Cursor) : StepsOver mark c e ↔ mark = x ∧ e = c.passed 1 := by
      simp [stepsOver_iff, hc, eq_comm]
    rcases hsign : signAt (c.passed 1) with ⟨negative, signed⟩
    rcases htake : takeDigits signed with ⟨ds, behind⟩
    simp only [hstep, htake, hc, List.head?_cons]
    split
    · rename_i hx
      constructor
      · intro h
        split at h
        · split at h <;> cases h
        · rename_i hds
          cases h
          exact .inl ⟨x, negative, ds, hx, ⟨_, ⟨rfl, rfl⟩, signed, hsign, htake⟩, hds, rfl⟩
      · rintro (⟨mark, negative', ds', -, ⟨e, ⟨rfl, rfl⟩, f, hf, hd⟩, hne, rfl⟩ | ⟨-, he, hE, -⟩)
        · cases hsign.symm.trans hf
          cases htake.symm.trans hd
          rw [if_neg hne]
        · rcases hx with rfl | rfl
          · exact absurd rfl he
          · exact absurd rfl hE
    · grind

theorem exponentAt_takes {strict : Bool} {c d : Cursor} {exponent : Option (Bool × List Char)}
    (h : exponentAt strict c = .ok (exponent, d)) :
    ∃ w, IsExponent w ∧ Takes (fun c d => exponentAt strict c = .ok (exponent, d)) w c d := by
  rcases exponentAt_eq_ok_iff.1 h with
    ⟨mark, negative, ds, hmark, ⟨e, hstep, f, hsign, htake⟩, hne, rfl⟩ | ⟨rfl, he, hE, rfl⟩
  · obtain ⟨sign, hsign, ht⟩ := signAt_takes hsign
    obtain ⟨hds, ht'⟩ := takeDigits_takes htake
    refine ⟨mark :: (sign ++ ds), .inr ⟨mark, sign, ds, hmark, hsign, ⟨hne, hds⟩, rfl⟩, ?_⟩
    exact (hstep.takes.comp (ht.comp ht')).mono fun c' rest _ hcomp =>
      exponentAt_eq_ok_iff.2 (.inl ⟨mark, negative, ds, hmark, hcomp, hne, rfl⟩)
  · exact ⟨[], .inl rfl, takes_nil fun rest hrest =>
      exponentAt_eq_ok_iff.2 (.inr ⟨rfl, by rwa [hrest], by rwa [hrest], rfl⟩)⟩

/-- The parts of a number follow one another. -/
theorem numberAt_eq_ok_iff {strict : Bool} {c d : Cursor} {t : NumberText} :
    numberAt strict c = .ok (t, d) ↔
      Comp (fun c d => minusAt c = (t.negative, d))
        (Comp (fun c d => wholeAt strict c = .ok (t.whole, d))
          (Comp (fun c d => fractionAt strict c = .ok (t.fraction, d))
            (fun c d => exponentAt strict c = .ok (t.exponent, d)))) c d := by
  unfold numberAt Comp
  rcases hminus : minusAt c with ⟨negative, e⟩
  simp only [bind_eq_ok_iff, Prod.exists]
  constructor
  · rintro ⟨whole, f, hwhole, fraction, g, hfraction, exponent, i, hexponent, h⟩
    cases h
    exact ⟨e, hminus, f, hwhole, g, hfraction, hexponent⟩
  · rintro ⟨e', he, f, hwhole, g, hfraction, hexponent⟩
    cases hminus.symm.trans he
    exact ⟨_, f, hwhole, _, g, hfraction, _, d, hexponent, rfl⟩

theorem numberAt_takes {strict : Bool} {c d : Cursor} {t : NumberText}
    (h : numberAt strict c = .ok (t, d)) :
    ∃ w, IsNumber w ∧ Takes (fun c d => numberAt strict c = .ok (t, d)) w c d := by
  obtain ⟨e, hminus, f, hwhole, g, hfraction, hexponent⟩ := numberAt_eq_ok_iff.1 h
  obtain ⟨minus, hminus, ht₁⟩ := minusAt_takes hminus
  obtain ⟨hwhole, hzero, ht₂⟩ := wholeAt_takes hwhole
  obtain ⟨fraction, hfraction, ht₃⟩ := fractionAt_takes hfraction
  obtain ⟨exponent, hexponent, ht₄⟩ := exponentAt_takes hexponent
  refine ⟨minus ++ (t.whole ++ (fraction ++ exponent)), ?_,
    (ht₁.comp (ht₂.comp (ht₃.comp ht₄))).mono fun c' rest _ => numberAt_eq_ok_iff.2⟩
  simpa only [List.append_assoc] using IsNumber.mk hminus hwhole hzero hfraction hexponent

end FieldRules.Json
