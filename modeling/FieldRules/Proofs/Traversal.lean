import FieldRules.Except
import Mathlib.Data.List.Forall2

/-!
# Lists of computations that may fail

What `mapM` does over `Except` and `Option`: it succeeds exactly if every element does, and then its
results stand for the elements one by one. It fails with the fault of the first element that fails.
-/

namespace FieldRules

variable {ε α β : Type} {f : α → Except ε β}

/-- The results of a traversal stand for the elements one by one. -/
theorem mapM_eq_ok_iff {xs : List α} {ys : List β} :
    xs.mapM f = .ok ys ↔ List.Forall₂ (fun x y => f x = .ok y) xs ys := by
  induction xs generalizing ys with
  | nil =>
    rw [List.mapM_nil, List.forall₂_nil_left_iff]
    exact ⟨fun h => (Except.ok.inj h).symm, fun h => congrArg Except.ok h.symm⟩
  | cons x xs ih =>
    rw [List.mapM_cons, bind_eq_ok_iff, List.forall₂_cons_left_iff]
    constructor
    · rintro ⟨y, hy, h⟩
      obtain ⟨ys', hys, h⟩ := bind_eq_ok_iff.1 h
      exact ⟨y, ys', hy, ih.1 hys, (Except.ok.inj h).symm⟩
    · rintro ⟨y, ys', hy, hys, rfl⟩
      exact ⟨y, hy, bind_eq_ok_iff.2 ⟨ys', ih.2 hys, rfl⟩⟩

/-- So do the results of a traversal that may have none. -/
theorem mapM_eq_some_iff {g : α → Option β} {xs : List α} {ys : List β} :
    xs.mapM g = some ys ↔ List.Forall₂ (fun x y => g x = some y) xs ys := by
  induction xs generalizing ys with
  | nil =>
    rw [List.mapM_nil, List.forall₂_nil_left_iff]
    exact ⟨fun h => (Option.some.inj h).symm, fun h => congrArg some h.symm⟩
  | cons x xs ih =>
    rw [List.mapM_cons, List.forall₂_cons_left_iff]
    constructor
    · intro h
      obtain ⟨y, hy, h⟩ := Option.bind_eq_some_iff.1 h
      obtain ⟨ys', hys, h⟩ := Option.bind_eq_some_iff.1 h
      exact ⟨y, ys', hy, ih.1 hys, (Option.some.inj h).symm⟩
    · rintro ⟨y, ys', hy, hys, rfl⟩
      exact Option.bind_eq_some_iff.2 ⟨y, hy, Option.bind_eq_some_iff.2 ⟨ys', ih.2 hys, rfl⟩⟩

/-- A list has partners in step exactly if each of its elements has one. -/
theorem exists_forall₂_iff {R : α → β → Prop} {xs : List α} :
    (∃ ys, List.Forall₂ R xs ys) ↔ ∀ x ∈ xs, ∃ y, R x y := by
  induction xs with
  | nil => simp
  | cons x xs ih =>
    rw [List.forall_mem_cons, ← ih]
    constructor
    · rintro ⟨_, h⟩
      cases h with
      | cons hxy hys => exact ⟨⟨_, hxy⟩, _, hys⟩
    · rintro ⟨⟨y, hxy⟩, ys, hys⟩
      exact ⟨y :: ys, .cons hxy hys⟩

/-- The fault of a traversal is the fault of one of the elements. -/
theorem exists_mem_of_mapM_eq_error {xs : List α} {fault : ε} (h : xs.mapM f = .error fault) :
    ∃ x ∈ xs, f x = .error fault := by
  induction xs with
  | nil => cases h
  | cons x xs ih =>
    rw [List.mapM_cons, bind_eq_error_iff] at h
    rcases h with hx | ⟨y, -, h⟩
    · exact ⟨x, List.mem_cons_self, hx⟩
    · rcases bind_eq_error_iff.1 h with hxs | ⟨ys, -, h⟩
      · obtain ⟨z, hz, hfault⟩ := ih hxs
        exact ⟨z, List.mem_cons_of_mem x hz, hfault⟩
      · cases h

/-- A traversal fails with the fault of the first element that fails. -/
theorem mapM_eq_error_iff {xs : List α} {fault : ε} :
    xs.mapM f = .error fault ↔ ∃ before x after, xs = before ++ x :: after ∧
      (∀ y ∈ before, ∃ b, f y = .ok b) ∧ f x = .error fault := by
  induction xs with
  | nil => simp [pure, Except.pure]
  | cons x xs ih =>
    rw [List.mapM_cons, bind_eq_error_iff]
    constructor
    · rintro (hx | ⟨b, hb, h⟩)
      · exact ⟨[], x, xs, rfl, by simp, hx⟩
      · rcases bind_eq_error_iff.1 h with hxs | ⟨bs, -, h⟩
        · obtain ⟨before, y, after, rfl, hbefore, hy⟩ := ih.1 hxs
          exact ⟨x :: before, y, after, rfl, List.forall_mem_cons.2 ⟨⟨b, hb⟩, hbefore⟩, hy⟩
        · cases h
    · rintro ⟨before, y, after, hsplit, hbefore, hy⟩
      cases before with
      | nil =>
        cases hsplit
        exact .inl hy
      | cons z before =>
        cases hsplit
        obtain ⟨⟨b, hb⟩, hbefore⟩ := List.forall_mem_cons.1 hbefore
        exact .inr ⟨b, hb, bind_eq_error_iff.2 (.inl (ih.2 ⟨before, y, after, rfl, hbefore, hy⟩))⟩

/-- A traversal of some of the elements fails with the fault of the first of them that fails. -/
theorem mapM_filter_eq_error_iff {p : α → Bool} {xs : List α} {fault : ε} :
    (xs.filter p).mapM f = .error fault ↔ ∃ before x after, xs = before ++ x :: after ∧
      (∀ y ∈ before, p y = true → ∃ b, f y = .ok b) ∧ p x = true ∧ f x = .error fault := by
  rw [mapM_eq_error_iff]
  constructor
  · rintro ⟨_, x, _, hsplit, hbefore, hx⟩
    obtain ⟨front, back, rfl, rfl, hback⟩ := List.filter_eq_append_iff.1 hsplit
    obtain ⟨skipped, after, rfl, hskipped, hpx, -⟩ := List.filter_eq_cons_iff.1 hback
    refine ⟨front ++ skipped, x, after, by simp, fun y hy hpy => ?_, hpx, hx⟩
    rcases List.mem_append.1 hy with hy | hy
    · exact hbefore y (List.mem_filter.2 ⟨hy, hpy⟩)
    · exact absurd hpy (hskipped y hy)
  · rintro ⟨before, x, after, rfl, hbefore, hpx, hx⟩
    refine ⟨before.filter p, x, after.filter p, by simp [hpx], fun y hy => ?_, hx⟩
    obtain ⟨hy, hpy⟩ := List.mem_filter.1 hy
    exact hbefore y hy hpy

/-- A traversal of the results of another is one traversal, which does both at each element. -/
theorem mapM_of_mapM_eq_ok {γ : Type} {g : β → Except ε γ} {xs : List α} {ys : List β}
    (h : xs.mapM f = .ok ys) : ys.mapM g = xs.mapM fun x => f x >>= g := by
  have hstep := mapM_eq_ok_iff.1 h
  clear h
  induction hstep with
  | nil => rfl
  | cons hx _ ih =>
    rw [List.mapM_cons, List.mapM_cons, ih, hx]
    rfl

/-- A function can be applied to the results at each element, or to all of them at the end. -/
theorem mapM_map_eq_map_mapM {γ : Type} {g : β → γ} {xs : List α} :
    (xs.mapM fun x => (f x).map g) = (xs.mapM f).map (List.map g) := by
  induction xs with
  | nil => rfl
  | cons x xs ih =>
    rw [List.mapM_cons, List.mapM_cons, ih]
    cases f x with
    | error fault => rfl
    | ok y => cases xs.mapM f <;> rfl

/-- Every element in front of this one has the property. -/
def AllBefore (p : α → Prop) (xs : List α) (x : α) : Prop :=
  ∃ before after, xs = before ++ x :: after ∧ ∀ y ∈ before, p y

theorem AllBefore.mem {p : α → Prop} {xs : List α} {x : α} (h : AllBefore p xs x) : x ∈ xs := by
  obtain ⟨before, after, rfl, -⟩ := h
  simp

theorem allBefore_congr {p q : α → Prop} {xs : List α} {x : α} (h : ∀ y ∈ xs, (p y ↔ q y)) :
    AllBefore p xs x ↔ AllBefore q xs x := by
  refine exists_congr fun before => exists_congr fun after => and_congr_right fun hsplit => ?_
  exact forall₂_congr fun y hy => h y (by simp [hsplit, hy])

/-- A traversal fails with the fault of an element in front of which none fails. -/
theorem mapM_eq_error_iff_allBefore {xs : List α} {fault : ε} :
    xs.mapM f = .error fault ↔
      ∃ x, AllBefore (fun y => ∃ b, f y = .ok b) xs x ∧ f x = .error fault := by
  rw [mapM_eq_error_iff]
  constructor
  · rintro ⟨before, x, after, hsplit, hbefore, hx⟩
    exact ⟨x, ⟨before, after, hsplit, hbefore⟩, hx⟩
  · rintro ⟨x, ⟨before, after, hsplit, hbefore⟩, hx⟩
    exact ⟨before, x, after, hsplit, hbefore, hx⟩

/-- Partners that are determined by the elements come from a function. -/
theorem exists_map_of_forall₂ [Nonempty β] {R : α → β → Prop} {xs : List α} {ys : List β}
    (h : List.Forall₂ R xs ys) (hunique : ∀ x y z, R x y → R x z → y = z) :
    ∃ g : α → β, (∀ x ∈ xs, R x (g x)) ∧ ys = xs.map g := by
  have hpartner : ∀ x, ∃ y, x ∈ xs → R x y := by
    intro x
    by_cases hx : x ∈ xs
    · obtain ⟨y, hy⟩ := exists_forall₂_iff.1 ⟨ys, h⟩ x hx
      exact ⟨y, fun _ => hy⟩
    · exact ⟨Classical.arbitrary β, fun hmem => absurd hmem hx⟩
  choose g hg using hpartner
  refine ⟨g, hg, ?_⟩
  induction h with
  | nil => rfl
  | @cons x y xs ys hxy _ ih =>
    have hy : y = g x := hunique x y (g x) hxy (hg x List.mem_cons_self)
    have hys : ys = xs.map g := ih fun z hz => hg z (List.mem_cons_of_mem x hz)
    rw [hy, hys, List.map_cons]

/-- What two lists in step have in common is the same list. -/
theorem map_eq_map_of_forall₂ {γ : Type} {R : α → β → Prop} {g : α → γ} {k : β → γ} {xs : List α}
    {ys : List β} (h : List.Forall₂ R xs ys) (hcommon : ∀ x y, R x y → g x = k y) :
    xs.map g = ys.map k := by
  induction h with
  | nil => rfl
  | cons hxy _ ih => rw [List.map_cons, List.map_cons, hcommon _ _ hxy, ih]

/-- Two traversals one after the other are one, which does both at each element. -/
theorem exists_forall₂_and_iff {γ : Type} {R : α → β → Prop} {S : β → γ → Prop} {xs : List α}
    {zs : List γ} :
    (∃ ys, List.Forall₂ R xs ys ∧ List.Forall₂ S ys zs) ↔
      List.Forall₂ (fun x z => ∃ y, R x y ∧ S y z) xs zs := by
  constructor
  · rintro ⟨ys, hxs, hys⟩
    induction hxs generalizing zs with
    | nil =>
      cases hys
      exact .nil
    | cons hxy _ ih =>
      cases hys with
      | cons hyz hys => exact .cons ⟨_, hxy, hyz⟩ (ih hys)
  · intro h
    induction h with
    | nil => exact ⟨[], .nil, .nil⟩
    | cons hxz _ ih =>
      obtain ⟨y, hxy, hyz⟩ := hxz
      obtain ⟨ys, hxs, hys⟩ := ih
      exact ⟨y :: ys, .cons hxy hxs, .cons hyz hys⟩

/-- An element on the right of two lists in step has a partner on the left. -/
theorem forall₂_mem_right {R : α → β → Prop} {xs : List α} {ys : List β}
    (h : List.Forall₂ R xs ys) {y : β} (hy : y ∈ ys) : ∃ x ∈ xs, R x y := by
  induction h with
  | nil => cases hy
  | cons hxy _ ih =>
    rcases List.mem_cons.1 hy with rfl | hy
    · exact ⟨_, List.mem_cons_self, hxy⟩
    · obtain ⟨x, hx, hR⟩ := ih hy
      exact ⟨x, List.mem_cons_of_mem _ hx, hR⟩

/-- Elements at the same place of two lists in step are partners. -/
theorem exists_getElem?_of_forall₂ {R : α → β → Prop} {xs : List α} {ys : List β}
    (h : List.Forall₂ R xs ys) {i : Nat} {x : α} (hx : xs[i]? = some x) :
    ∃ y, ys[i]? = some y ∧ R x y := by
  induction h generalizing i with
  | nil => cases hx
  | @cons _ b _ _ hab _ ih =>
    cases i with
    | zero =>
      cases hx
      exact ⟨b, rfl, hab⟩
    | succ i => exact ih hx

end FieldRules
