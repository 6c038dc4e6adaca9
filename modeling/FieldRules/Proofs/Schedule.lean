import FieldRules.Except
import FieldRules.Schedule
import Mathlib.Data.List.Forall2

/-!
# The outcome of parallel work

Whether parallel work succeeds, and with which values, does not depend on its schedule
(`collect_map_eq_ok_iff`). If it fails, the fault is one of those that occur, and every one of them
is reported by some schedule (`exists_collect_eq_error_iff`). Only if the work is done in order, the
fault is known to be the first, as that of a traversal is (`collect_inOrder`).
-/

namespace FieldRules.Schedule

variable {ε α β : Type} {schedule : Schedule} {results : List (Except ε α)} {fault : ε}
  {f : α → Except ε β} {xs : List α}

theorem mem_faults_iff : fault ∈ faults results ↔ .error fault ∈ results := by
  induction results with
  | nil => simp [faults]
  | cons result results ih => cases result <;> simp [faults, ih]

/-! ### Success -/

/-- A value in front of other results is collected in front of their values. -/
theorem collect_cons_ok (schedule : Schedule) (value : α) (results : List (Except ε α)) :
    schedule.collect (.ok value :: results) = (schedule.collect results).map (value :: ·) := by
  simp only [collect, faults, values]
  cases faults results <;> rfl

/-- A result without a value is enough for a failure. -/
theorem collect_cons_error_ne_ok {collected : List α} :
    schedule.collect (.error fault :: results) ≠ .ok collected := by
  simp [collect, faults]

theorem collect_eq_ok_iff {collected : List α} :
    schedule.collect results = .ok collected ↔ results = collected.map .ok := by
  induction results generalizing collected with
  | nil => cases collected <;> simp [collect, faults, values]
  | cons result results ih =>
    cases result with
    | error fault =>
      refine iff_of_false collect_cons_error_ne_ok fun h => ?_
      cases collected <;> simp at h
    | ok value =>
      rw [collect_cons_ok, map_eq_ok_iff]
      cases collected <;> simp [ih, and_comm]

/-- **Parallel work succeeds if all of it does**, under every schedule, and its values stand for the
elements one by one. -/
theorem collect_map_eq_ok_iff {collected : List β} :
    schedule.collect (xs.map f) = .ok collected ↔
      List.Forall₂ (fun x value => f x = .ok value) xs collected := by
  rw [collect_eq_ok_iff, ← List.forall₂_eq_eq_eq, List.forall₂_map_left_iff,
    List.forall₂_map_right_iff]

/-! ### Failure -/

/-- The fault that is reported is one of those that occur. -/
theorem mem_of_collect_eq_error (h : schedule.collect results = .error fault) :
    .error fault ∈ results := by
  rw [← mem_faults_iff]
  unfold collect at h
  split at h
  case h_1 => cases h
  case h_2 first others hfaults =>
    rw [hfaults, ← Except.error.inj h]
    exact List.get_mem _ _

theorem exists_mem_of_collect_map_eq_error (h : schedule.collect (xs.map f) = .error fault) :
    ∃ x ∈ xs, f x = .error fault :=
  List.mem_map.1 (mem_of_collect_eq_error h)

/-- **Any fault that occurs may be reported**, and no other. -/
theorem exists_collect_eq_error_iff :
    (∃ schedule : Schedule, schedule.collect results = .error fault) ↔
      .error fault ∈ results := by
  constructor
  · rintro ⟨schedule, h⟩
    exact mem_of_collect_eq_error h
  · intro h
    obtain ⟨first, others, hfaults⟩ :=
      List.exists_cons_of_ne_nil (List.ne_nil_of_mem (mem_faults_iff.2 h))
    obtain ⟨place, hplace⟩ := List.get_of_mem (hfaults ▸ mem_faults_iff.2 h)
    have hnoticed : Fin.ofNat (others.length + 1) place = place :=
      Fin.ext (Nat.mod_eq_of_lt place.isLt)
    refine ⟨⟨fun n => Fin.ofNat (n + 1) place⟩, ?_⟩
    simp only [collect, hfaults, hnoticed]
    exact congrArg _ hplace

/-- In order, parallel work is a traversal. -/
theorem collect_inOrder : inOrder.collect (xs.map f) = xs.mapM f := by
  induction xs with
  | nil => rfl
  | cons x xs ih =>
    rw [List.map_cons, List.mapM_cons]
    cases f x with
    | error fault => rfl
    | ok value =>
      rw [collect_cons_ok, ih]
      rfl

end FieldRules.Schedule
