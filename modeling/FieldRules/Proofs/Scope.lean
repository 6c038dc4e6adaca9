import FieldRules.Scope
import Mathlib.Data.List.Nodup

/-!
# When declarations have a scope

Some declarations have a scope exactly if no two of them have the same key, and then their scope is
`Scope.of`: the declarations with all their keys.
-/

namespace FieldRules

/-- The declarations with their keys, whether or not a key is repeated. -/
def Scope.of (types : List Declaration) : Scope :=
  ⟨types, ⟨types.map Declaration.key⟩⟩

/-- No key is repeated exactly if the keys are pairwise different and none has been seen before. -/
theorem TypeIndex.firstRepeated_eq_none_iff (seen : List (String × String))
    (types : List Declaration) :
    firstRepeated seen types = none ↔
      (types.map Declaration.key).Nodup ∧ ∀ d ∈ types, d.key ∉ seen := by
  induction types generalizing seen with
  | nil => simp [firstRepeated]
  | cons d ds ih =>
    rw [firstRepeated, List.map_cons, List.nodup_cons, List.forall_mem_cons]
    by_cases hd : d.key ∈ seen
    · simp [hd]
    · rw [if_neg (by simpa using hd), ih]
      constructor
      · rintro ⟨hnodup, hseen⟩
        refine ⟨⟨?_, hnodup⟩, hd, fun e he hmem => hseen e he (List.mem_cons_of_mem _ hmem)⟩
        intro hmem
        obtain ⟨e, he, hkey⟩ := List.mem_map.1 hmem
        exact hseen e he (hkey ▸ List.mem_cons_self)
      · rintro ⟨⟨hnew, hnodup⟩, -, hseen⟩
        refine ⟨hnodup, fun e he hmem => ?_⟩
        rcases List.mem_cons.1 hmem with hkey | hmem
        · exact hnew (hkey ▸ List.mem_map_of_mem he)
        · exact hseen e he hmem

/-- Declarations have an index exactly if no two of them have the same key. -/
theorem TypeIndex.build_eq_ok_iff {types : List Declaration} {index : TypeIndex} :
    TypeIndex.build types = .ok index ↔
      (types.map Declaration.key).Nodup ∧ index = ⟨types.map Declaration.key⟩ := by
  have hnone := TypeIndex.firstRepeated_eq_none_iff [] types
  unfold TypeIndex.build
  cases h : TypeIndex.firstRepeated [] types with
  | none =>
    rw [h] at hnone
    have hnodup := (hnone.1 rfl).1
    exact ⟨fun heq => ⟨hnodup, (Except.ok.inj heq).symm⟩, fun heq => congrArg Except.ok heq.2.symm⟩
  | some d =>
    rw [h] at hnone
    constructor
    · intro heq
      cases heq
    · rintro ⟨hnodup, -⟩
      exact absurd (hnone.2 ⟨hnodup, by simp⟩) (by simp)

/-- So they have a scope under the same condition. -/
theorem Scope.build_eq_ok_iff {types : List Declaration} {scope : Scope} :
    Scope.build types = .ok scope ↔
      (types.map Declaration.key).Nodup ∧ scope = Scope.of types := by
  unfold Scope.build
  cases h : TypeIndex.build types with
  | error fault =>
    refine ⟨nofun, fun ⟨hnodup, _⟩ => ?_⟩
    cases h.symm.trans (TypeIndex.build_eq_ok_iff.2 ⟨hnodup, rfl⟩)
  | ok index =>
    obtain ⟨hnodup, rfl⟩ := TypeIndex.build_eq_ok_iff.1 h
    exact ⟨fun heq => ⟨hnodup, (Except.ok.inj heq).symm⟩, fun heq => congrArg Except.ok heq.2.symm⟩

/-- What hinders a scope is a fault of the declarations. -/
theorem Scope.build_eq_error {types : List Declaration} {fault : Error}
    (h : Scope.build types = .error fault) : ∃ inner, fault = .semantic inner := by
  unfold Scope.build at h
  split at h
  · exact ⟨_, (Except.error.inj h).symm⟩
  · cases h

end FieldRules
