import FieldRules.Tag
import FieldRules.Proofs.Traversal

/-!
# The number of targets

Whatever the text of an entry is, a validation that is read from it has as many targets as its
operation takes. The rest of the library relies on this: an operation with one target compares with
exactly one literal, and a list of targets is never empty.
-/

namespace FieldRules

/-- The validation has as many targets as its operation takes. -/
def Validation.HasArity (v : Validation) : Prop :=
  match v.operation.arity with
  | .zero => v.values = []
  | .one => ∃ value, v.values = [value]
  | .many => v.values ≠ []

namespace Tag

/-- A list of targets is not empty. -/
theorem ne_nil_of_targetList {op : Operation} {target : List Char} {values : List String}
    (h : targetList op target = .ok values) : values ≠ [] := by
  unfold targetList at h
  simp only at h
  split at h
  · cases h
  · cases h
  · rename_i read hne _
    cases h
    exact fun hnil => hne (List.map_eq_nil_iff.1 hnil)

theorem hasArity_of_targets {op : Operation} {target : List Char} {values : List String}
    (h : targets op target = .ok values) : Validation.HasArity ⟨op, values⟩ := by
  unfold targets at h
  unfold Validation.HasArity
  cases harity : op.arity with
  | zero =>
    rw [harity] at h
    dsimp only at h
    split at h
    · exact (Except.ok.inj h).symm
    · cases h
  | one =>
    rw [harity] at h
    dsimp only at h
    split at h
    · cases h
    · exact ⟨_, (Except.ok.inj h).symm⟩
  | many =>
    rw [harity] at h
    exact ne_nil_of_targetList h

theorem hasArity_of_validation {name target : List Char} {v : Validation}
    (h : validation name target = .ok v) : v.HasArity := by
  unfold validation at h
  split at h
  · cases h
  · obtain ⟨values, hvalues, rfl⟩ := map_eq_ok_iff.1 h
    exact hasArity_of_targets hvalues

end Tag

/-- A validation that is read from an entry has as many targets as its operation takes. -/
theorem Validation.hasArity_of_ofEntry {entry : String} {v : Validation}
    (h : Validation.ofEntry entry = .ok v) : v.HasArity := by
  unfold Validation.ofEntry at h
  split at h
  · exact Tag.hasArity_of_validation h
  · exact Tag.hasArity_of_validation h
  · cases h

/-- A tag is read by splitting it into entries and reading each of them. -/
theorem Tag.validations_eq_ok_iff {tag : String} {vs : List Validation} :
    Tag.validations tag = .ok vs ↔
      ∃ es, Tag.entries tag = .ok es ∧
        List.Forall₂ (fun e v => Validation.ofEntry e = .ok v) es vs := by
  unfold Tag.validations
  simp only [← mapM_eq_ok_iff]
  cases Tag.entries tag <;> simp

/-- So do all validations of a tag. -/
theorem Tag.hasArity_of_mem_validations {tag : String} {vs : List Validation}
    (h : Tag.validations tag = .ok vs) {v : Validation} (hv : v ∈ vs) : v.HasArity := by
  obtain ⟨es, -, hes⟩ := Tag.validations_eq_ok_iff.1 h
  obtain ⟨e, -, he⟩ := forall₂_mem_right hes hv
  exact Validation.hasArity_of_ofEntry he

end FieldRules
