import FieldRules.Proofs.Condition.Build
import FieldRules.Proofs.Validation.Demands

/-!
# What targets are read as

A target of a kind is read as a constant whose value is of the category of the kind. So the targets
of a rule that fits its field have values, which can be compared with those of the field.
-/

namespace FieldRules

namespace TargetKind

/-- The category of the values that targets of a kind stand for. -/
def category : TargetKind → Category
  | .text => .string
  | .integer .. | .size => .integer
  | .float _ => .float
  | .bool => .bool

/-- Whichever constant stands for an integer, its value is the integer. -/
theorem scalar?_integerLiteral (n : Int) : (integerLiteral n).scalar? = some (.number n) := by
  unfold integerLiteral
  split_ifs with hn
  · rfl
  · have hmax : 0 ≤ maxInt := by decide
    have hnat : (n.toNat : Int) = n := Int.toNat_of_nonneg (by omega)
    show some (Scalar.number (n.toNat : Int)) = _
    rw [hnat]

/-- A constant that is read has a value of the category of its kind. -/
theorem exists_scalar_of_read {kind : TargetKind} {value : String} {l : Literal}
    (h : kind.read value = some l) (hkind : kind.category ≠ .float) :
    ∃ y, l.scalar? = some y ∧ y.category = kind.category := by
  unfold read at h
  generalize Text.trim value.toList = cs at h
  cases kind with
  | text =>
    cases h
    exact ⟨_, rfl, rfl⟩
  | integer min max =>
    simp only [readTrimmed] at h
    split at h
    · split_ifs at h
      cases h
      exact ⟨_, scalar?_integerLiteral _, rfl⟩
    · cases h
  | float single => exact absurd rfl hkind
  | bool =>
    simp only [readTrimmed] at h
    split_ifs at h <;> cases h <;> exact ⟨_, rfl, rfl⟩
  | size =>
    simp only [readTrimmed] at h
    split at h
    · split_ifs at h
      cases h
      exact ⟨_, rfl, rfl⟩
    · cases h

/-- What a value of a primitive type is written as has the category of the type. -/
theorem category_ofCategory {type : FieldType} (h : type.category ≠ .other) :
    (ofCategory type).category = type.category := by
  unfold ofCategory
  cases hcategory : type.category with
  | other => exact absurd hcategory h
  | string | bool | integer | float => rfl

end TargetKind

/-- Targets that can be read, and are not floating-point numbers, have values of the category of
their kind. -/
theorem Validation.exists_targets {v : Validation} {type : FieldType}
    (h : ∀ value ∈ v.values, Analysis.Readable v.operation type value)
    (hkind : (TargetKind.of v.operation type).category ≠ .float) :
    ∃ ls targets, Condition.Literals v.operation type v.values ls ∧
      List.Forall₂ (fun l y => l.scalar? = some y ∧
        y.category = (TargetKind.of v.operation type).category) ls targets ∧
      v.targets? type = some targets := by
  obtain ⟨ls, hls⟩ := Condition.exists_literals h
  have hscalars : ∀ l ∈ ls, ∃ y, l.scalar? = some y ∧
      y.category = (TargetKind.of v.operation type).category := by
    intro l hl
    obtain ⟨value, -, hread⟩ := forall₂_mem_right hls hl
    exact TargetKind.exists_scalar_of_read hread hkind
  obtain ⟨targets, htargets⟩ := exists_forall₂_iff.2 hscalars
  refine ⟨ls, targets, hls, htargets, mapM_eq_some_iff.2 ?_⟩
  refine (exists_forall₂_and_iff.1 ⟨ls, hls, htargets⟩).imp ?_
  rintro value y ⟨l, hread, hl, -⟩
  exact Option.bind_eq_some_iff.2 ⟨l, hread, hl⟩

end FieldRules
