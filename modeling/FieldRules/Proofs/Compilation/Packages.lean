import FieldRules.Compilation
import FieldRules.Except
import Mathlib.Data.List.Induction
import Mathlib.Data.List.Nodup

/-!
# The packages of an output

The validators of an output are grouped by the packages of their types: every package with a
validator is there once, and its source contains the source of each of its validators.
-/

namespace FieldRules

/-- Without its repetitions, a list has none: what is added at the end is new or left out. -/
theorem nodup_eraseDups (l : List String) : l.eraseDups.Nodup := by
  induction l using List.reverseRecOn with
  | nil => exact List.nodup_nil
  | append_singleton l x ih =>
    rw [List.eraseDups_append]
    by_cases hx : x ∈ l
    · simpa [List.removeAll, hx] using ih
    · have hnew : x ∉ l.eraseDups := mt List.mem_eraseDups.1 hx
      simpa [List.removeAll, hx, List.eraseDups_cons] using List.Nodup.concat hnew ih

variable {validators : List GeneratedValidator}

theorem map_package_packageOutputs :
    (packageOutputs validators).map (·.package) = (validators.map (·.package)).eraseDups := by
  rw [packageOutputs, List.map_map]
  exact List.map_id _

/-- No package is there twice. -/
theorem nodup_packages : ((packageOutputs validators).map (·.package)).Nodup := by
  rw [map_package_packageOutputs]
  exact nodup_eraseDups _

/-- The packages of an output are those of its validators. -/
theorem mem_packageOutputs_iff {p : PackageOutput} :
    p ∈ packageOutputs validators ↔
      (∃ v ∈ validators, v.package = p.package) ∧
        p.source = packageSource p.package validators := by
  obtain ⟨package, source⟩ := p
  simp only [packageOutputs, List.mem_map, List.mem_eraseDups, PackageOutput.mk.injEq]
  constructor
  · rintro ⟨_, ⟨v, hv, rfl⟩, rfl, rfl⟩
    exact ⟨⟨v, hv, rfl⟩, rfl⟩
  · rintro ⟨⟨v, hv, rfl⟩, rfl⟩
    exact ⟨_, ⟨v, hv, rfl⟩, rfl, rfl⟩

/-- The source of a package contains that of each of its validators. -/
theorem exists_packageSource_eq {v : GeneratedValidator} (hv : v ∈ validators) :
    ∃ before behind, packageSource v.package validators = before ++ v.source ++ behind := by
  have hmem : v ∈ validators.filter (·.package == v.package) := List.mem_filter.2 ⟨hv, by simp⟩
  obtain ⟨front, back, hsplit⟩ := List.append_of_mem hmem
  refine ⟨packageHeader v.package ++ String.join (front.map fun w => "\n" ++ w.source) ++ "\n",
    String.join (back.map fun w => "\n" ++ w.source), ?_⟩
  rw [packageSource, hsplit]
  simp [String.join_append, String.join_cons, String.append_assoc]

/-- What a compilation produces is grouped by packages. -/
theorem packages_of_compile {types : List Declaration} {options : Options} {schedule : Schedule}
    {output : Output} (h : compile types options schedule = .ok output) :
    output.packages = packageOutputs output.validators := by
  obtain ⟨analyzed, -, h⟩ := bind_eq_ok_iff.1 h
  obtain ⟨scope, -, h⟩ := bind_eq_ok_iff.1 h
  obtain ⟨validators, -, h⟩ := bind_eq_ok_iff.1 h
  cases h
  rfl

end FieldRules
