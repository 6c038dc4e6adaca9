import FieldRules.Proofs.Analysis.WellFormed

/-!
# Repeated declarations

Declarations have no scope exactly if one of them is repeated, that is if its name and package have
occurred before it. The fault is that of the first repeated one (`Scope.build_eq_error_iff`).
-/

namespace FieldRules

/-- No two declarations have the same name and the same package. -/
def Distinct (types : List Declaration) : Prop :=
  types.Pairwise fun d e => ¬(d.name = e.name ∧ packageKey d.package = packageKey e.package)

/-- The first declaration whose name and package have occurred before it. -/
def FirstRepeated (types : List Declaration) (d : Declaration) : Prop :=
  ∃ before after, types = before ++ d :: after ∧ Distinct before ∧
    ∃ e ∈ before, e.name = d.name ∧ packageKey e.package = packageKey d.package

/-- The declaration that an index reports is the first repeated one. -/
theorem TypeIndex.firstRepeated_eq_some_iff {seen : List (String × String)}
    {types : List Declaration} {d : Declaration} :
    firstRepeated seen types = some d ↔ ∃ before after, types = before ++ d :: after ∧
      (before.map Declaration.key).Nodup ∧ (∀ e ∈ before, e.key ∉ seen) ∧
      (d.key ∈ seen ∨ d.key ∈ before.map Declaration.key) := by
  induction types generalizing seen with
  | nil => simp [firstRepeated]
  | cons first rest ih =>
    rw [firstRepeated]
    by_cases hfirst : first.key ∈ seen
    · rw [if_pos (by simpa using hfirst)]
      constructor
      · intro h
        cases h
        exact ⟨[], rest, rfl, List.nodup_nil, List.forall_mem_nil _, .inl hfirst⟩
      · rintro ⟨before, after, hsplit, -, hseen, -⟩
        cases before with
        | nil =>
          cases hsplit
          rfl
        | cons e before =>
          cases hsplit
          exact absurd hfirst (hseen _ List.mem_cons_self)
    · rw [if_neg (by simpa using hfirst), ih]
      constructor
      · rintro ⟨before, after, rfl, hnodup, hseen, hrepeated⟩
        have hnew : first.key ∉ before.map Declaration.key := by
          intro hmem
          obtain ⟨e, he, hkey⟩ := List.mem_map.1 hmem
          exact hseen e he (hkey ▸ List.mem_cons_self)
        refine ⟨first :: before, after, rfl, List.nodup_cons.2 ⟨hnew, hnodup⟩,
          List.forall_mem_cons.2 ⟨hfirst, fun e he hmem => ?_⟩, ?_⟩
        · exact hseen e he (List.mem_cons_of_mem _ hmem)
        · rw [List.mem_cons, or_assoc] at hrepeated
          rwa [List.map_cons, List.mem_cons, or_left_comm]
      · rintro ⟨before, after, hsplit, hnodup, hseen, hrepeated⟩
        cases before with
        | nil =>
          cases hsplit
          exact absurd hrepeated (by simpa using hfirst)
        | cons e before =>
          cases hsplit
          rw [List.map_cons, List.nodup_cons] at hnodup
          refine ⟨before, after, rfl, hnodup.2, fun e he hmem => ?_, ?_⟩
          · rcases List.mem_cons.1 hmem with hkey | hmem
            · exact hnodup.1 (hkey ▸ List.mem_map_of_mem he)
            · exact hseen e (List.mem_cons_of_mem _ he) hmem
          · rw [List.map_cons, List.mem_cons, or_left_comm] at hrepeated
            rwa [List.mem_cons, or_assoc]

theorem firstRepeated_eq_some_iff {types : List Declaration} {d : Declaration} :
    TypeIndex.firstRepeated [] types = some d ↔ FirstRepeated types d := by
  rw [TypeIndex.firstRepeated_eq_some_iff]
  refine exists_congr fun before => exists_congr fun after => and_congr_right fun _ => ?_
  rw [nodup_keys_iff, Distinct]
  refine and_congr_right fun _ => ?_
  simp [Declaration.key, and_comm]

/-- **There is no scope exactly if a declaration is repeated**, and the first one is at fault. -/
theorem Scope.build_eq_error_iff {types : List Declaration} {fault : Error} :
    Scope.build types = .error fault ↔
      ∃ d, FirstRepeated types d ∧ fault = .semantic (.duplicateType d.name d.package) := by
  simp only [← firstRepeated_eq_some_iff, Scope.build, TypeIndex.build]
  cases TypeIndex.firstRepeated [] types with
  | none => simp
  | some d => simp [eq_comm (a := fault)]

/-- Declarations have a scope exactly if none is repeated. -/
theorem Scope.build_eq_ok_iff_distinct {types : List Declaration} {scope : Scope} :
    Scope.build types = .ok scope ↔ Distinct types ∧ scope = Scope.of types := by
  rw [Scope.build_eq_ok_iff, nodup_keys_iff, Distinct]

theorem exists_firstRepeated_iff {types : List Declaration} :
    (∃ d, FirstRepeated types d) ↔ ¬ Distinct types := by
  have herror : (∃ d, FirstRepeated types d) ↔ ∃ fault, Scope.build types = .error fault := by
    simp only [Scope.build_eq_error_iff, exists_comm (α := Error), exists_and_left, exists_eq,
      and_true]
  have hok : Distinct types ↔ ∃ scope, Scope.build types = .ok scope := by
    simp only [Scope.build_eq_ok_iff_distinct, exists_and_left, exists_eq, and_true]
  rw [herror, hok]
  cases Scope.build types <;> simp

end FieldRules
