import FieldRules.Proofs.Analysis.Annotation
import FieldRules.Proofs.Analysis.FirstFault
import FieldRules.Proofs.Compilation.Outcome

/-!
# Where faults are located

A fault of the analysis or of the compilation is found at a declaration, and it is reported at the
place of that declaration if this is known. `errors_located` says so for declarations whose places are
all known: every fault is located exactly once, unless a declaration is repeated. The fault of a
repeated declaration is reported without a place.
-/

namespace FieldRules

/-- The fault is reported at a place. -/
def Error.IsLocated : Error → Prop
  | .located .. => True
  | .tag .. | .semantic _ | .internal _ => False

/-- A fault that makes a compilation of distinct declarations fail, and the declaration at fault. -/
inductive CompileFault (types : List Declaration) : Declaration → Error → Prop where
  /-- The analysis rejects the declaration. -/
  | rejected {d : Declaration} {inner : Error} : PassFault types d inner →
      CompileFault types d inner
  /-- The analysis annotates the declaration, and then it has a first dangling field. -/
  | dangling {analyzed : List Declaration} {d annotated : Declaration} {field : Field} :
      analyze types = .ok analyzed → annotated ∈ analyzed → AnnotationOf d annotated →
      FirstDangling analyzed annotated field →
      CompileFault types d (.semantic (.noValidator d.name field.name field.fieldType.base))

variable {types analyzed : List Declaration} {d : Declaration} {fault inner : Error}

theorem CompileFault.not_isLocated (h : CompileFault types d inner) : ¬ inner.IsLocated := by
  cases h with
  | rejected hpass => cases hpass <;> exact id
  | dangling => exact id

theorem PassFault.mem (h : PassFault types d inner) : d ∈ types := by
  cases h with
  | tag _ howners => exact howners.mem
  | entry hbefore => exact hbefore.owners.mem

/-- A compilation fails with a fault of the analysis, or with that of the first dangling field of a
declaration. -/
theorem exists_schedule_compile_eq_error_iff {options : Options} :
    (∃ schedule, compile types options schedule = .error fault) ↔ analyze types = .error fault ∨
      ∃ analyzed, analyze types = .ok analyzed ∧ ∃ d ∈ analyzed, ∃ field,
        FirstDangling analyzed d field ∧ fault = missingValidator d field := by
  cases h : analyze types with
  | error stop => simp [compile_of_analyze_eq_error h]
  | ok analyzed =>
    rw [exists_compile_eq_error_iff h]
    simp

/-- Every fault but that of a repeated declaration stands where the declaration at fault does. -/
theorem exists_compileFault (hdistinct : Distinct types)
    (hfault : analyze types = .error fault ∨
      ∃ options schedule, compile types options schedule = .error fault) :
    ∃ d ∈ types, ∃ inner, CompileFault types d inner ∧ fault = inner.at? d.location := by
  have hrejected : analyze types = .error fault →
      ∃ d ∈ types, ∃ inner, CompileFault types d inner ∧ fault = inner.at? d.location := by
    intro h
    rcases analyze_eq_error_iff.1 h with ⟨d, hrepeated, -⟩ | ⟨d, inner, hpass, rfl⟩
    · exact absurd hdistinct (exists_firstRepeated_iff.1 ⟨d, hrepeated⟩)
    · exact ⟨d, hpass.mem, inner, .rejected hpass, rfl⟩
  rcases hfault with h | ⟨options, h⟩
  · exact hrejected h
  rcases exists_schedule_compile_eq_error_iff.1 h with
    h | ⟨analyzed, hanalyzed, annotated, hmem, field, hfirst, rfl⟩
  · exact hrejected h
  · obtain ⟨d, hd, hannotated⟩ :=
      forall₂_mem_right (annotationOf_of_analyze hanalyzed) hmem
    refine ⟨d, hd, _, .dangling hanalyzed hmem hannotated hfirst, ?_⟩
    rw [missingValidator_eq_at?, hannotated.name, hannotated.location]

/-- **Faults are located exactly once, unless a declaration is repeated.** Let the places of all
declarations be known. If no two declarations have the same name and package, every fault of the
analysis, and of the compilation under any schedule, is reported at the place of the declaration at
fault, and has no place besides. Otherwise it is the fault of the first repeated declaration, without
a place. -/
theorem errors_located (hplaces : ∀ d ∈ types, ∃ location, d.location = some location)
    (hfault : analyze types = .error fault ∨
      ∃ options schedule, compile types options schedule = .error fault) :
    (Distinct types → ∃ d ∈ types, ∃ location inner, CompileFault types d inner ∧
      d.location = some location ∧ fault = .located location inner ∧ ¬ inner.IsLocated) ∧
    (¬ Distinct types → ∃ d, FirstRepeated types d ∧
      fault = .semantic (.duplicateType d.name d.package)) := by
  constructor
  · intro hdistinct
    obtain ⟨d, hd, inner, hinner, rfl⟩ := exists_compileFault hdistinct hfault
    obtain ⟨location, hlocation⟩ := hplaces d hd
    exact ⟨d, hd, location, inner, hinner, hlocation, by rw [hlocation]; rfl,
      hinner.not_isLocated⟩
  · intro hnot
    obtain ⟨d, hrepeated⟩ := exists_firstRepeated_iff.2 hnot
    have hstop : analyze types = .error (.semantic (.duplicateType d.name d.package)) :=
      analyze_eq_error_iff.2 (.inl ⟨d, hrepeated, rfl⟩)
    refine ⟨d, hrepeated, ?_⟩
    rcases hfault with h | ⟨options, schedule, h⟩
    · exact Except.error.inj (h.symm.trans hstop)
    · exact Except.error.inj (h.symm.trans (compile_of_analyze_eq_error hstop))

/-- Two declarations whose places are known, the first with a field that is delegated to the second,
which has no validations. -/
def placedDeclarations : List Declaration :=
  [⟨"User", "people", some ⟨"user.rs", 7⟩, [⟨"home", "Address", "required", []⟩], false⟩,
    ⟨"Address", "people", some ⟨"address.rs", 2⟩, [⟨"city", "String", "", []⟩], false⟩]

/-- The compilation fails at the place of the first. -/
theorem dangling_field_located :
    (∀ d ∈ placedDeclarations, ∃ location, d.location = some location) ∧
    ∃ fault, compile placedDeclarations {} = .error fault ∧
      ∃ d ∈ placedDeclarations, ∃ location inner, CompileFault placedDeclarations d inner ∧
        d.location = some location ∧ fault = .located location inner ∧ ¬ inner.IsLocated := by
  have hplaces : ∀ d ∈ placedDeclarations, ∃ location, d.location = some location := by
    simp [placedDeclarations]
  have hdistinct : Distinct placedDeclarations := by
    unfold Distinct
    decide +kernel
  have hfault : compile placedDeclarations {} =
      .error (.located ⟨"user.rs", 7⟩ (.semantic (.noValidator "User" "home" "Address"))) := by
    decide +kernel
  exact ⟨hplaces, _, hfault, (errors_located hplaces (.inr ⟨_, _, hfault⟩)).1 hdistinct⟩

/-- The same type declared at two known places. -/
def twiceDeclared : List Declaration :=
  [⟨"Account", "billing", some ⟨"account.rs", 1⟩, [], false⟩,
    ⟨"Account", "crate::billing", some ⟨"billing.rs", 2⟩, [], false⟩]

/-- The fault does not say where the second declaration stands, although its place is known. -/
theorem repeated_not_located :
    (∀ d ∈ twiceDeclared, ∃ location, d.location = some location) ∧
    analyze twiceDeclared = .error (.semantic (.duplicateType "Account" "crate::billing")) ∧
    compile twiceDeclared {} = .error (.semantic (.duplicateType "Account" "crate::billing")) ∧
    ¬ Error.IsLocated (.semantic (.duplicateType "Account" "crate::billing")) := by
  refine ⟨by simp [twiceDeclared], ?_, ?_, id⟩
  · decide +kernel
  · decide +kernel

end FieldRules
