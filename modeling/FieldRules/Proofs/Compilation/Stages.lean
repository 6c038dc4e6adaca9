import FieldRules.Compilation
import FieldRules.Proofs.Analysis.WellFormed
import FieldRules.Proofs.Schedule

/-!
# The stages of a compilation

A compilation is an analysis and then the generation of all validators. The analysis keeps the keys
of the declarations, so what it returns has a scope, and every declaration with rules makes one
validator in that scope. The validators are generated in parallel; on which schedule makes no
difference to what a compilation produces.
-/

namespace FieldRules

variable {types analyzed : List Declaration} {options : Options} {schedule : Schedule}

/-! ### The analysed declarations -/

/-- Rules do not change what a declaration is known by. -/
theorem Analysis.Annotates.key_eq {scope : Scope} {owner annotated : Declaration}
    (h : Annotates scope owner annotated) : owner.key = annotated.key := by
  obtain ⟨fields, -, rfl⟩ := h
  rfl

/-- The analysis keeps the keys. -/
theorem keys_of_analyze (h : analyze types = .ok analyzed) :
    types.map Declaration.key = analyzed.map Declaration.key := by
  obtain ⟨scope, -, hall⟩ := analyze_eq_ok_iff.1 h
  exact map_eq_map_of_forall₂ hall fun _ _ => Analysis.Annotates.key_eq

/-- No key is repeated among analysed declarations. -/
theorem nodup_keys_of_analyze (h : analyze types = .ok analyzed) :
    (analyzed.map Declaration.key).Nodup := by
  rw [← keys_of_analyze h]
  exact (analyze_eq_ok_iff_annotates.1 h).1

theorem build_of_analyze (h : analyze types = .ok analyzed) :
    Scope.build analyzed = .ok (Scope.of analyzed) :=
  Scope.build_eq_ok_iff.2 ⟨nodup_keys_of_analyze h, rfl⟩

/-- A declaration has validations exactly if one of its fields has a rule. -/
theorem hasValidations_iff_of_analyze (h : analyze types = .ok analyzed) {d : Declaration}
    (hd : d ∈ analyzed) : d.hasValidations = true ↔ ∃ field ∈ d.fields, field.rules ≠ [] := by
  obtain ⟨scope, -, hall⟩ := analyze_eq_ok_iff.1 h
  obtain ⟨owner, -, fields, -, rfl⟩ := forall₂_mem_right hall hd
  simp

/-! ### The compilation -/

/-- The output of a compilation with the given validators. -/
def Output.ofValidators (validators : List GeneratedValidator) : Output :=
  ⟨validators, packageOutputs validators, supportSource⟩

/-- A fault of the analysis is the fault of the compilation. -/
theorem compile_of_analyze_eq_error {fault : Error} (h : analyze types = .error fault) :
    compile types options schedule = .error fault :=
  bind_eq_error_iff.2 (.inl h)

/-- After the analysis, only the generation of validators can fail. -/
theorem compile_of_analyze (h : analyze types = .ok analyzed) :
    compile types options schedule =
      (generateAll options (Scope.of analyzed) schedule).map Output.ofValidators := by
  unfold compile
  rw [h]
  show (Scope.build analyzed >>= _) = _
  rw [build_of_analyze h]
  rfl

theorem compile_eq_ok_iff {output : Output} :
    compile types options schedule = .ok output ↔
      ∃ analyzed validators, analyze types = .ok analyzed ∧
        generateAll options (Scope.of analyzed) schedule = .ok validators ∧
        output = .ofValidators validators := by
  constructor
  · intro h
    obtain ⟨analyzed, hanalyzed, -⟩ := bind_eq_ok_iff.1 h
    rw [compile_of_analyze hanalyzed, map_eq_ok_iff] at h
    obtain ⟨validators, hvalidators, rfl⟩ := h
    exact ⟨analyzed, validators, hanalyzed, hvalidators, rfl⟩
  · rintro ⟨analyzed, validators, hanalyzed, hvalidators, rfl⟩
    rw [compile_of_analyze hanalyzed, hvalidators]
    rfl

/-! ### The validators -/

/-- The validators stand for the declarations with rules one by one. -/
theorem generateAll_eq_ok_iff {validators : List GeneratedValidator} :
    generateAll options (Scope.of analyzed) schedule = .ok validators ↔
      List.Forall₂ (fun d v => generate options (Scope.of analyzed) d = .ok v)
        (analyzed.filter (·.hasValidations)) validators :=
  Schedule.collect_map_eq_ok_iff

theorem generate_eq_ok_iff {scope : Scope} {d : Declaration} {v : GeneratedValidator} :
    generate options scope d = .ok v ↔ ∃ body, Validator.ofDeclaration scope d = .ok body ∧
      v = ⟨d.name, d.package, body.functionName, body.source options.support⟩ := by
  rw [generate, map_eq_ok_iff]
  simp only [eq_comm (b := v)]

theorem Validator.ofDeclaration_eq_ok_iff {scope : Scope} {d : Declaration} {body : Validator} :
    ofDeclaration scope d = .ok body ↔
      ∃ parts, List.Forall₂ (fun field part => fieldBlocks scope d field = .ok part) d.fields parts ∧
        body = ⟨d.name, validatorName d.name, parts.flatten⟩ := by
  rw [ofDeclaration, map_eq_ok_iff]
  simp only [mapM_eq_ok_iff, eq_comm (b := body)]

/-- A rule has the check of its condition, and no block if this is the constant truth. -/
theorem Validator.checkBlock_eq_ok_iff {field : Field} {type : FieldType} {rule : Rule}
    {found : Option Block} :
    checkBlock field type rule = .ok found ↔
      ∃ condition e, Condition.build field.name type rule = .ok condition ∧
        condition.expr = .ok e ∧
        found = if e.isTrue then none else some (.check e field.name condition.message) := by
  unfold checkBlock
  cases Condition.build field.name type rule with
  | error fault => simp
  | ok condition => cases hexpr : condition.expr <;> simp [hexpr, eq_comm (a := found)]

section

variable {owner target : Declaration} {type : FieldType}

/-- A field is delegated to the validated declaration that its type means. -/
theorem Validator.delegateTarget_eq_some_iff :
    delegateTarget (Scope.of types) owner type = some target ↔
      Denotes types owner.package type.base target ∧ target.hasValidations = true := by
  rw [delegateTarget, Option.filter_eq_some_iff, Denotes]

/-- It is delegated to none if nothing that its type means has validations. -/
theorem Validator.delegateTarget_eq_none_iff :
    delegateTarget (Scope.of types) owner type = none ↔
      ∀ target, Denotes types owner.package type.base target → target.hasValidations = false := by
  simp [delegateTarget, Denotes, Option.filter_eq_none_iff]

end

/-- A validator is named after its type, and belongs to the package of its type. -/
theorem names_of_generate {scope : Scope} {d : Declaration} {v : GeneratedValidator}
    (h : generate options scope d = .ok v) :
    v.typeName = d.name ∧ v.package = d.package ∧ v.functionName = validatorName d.name := by
  obtain ⟨body, hbody, rfl⟩ := generate_eq_ok_iff.1 h
  obtain ⟨parts, -, rfl⟩ := Validator.ofDeclaration_eq_ok_iff.1 hbody
  exact ⟨rfl, rfl, rfl⟩

end FieldRules
