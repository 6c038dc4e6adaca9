import FieldRules.Proofs.Compilation.Stages
import FieldRules.Proofs.Validator.Name

/-!
# The function names of a package

A file defines one function for each validator of its package. The types of these validators have
different names, but a function name does not keep all of a type name. `functionNames_of_compile`
says when the functions of a package have different names nevertheless: the names of its types have
to be far apart. Nothing reports it if they are not, and then functions do clash
(`userId_functions_clash`).
-/

namespace FieldRules

variable {types analyzed : List Declaration} {options : Options} {schedule : Schedule}
  {output : Output}

/-- The validators have the keys of different declarations. -/
theorem nodup_keys_of_generateAll {validators : List GeneratedValidator}
    (h : analyze types = .ok analyzed)
    (hvalidators : generateAll options (Scope.of analyzed) schedule = .ok validators) :
    (validators.map fun v => (packageKey v.package, v.typeName)).Nodup := by
  have hkeys : (analyzed.filter (·.hasValidations)).map Declaration.key =
      validators.map fun v => (packageKey v.package, v.typeName) := by
    refine map_eq_map_of_forall₂ (generateAll_eq_ok_iff.1 hvalidators) fun d v hv => ?_
    obtain ⟨hname, hpackage, -⟩ := names_of_generate hv
    rw [hname, hpackage, Declaration.key]
  rw [← hkeys]
  exact (nodup_keys_of_analyze h).sublist (List.filter_sublist.map _)

/-- Every function is named after its type. -/
theorem functionName_of_mem {validators : List GeneratedValidator}
    (hvalidators : generateAll options (Scope.of analyzed) schedule = .ok validators)
    {v : GeneratedValidator} (hv : v ∈ validators) : v.functionName = validatorName v.typeName := by
  obtain ⟨d, -, hgenerate⟩ := forall₂_mem_right (generateAll_eq_ok_iff.1 hvalidators) hv
  obtain ⟨hname, -, hfunction⟩ := names_of_generate hgenerate
  rw [hname, hfunction]

/-- **The function names of an output.** Validators of one package have types of different names, and
each function is named after its type. The functions of a package have different names as long as the
different names of its types are far apart. -/
theorem functionNames_of_compile (h : compile types options schedule = .ok output) :
    (output.validators.Pairwise fun v w => v.package = w.package → v.typeName ≠ w.typeName) ∧
    (∀ v ∈ output.validators, v.functionName = validatorName v.typeName) ∧
    ∀ package,
      (∀ v ∈ output.validators, ∀ w ∈ output.validators, v.package = package →
        w.package = package → v.typeName ≠ w.typeName → FarApart v.typeName w.typeName) →
      ((output.validators.filter (·.package == package)).map (·.functionName)).Nodup := by
  obtain ⟨analyzed, validators, hanalyzed, hvalidators, rfl⟩ := compile_eq_ok_iff.1 h
  have hfunction : ∀ v ∈ validators, v.functionName = validatorName v.typeName := fun v hv =>
    functionName_of_mem hvalidators hv
  have hapart : validators.Pairwise fun v w => v.package = w.package → v.typeName ≠ w.typeName := by
    refine (List.pairwise_map.1 (nodup_keys_of_generateAll hanalyzed hvalidators)).imp ?_
    intro v w hkeys hpackage hname
    exact hkeys (by rw [hpackage, hname])
  refine ⟨hapart, hfunction, fun package hfar => ?_⟩
  rw [List.Nodup, List.pairwise_map]
  refine (hapart.filter _).imp_of_mem fun {v w} hv hw hdifferent => ?_
  obtain ⟨hv, hvpackage⟩ := List.mem_filter.1 hv
  obtain ⟨hw, hwpackage⟩ := List.mem_filter.1 hw
  have hvpackage : v.package = package := by simpa using hvpackage
  have hwpackage : w.package = package := by simpa using hwpackage
  have hne := hdifferent (hvpackage.trans hwpackage.symm)
  rw [hfunction v hv, hfunction w hw]
  exact validatorName_ne hne (hfar v hv w hw hvpackage hwpackage hne)

/-- A package whose types are named in camel case, but for one acronym. -/
def serverDeclarations : List Declaration :=
  [⟨"HTTPServer", "net", none, [⟨"port", "u16", "gt=0", []⟩], false⟩,
    ⟨"UserV2", "net", none, [⟨"name", "String", "required", []⟩], false⟩,
    ⟨"UserProfile", "net", none, [⟨"owner", "UserV2", "required", []⟩], false⟩]

/-- Its functions have different names. -/
theorem server_functions_apart :
    ∃ output, compile serverDeclarations {} = .ok output ∧
      (output.validators.map (·.functionName)) =
        ["validate_http_server", "validate_user_v2", "validate_user_profile"] ∧
      ((output.validators.filter (·.package == "net")).map (·.functionName)).Nodup := by
  have heval : ((compile serverDeclarations {}).toOption.any fun output =>
      output.validators.map (·.functionName) =
        ["validate_http_server", "validate_user_v2", "validate_user_profile"] ∧
      ∀ v ∈ output.validators, ∀ w ∈ output.validators, v.package = "net" → w.package = "net" →
        v.typeName ≠ w.typeName → FarApart v.typeName w.typeName) = true := by
    decide +kernel
  obtain ⟨output, hcompile, houtput⟩ := exists_eq_ok_of_any heval
  obtain ⟨hnames, hfar⟩ := of_decide_eq_true houtput
  exact ⟨output, hcompile, hnames, (functionNames_of_compile hcompile).2.2 "net" hfar⟩

/-- Two types whose names differ in the case of a letter, and one with a field of each. -/
def userIdDeclarations : List Declaration :=
  [⟨"UserID", "m", none, [⟨"k", "u8", "gt=0", []⟩], false⟩,
    ⟨"UserId", "m", none, [⟨"k", "u8", "lt=9", []⟩], false⟩,
    ⟨"Account", "m", none, [⟨"a", "UserID", "required", []⟩, ⟨"b", "UserId", "required", []⟩],
      false⟩]

/-- They compile, to one file that defines a function twice. -/
theorem userId_functions_clash :
    ∃ output, compile userIdDeclarations {} = .ok output ∧
      output.packages.map (·.package) = ["m"] ∧
      (output.validators.map fun v => (v.package, v.typeName, v.functionName)) =
        [("m", "UserID", "validate_user_id"), ("m", "UserId", "validate_user_id"),
          ("m", "Account", "validate_account")] ∧
      ¬ ((output.validators.filter (·.package == "m")).map (·.functionName)).Nodup := by
  have heval : ((compile userIdDeclarations {}).toOption.any fun output =>
      output.packages.map (·.package) = ["m"] ∧
      (output.validators.map fun v => (v.package, v.typeName, v.functionName)) =
        [("m", "UserID", "validate_user_id"), ("m", "UserId", "validate_user_id"),
          ("m", "Account", "validate_account")] ∧
      ¬ ((output.validators.filter (·.package == "m")).map (·.functionName)).Nodup) = true := by
    decide +kernel
  obtain ⟨output, hcompile, houtput⟩ := exists_eq_ok_of_any heval
  exact ⟨output, hcompile, of_decide_eq_true houtput⟩

end FieldRules
