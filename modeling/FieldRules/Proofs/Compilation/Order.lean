import FieldRules.Proofs.Compilation.Stages
import FieldRules.Proofs.Scope.References

/-!
# The order of the declarations

The outcome of an analysis and of a compilation does not depend on the order in which the
declarations are handed in, nor on how the validators are scheduled. Both look at other declarations
only through the meaning of references, and that is the same in every order (`find?_of_perm`). So
every declaration is annotated, and written out, by a function that all orders share; `outcome_perm`
says so.
-/

namespace FieldRules

variable {types types' : List Declaration} {options : Options} {schedule schedule' : Schedule}

/-! ### Scopes in which references mean the same -/

section

variable {scope scope' : Scope}

namespace Analysis

theorem findPeer_congr (h : scope.find? = scope'.find?) : findPeer scope = findPeer scope' := by
  have henter : enterField scope = enterField scope' := by
    funext site reference current field
    simp only [enterField, h]
  funext site reference
  simp only [findPeer, henter]

theorem checkValidation_congr (h : scope.find? = scope'.find?) :
    checkValidation scope = checkValidation scope' := by
  funext owner field validation
  simp only [checkValidation, resolvePeer, findPeer_congr h]

/-- What a declaration is annotated with depends on the meaning of references only. -/
theorem annotates_congr (h : scope.find? = scope'.find?) : Annotates scope = Annotates scope' := by
  have hfield : AnnotatesField scope = AnnotatesField scope' := by
    funext owner field annotated
    simp only [AnnotatesField, RulesOf, checkValidation_congr h]
  funext owner annotated
  simp only [Annotates, hfield]

/-- A declaration is annotated in one way. -/
theorem Annotates.unique {owner d e : Declaration} (hd : Annotates scope owner d)
    (he : Annotates scope owner e) : d = e := by
  obtain ⟨read, hread, hd⟩ := readTags_annotate_iff.2 hd
  obtain ⟨read', hread', he⟩ := readTags_annotate_iff.2 he
  cases hread.symm.trans hread'
  exact Except.ok.inj (hd.symm.trans he)

end Analysis

/-- The validator of a declaration depends on the names of the types that fields are delegated to. -/
theorem generate_congr_of_names
    (h : ∀ owner type, (Validator.delegateTarget scope owner type).map (·.name) =
      (Validator.delegateTarget scope' owner type).map (·.name)) :
    generate options scope = generate options scope' := by
  have hdelegate : Validator.delegateBlocks scope = Validator.delegateBlocks scope' := by
    funext owner field type
    have hname := h owner type
    unfold Validator.delegateBlocks
    cases htarget : Validator.delegateTarget scope owner type with
    | none =>
      rw [htarget, Option.map_none, eq_comm, Option.map_eq_none_iff] at hname
      rw [hname]
    | some target =>
      rw [htarget, Option.map_some, eq_comm, Option.map_eq_some_iff] at hname
      obtain ⟨target', htarget', hname⟩ := hname
      rw [htarget']
      dsimp only
      rw [hname]
  have hfields : Validator.fieldBlocks scope = Validator.fieldBlocks scope' := by
    funext owner field
    simp only [Validator.fieldBlocks, hdelegate]
  funext d
  simp only [generate, Validator.ofDeclaration, hfields]

/-- So it depends on the meaning of references only, too. -/
theorem generate_congr (h : scope.find? = scope'.find?) :
    generate options scope = generate options scope' :=
  generate_congr_of_names fun owner type => by
    rw [Validator.delegateTarget, Validator.delegateTarget, h]

end

/-! ### Analysis -/

instance : Nonempty Declaration :=
  ⟨⟨"", "", none, [], false⟩⟩

instance : Nonempty GeneratedValidator :=
  ⟨⟨"", "", "", ""⟩⟩

/-- A function annotates the declarations, in whatever order they stand. -/
theorem exists_annotation_perm {analyzed : List Declaration} (h : analyze types = .ok analyzed) :
    ∃ annotated : Declaration → Declaration, analyzed = types.map annotated ∧
      ∀ types', types.Perm types' → analyze types' = .ok (types'.map annotated) := by
  obtain ⟨hkeys, hall⟩ := analyze_eq_ok_iff_annotates.1 h
  obtain ⟨annotated, heach, hmap⟩ :=
    exists_map_of_forall₂ hall fun _ _ _ => Analysis.Annotates.unique
  refine ⟨annotated, hmap, fun types' hperm => ?_⟩
  have hkeys' : (types'.map Declaration.key).Nodup :=
    (hperm.map Declaration.key).nodup_iff.1 hkeys
  refine analyze_eq_ok_iff_annotates.2 ⟨hkeys', ?_⟩
  rw [← Analysis.annotates_congr (find?_of_perm hperm hkeys), List.forall₂_map_right_iff,
    List.forall₂_same]
  exact fun d hd => heach d (hperm.mem_iff.2 hd)

/-! ### Compilation -/

/-- A function writes the validators of analysed declarations, in whatever order they stand. -/
theorem exists_generation_perm {analyzed : List Declaration}
    {validators : List GeneratedValidator} (hkeys : (analyzed.map Declaration.key).Nodup)
    (h : generateAll options (Scope.of analyzed) schedule = .ok validators) :
    ∃ generated : Declaration → GeneratedValidator,
      validators = (analyzed.filter (·.hasValidations)).map generated ∧
      ∀ analyzed', analyzed.Perm analyzed' →
        generateAll options (Scope.of analyzed') schedule' =
          .ok ((analyzed'.filter (·.hasValidations)).map generated) := by
  obtain ⟨generated, heach, hmap⟩ := exists_map_of_forall₂ (generateAll_eq_ok_iff.1 h)
    fun _ _ _ hv hw => Except.ok.inj (hv.symm.trans hw)
  refine ⟨generated, hmap, fun analyzed' hperm => ?_⟩
  rw [generateAll_eq_ok_iff, ← generate_congr (find?_of_perm hperm hkeys),
    List.forall₂_map_right_iff, List.forall₂_same]
  exact fun d hd => heach d ((hperm.filter _).mem_iff.2 hd)

/-- If the analysis accepts the declarations in one order, it does so in every order. -/
theorem exists_analyze_of_perm (hperm : types.Perm types')
    (h : ∃ analyzed, analyze types = .ok analyzed) : ∃ analyzed, analyze types' = .ok analyzed := by
  obtain ⟨analyzed, h⟩ := h
  obtain ⟨annotated, -, hall⟩ := exists_annotation_perm h
  exact ⟨_, hall types' hperm⟩

/-- Declarations that are annotated alike in two orders, and compile in the first, compile in the
second to the same validators, in its order. -/
theorem exists_output_of_perm (hperm : types.Perm types') {annotated : Declaration → Declaration}
    (htypes : analyze types = .ok (types.map annotated))
    (htypes' : analyze types' = .ok (types'.map annotated)) {output : Output}
    (h : compile types options schedule = .ok output) :
    ∃ (output' : Output) (generated : Declaration → GeneratedValidator),
      compile types' options schedule' = .ok output' ∧
      output.validators = ((types.map annotated).filter (·.hasValidations)).map generated ∧
      output'.validators = ((types'.map annotated).filter (·.hasValidations)).map generated := by
  rw [compile_of_analyze htypes, map_eq_ok_iff] at h
  obtain ⟨validators, hvalidators, rfl⟩ := h
  obtain ⟨generated, hmap, hall⟩ :=
    exists_generation_perm (nodup_keys_of_analyze htypes) hvalidators
  have hgenerate := hall _ (hperm.map annotated)
  refine ⟨.ofValidators _, generated, ?_, hmap, rfl⟩
  rw [compile_of_analyze htypes', hgenerate]
  rfl

/-- If the declarations compile in one order, they do so in every order. -/
theorem exists_compile_of_perm (hperm : types.Perm types')
    (h : ∃ output, compile types options schedule = .ok output) :
    ∃ output, compile types' options schedule' = .ok output := by
  obtain ⟨output, houtput⟩ := h
  obtain ⟨analyzed, -, hanalyzed, -, -⟩ := compile_eq_ok_iff.1 houtput
  obtain ⟨annotated, rfl, hall⟩ := exists_annotation_perm hanalyzed
  obtain ⟨output', -, houtput', -⟩ :=
    exists_output_of_perm hperm hanalyzed (hall types' hperm) houtput
  exact ⟨output', houtput'⟩

/-- **The order of the declarations does not matter.** Of two orders of the same declarations, both
are accepted or neither is, by the analysis and by the compilation, whatever the schedules are. If
they are accepted, one function annotates the declarations of both, and one function writes the
validators of both, so each list of results stands in the order of its declarations. -/
theorem outcome_perm (h : types.Perm types') (options : Options) (schedule schedule' : Schedule) :
    ((∃ analyzed, analyze types = .ok analyzed) ↔ ∃ analyzed, analyze types' = .ok analyzed) ∧
    ((∃ output, compile types options schedule = .ok output) ↔
      ∃ output, compile types' options schedule' = .ok output) ∧
    ∀ analyzed, analyze types = .ok analyzed →
      ∃ annotated : Declaration → Declaration,
        analyzed = types.map annotated ∧ analyze types' = .ok (types'.map annotated) ∧
        ∀ output, compile types options schedule = .ok output →
          ∃ (output' : Output) (generated : Declaration → GeneratedValidator),
            compile types' options schedule' = .ok output' ∧
            output.validators = ((types.map annotated).filter (·.hasValidations)).map generated ∧
            output'.validators =
              ((types'.map annotated).filter (·.hasValidations)).map generated := by
  refine ⟨⟨exists_analyze_of_perm h, exists_analyze_of_perm h.symm⟩,
    ⟨exists_compile_of_perm h, exists_compile_of_perm h.symm⟩, fun analyzed hanalyzed => ?_⟩
  obtain ⟨annotated, rfl, hall⟩ := exists_annotation_perm hanalyzed
  exact ⟨annotated, rfl, hall types' h, fun output houtput =>
    exists_output_of_perm h hanalyzed (hall types' h) houtput⟩

/-- A declaration whose checks reach into another package. -/
def orderDeclaration : Declaration :=
  ⟨"Order", "shop", none, [⟨"home", "crate::people::Address", "required", []⟩,
    ⟨"limit", "u16", "ltefield=home.zip", []⟩], false⟩

/-- The declaration that it reaches. -/
def addressDeclaration : Declaration :=
  ⟨"Address", "people", none, [⟨"zip", "u32", "gt=0", []⟩], false⟩

/-- The two in either order have the same validators, in that order. -/
theorem order_address_perm :
    [orderDeclaration, addressDeclaration].Perm [addressDeclaration, orderDeclaration] ∧
    ∃ output output', compile [orderDeclaration, addressDeclaration] {} = .ok output ∧
      compile [addressDeclaration, orderDeclaration] {} = .ok output' ∧
      output.validators.map (·.functionName) = ["validate_order", "validate_address"] ∧
      output'.validators = output.validators.reverse := by
  have hperm : [orderDeclaration, addressDeclaration].Perm [addressDeclaration, orderDeclaration] :=
    List.Perm.swap _ _ _
  have heval : ((compile [orderDeclaration, addressDeclaration] {}).toOption.any fun output =>
      output.validators.map (·.functionName) = ["validate_order", "validate_address"]) = true := by
    decide +kernel
  obtain ⟨output, hcompile, hnames⟩ := exists_eq_ok_of_any heval
  obtain ⟨analyzed, -, hanalyzed, -, -⟩ := compile_eq_ok_iff.1 hcompile
  obtain ⟨annotated, -, -, hall⟩ :=
    (outcome_perm hperm {} .inOrder .inOrder).2.2 analyzed hanalyzed
  obtain ⟨output', generated, hcompile', hvalidators, hvalidators'⟩ := hall output hcompile
  refine ⟨hperm, output, output', hcompile, hcompile', of_decide_eq_true hnames, ?_⟩
  rw [hvalidators, hvalidators', ← List.map_reverse, ← List.filter_reverse, ← List.map_reverse]
  rfl

end FieldRules
