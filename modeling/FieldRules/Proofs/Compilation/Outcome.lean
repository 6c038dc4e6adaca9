import FieldRules.Proofs.Compilation.Internal
import FieldRules.Proofs.Compilation.Stages

/-!
# The outcome of a compilation

What the analysis has accepted fails to compile for one reason only: a field of a declared type has a
rule, and its type has no validator that the field could be delegated to. Such a field is dangling.
`compile_outcome` says that the compilation fails exactly if there is one, and that it otherwise
writes one validator for each declaration with validations.

Of a single declaration, the first dangling field is reported. Which declaration is reported, if
several have dangling fields, depends on the schedule: it may be any of them, and it is the first if
the validators are written in order (`later_owner_reported` has a schedule where it is not).

The proof goes up from the blocks of a field over the validator of a declaration to the list of all
validators, with the exact fault at each level.
-/

namespace FieldRules

variable {types analyzed : List Declaration} {options : Options} {schedule : Schedule}
  {fault : Error}

/-! ### Dangling fields -/

/-- The field has a rule, but its type means no declaration that has validations. -/
structure Dangling (types : List Declaration) (owner : Declaration) (field : Field) : Prop where
  /-- The type of the field is not a primitive. -/
  nested : field.fieldType.category = .other
  /-- The field has a rule. -/
  tagged : field.rules ≠ []
  /-- What the type means, seen from the package of the owner, has no validations. -/
  unvalidated : ∀ target, Denotes types owner.package field.fieldType.base target →
    target.hasValidations = false

/-- The first dangling field of a declaration. -/
structure FirstDangling (types : List Declaration) (owner : Declaration) (field : Field) :
    Prop where
  /-- No field before it is dangling. -/
  fields : AllBefore (fun f => ¬ Dangling types owner f) owner.fields field
  /-- The field is dangling itself. -/
  dangling : Dangling types owner field

/-- The first dangling field of all, declaration by declaration and field by field. -/
structure FirstOfAll (types : List Declaration) (owner : Declaration) (field : Field) : Prop
    extends FirstDangling types owner field where
  /-- The declarations before its owner have no dangling field. -/
  owners : AllBefore (fun d => ∀ f ∈ d.fields, ¬ Dangling types d f) types owner

/-- The fault of a dangling field, at the place of its owner if that is known. -/
def missingValidator (owner : Declaration) (field : Field) : Error :=
  let fault : Error := .semantic (.noValidator owner.name field.name field.fieldType.base)
  match owner.location with
  | some location => .located location fault
  | none => fault

/-- The fault of a dangling field stands where its declaration does. -/
theorem missingValidator_eq_at? (owner : Declaration) (field : Field) :
    missingValidator owner field =
      (Error.semantic (.noValidator owner.name field.name field.fieldType.base)).at?
        owner.location := by
  unfold missingValidator Error.at?
  cases owner.location <;> rfl

/-! ### Fields and declarations -/

namespace Validator

/-- A primitive field whose rules fit has its blocks. -/
theorem exists_primitiveBlocks_eq_ok {field : Field} {type : FieldType}
    (h : ∀ rule ∈ field.rules, rule.Fits type) :
    ∃ blocks, primitiveBlocks field type = .ok blocks := by
  have heach : ∀ rule ∈ field.rules, ∃ block, checkBlock field type rule = .ok block :=
    fun rule hrule => exists_checkBlock_eq_ok (h rule hrule)
  obtain ⟨blocks, hblocks⟩ := exists_forall₂_iff.2 heach
  exact ⟨_, map_eq_ok_iff.2 ⟨blocks, mapM_eq_ok_iff.2 hblocks, rfl⟩⟩

/-- A delegation fails exactly if its field needs a target and has none. -/
theorem delegateBlocks_eq_error_iff {scope : Scope} {owner : Declaration} {field : Field} :
    delegateBlocks scope owner field field.fieldType = .error fault ↔
      field.fieldType.shape = .plain ∧ delegateTarget scope owner field.fieldType = none ∧
        field.rules ≠ [] ∧ fault = missingValidator owner field := by
  unfold delegateBlocks
  by_cases hshape : field.fieldType.shape = .plain
  · cases delegateTarget scope owner field.fieldType with
    | some target => simp [hshape]
    | none =>
      by_cases hrules : field.rules = []
      · simp [hshape, hrules]
      · simp [hshape, hrules, missingValidator_eq_at?, eq_comm (a := fault)]
  · simp [hshape]

end Validator

/-- A field of an analysed declaration has no blocks exactly if it is dangling. -/
theorem fieldBlocks_eq_error_iff (h : analyze types = .ok analyzed) {owner : Declaration}
    (howner : owner ∈ analyzed) {field : Field} (hfield : field ∈ owner.fields) :
    Validator.fieldBlocks (Scope.of analyzed) owner field = .error fault ↔
      Dangling analyzed owner field ∧ fault = missingValidator owner field := by
  unfold Validator.fieldBlocks
  dsimp only
  by_cases hprim : field.fieldType.isPrimitive = true
  · obtain ⟨blocks, hblocks⟩ := Validator.exists_primitiveBlocks_eq_ok fun rule hrule =>
      fits_of_analyze h howner hfield hprim hrule
    rw [if_pos hprim, hblocks]
    constructor
    · intro heq
      cases heq
    · rintro ⟨hdangling, -⟩
      exact absurd hdangling.nested (FieldType.isPrimitive_iff.1 hprim)
  · have hnested : field.fieldType.isPrimitive = false := by simpa using hprim
    rw [if_neg hprim, map_eq_error_iff, Validator.delegateBlocks_eq_error_iff,
      Validator.delegateTarget_eq_none_iff]
    constructor
    · rintro ⟨-, hnone, hrules, rfl⟩
      exact ⟨⟨FieldType.isPrimitive_eq_false_iff.1 hnested, hrules, hnone⟩, rfl⟩
    · rintro ⟨⟨-, hrules, hnone⟩, rfl⟩
      exact ⟨shape_eq_plain_of_analyze h howner hfield hnested hrules, hnone, hrules, rfl⟩

/-- So it has blocks exactly if it is not dangling. -/
theorem exists_fieldBlocks_iff (h : analyze types = .ok analyzed) {owner : Declaration}
    (howner : owner ∈ analyzed) {field : Field} (hfield : field ∈ owner.fields) :
    (∃ part, Validator.fieldBlocks (Scope.of analyzed) owner field = .ok part) ↔
      ¬ Dangling analyzed owner field := by
  have herror : ∀ fault, Validator.fieldBlocks (Scope.of analyzed) owner field = .error fault ↔
      Dangling analyzed owner field ∧ fault = missingValidator owner field := fun _ =>
    fieldBlocks_eq_error_iff h howner hfield
  cases hblocks : Validator.fieldBlocks (Scope.of analyzed) owner field with
  | ok part =>
    have hnot : ¬ Dangling analyzed owner field := by
      intro hdangling
      have := (herror _).2 ⟨hdangling, rfl⟩
      rw [hblocks] at this
      cases this
    simpa using hnot
  | error fault => simpa using ((herror fault).1 hblocks).1

/-- A declaration has no validator exactly if a field is dangling; the first one is at fault. -/
theorem generate_eq_error_iff (h : analyze types = .ok analyzed) {owner : Declaration}
    (howner : owner ∈ analyzed) :
    generate options (Scope.of analyzed) owner = .error fault ↔
      ∃ field, FirstDangling analyzed owner field ∧ fault = missingValidator owner field := by
  rw [generate, map_eq_error_iff, Validator.ofDeclaration, map_eq_error_iff,
    mapM_eq_error_iff_allBefore]
  constructor
  · rintro ⟨field, hbefore, herror⟩
    obtain ⟨hdangling, hfault⟩ := (fieldBlocks_eq_error_iff h howner hbefore.mem).1 herror
    refine ⟨field, ⟨?_, hdangling⟩, hfault⟩
    exact (allBefore_congr fun f hf => exists_fieldBlocks_iff h howner hf).1 hbefore
  · rintro ⟨field, ⟨hbefore, hdangling⟩, hfault⟩
    refine ⟨field, ?_, (fieldBlocks_eq_error_iff h howner hbefore.mem).2 ⟨hdangling, hfault⟩⟩
    exact (allBefore_congr fun f hf => exists_fieldBlocks_iff h howner hf).2 hbefore

/-- So it has a validator exactly if no field is dangling. -/
theorem exists_generate_iff (options : Options) (h : analyze types = .ok analyzed)
    {owner : Declaration} (howner : owner ∈ analyzed) :
    (∃ v, generate options (Scope.of analyzed) owner = .ok v) ↔
      ∀ field ∈ owner.fields, ¬ Dangling analyzed owner field := by
  constructor
  · rintro ⟨v, hv⟩ field hfield
    obtain ⟨body, hbody, -⟩ := generate_eq_ok_iff.1 hv
    obtain ⟨parts, hparts, -⟩ := Validator.ofDeclaration_eq_ok_iff.1 hbody
    exact (exists_fieldBlocks_iff h howner hfield).1
      (exists_forall₂_iff.1 ⟨parts, hparts⟩ field hfield)
  · intro hnone
    obtain ⟨parts, hparts⟩ := exists_forall₂_iff.2 fun field hfield =>
      (exists_fieldBlocks_iff h howner hfield).2 (hnone field hfield)
    exact ⟨_, generate_eq_ok_iff.2
      ⟨_, Validator.ofDeclaration_eq_ok_iff.2 ⟨parts, hparts, rfl⟩, rfl⟩⟩

/-! ### All declarations -/

/-- A declaration with a dangling field has validations. -/
theorem Dangling.hasValidations (h : analyze types = .ok analyzed) {owner : Declaration}
    (howner : owner ∈ analyzed) {field : Field} (hfield : field ∈ owner.fields)
    (hdangling : Dangling analyzed owner field) : owner.hasValidations = true :=
  (hasValidations_iff_of_analyze h howner).2 ⟨field, hfield, hdangling.tagged⟩

/-- Of the declarations with dangling fields, any one may be reported. -/
theorem exists_generateAll_eq_error_iff (h : analyze types = .ok analyzed) :
    (∃ schedule, generateAll options (Scope.of analyzed) schedule = .error fault) ↔
      ∃ d ∈ analyzed, ∃ field, FirstDangling analyzed d field ∧
        fault = missingValidator d field := by
  simp only [generateAll, Schedule.exists_collect_eq_error_iff, List.mem_map, List.mem_filter]
  constructor
  · rintro ⟨d, ⟨hd, -⟩, herror⟩
    exact ⟨d, hd, (generate_eq_error_iff h hd).1 herror⟩
  · rintro ⟨d, hd, field, hfirst, hfault⟩
    refine ⟨d, ⟨hd, ?_⟩, (generate_eq_error_iff h hd).2 ⟨field, hfirst, hfault⟩⟩
    exact hfirst.dangling.hasValidations h hd hfirst.fields.mem

/-- In order, the first of them is reported. -/
theorem generateAll_inOrder_eq_error_iff (h : analyze types = .ok analyzed) :
    generateAll options (Scope.of analyzed) .inOrder = .error fault ↔
      ∃ d field, FirstOfAll analyzed d field ∧ fault = missingValidator d field := by
  rw [generateAll, Schedule.collect_inOrder, mapM_filter_eq_error_iff]
  constructor
  · rintro ⟨before, owner, after, hsplit, hbefore, -, herror⟩
    change analyzed = _ at hsplit
    have howner : owner ∈ analyzed := by simp [hsplit]
    obtain ⟨field, hfirst, hfault⟩ := (generate_eq_error_iff h howner).1 herror
    refine ⟨owner, field, ⟨hfirst, before, after, hsplit, ?_⟩, hfault⟩
    -- a declaration before the owner is written, or has no rule at all
    intro d hd f hf hdangling
    have hmem : d ∈ analyzed := by simp [hsplit, hd]
    have hwritten := hbefore d hd (hdangling.hasValidations h hmem hf)
    exact (exists_generate_iff options h hmem).1 hwritten f hf hdangling
  · rintro ⟨owner, field, ⟨hfirst, before, after, hsplit, hbefore⟩, hfault⟩
    have howner : owner ∈ analyzed := by simp [hsplit]
    refine ⟨before, owner, after, hsplit, fun d hd _ => ?_,
      hfirst.dangling.hasValidations h howner hfirst.fields.mem,
      (generate_eq_error_iff h howner).2 ⟨field, hfirst, hfault⟩⟩
    exact (exists_generate_iff options h (by simp [hsplit, hd])).2 (hbefore d hd)

/-- The compilation of analysed declarations succeeds exactly if no field is dangling. -/
theorem exists_compile_iff (options : Options) (schedule : Schedule)
    (h : analyze types = .ok analyzed) :
    (∃ output, compile types options schedule = .ok output) ↔
      ∀ d ∈ analyzed, ∀ field ∈ d.fields, ¬ Dangling analyzed d field := by
  constructor
  · rintro ⟨output, houtput⟩ d hd field hfield hdangling
    rw [compile_of_analyze h, map_eq_ok_iff] at houtput
    obtain ⟨validators, hvalidators, -⟩ := houtput
    have hvalidated := hdangling.hasValidations h hd hfield
    have hwritten := exists_forall₂_iff.1 ⟨validators, generateAll_eq_ok_iff.1 hvalidators⟩ d
      (List.mem_filter.2 ⟨hd, hvalidated⟩)
    exact (exists_generate_iff options h hd).1 hwritten field hfield hdangling
  · intro hnone
    obtain ⟨validators, hvalidators⟩ := exists_forall₂_iff.2 fun d hd =>
      (exists_generate_iff options h (List.mem_filter.1 hd).1).2
        (hnone d (List.mem_filter.1 hd).1)
    exact ⟨_, compile_eq_ok_iff.2
      ⟨analyzed, validators, h, generateAll_eq_ok_iff.2 hvalidators, rfl⟩⟩

/-- It fails with a fault exactly if the fault is that of a first dangling field of a declaration,
under some schedule. -/
theorem exists_compile_eq_error_iff (h : analyze types = .ok analyzed) :
    (∃ schedule, compile types options schedule = .error fault) ↔
      ∃ d ∈ analyzed, ∃ field, FirstDangling analyzed d field ∧
        fault = missingValidator d field := by
  simp only [compile_of_analyze h, map_eq_error_iff, exists_generateAll_eq_error_iff h]

/-- In order, the fault is that of the first dangling field of all. -/
theorem compile_inOrder_eq_error_iff (h : analyze types = .ok analyzed) :
    compile types options .inOrder = .error fault ↔
      ∃ d field, FirstOfAll analyzed d field ∧ fault = missingValidator d field := by
  rw [compile_of_analyze h, map_eq_error_iff, generateAll_inOrder_eq_error_iff h]

/-- **The outcome of a compilation.** A fault of the analysis is the fault of the compilation. What
the analysis accepts fails exactly if a field is dangling. The fault is then that of the first such
field of a declaration that has one: of the first such declaration if the validators are written in
order, and of any of them otherwise. Without a dangling field there is one validator for each
declaration with validations, in their order. -/
theorem compile_outcome (types : List Declaration) (options : Options) :
    (∀ fault schedule, analyze types = .error fault →
      compile types options schedule = .error fault) ∧
    ∀ analyzed, analyze types = .ok analyzed →
      (∀ schedule, (∃ fault, compile types options schedule = .error fault) ↔
        ∃ d ∈ analyzed, ∃ field ∈ d.fields, Dangling analyzed d field) ∧
      (∀ fault, (∃ schedule, compile types options schedule = .error fault) ↔
        ∃ d ∈ analyzed, ∃ field, FirstDangling analyzed d field ∧
          fault = missingValidator d field) ∧
      (∀ fault, compile types options .inOrder = .error fault ↔
        ∃ d field, FirstOfAll analyzed d field ∧ fault = missingValidator d field) ∧
      ((¬ ∃ d ∈ analyzed, ∃ field ∈ d.fields, Dangling analyzed d field) →
        ∀ schedule, ∃ output, compile types options schedule = .ok output ∧
          List.Forall₂ (fun d v => v.typeName = d.name ∧ v.package = d.package ∧
              v.functionName = validatorName d.name ∧
              generate options (Scope.of analyzed) d = .ok v)
            (analyzed.filter (·.hasValidations)) output.validators) := by
  refine ⟨fun fault schedule h => compile_of_analyze_eq_error h, fun analyzed h =>
    ⟨?_, fun fault => exists_compile_eq_error_iff h, fun fault => compile_inOrder_eq_error_iff h,
      ?_⟩⟩
  · intro schedule
    have hok := exists_compile_iff options schedule h
    cases hcompile : compile types options schedule with
    | ok output => simpa [hcompile] using hok
    | error fault => simpa [hcompile] using hok
  · intro hnone schedule
    obtain ⟨output, houtput⟩ := (exists_compile_iff options schedule h).2 <| by
      simpa using hnone
    refine ⟨output, houtput, ?_⟩
    rw [compile_of_analyze h, map_eq_ok_iff] at houtput
    obtain ⟨validators, hvalidators, rfl⟩ := houtput
    refine (generateAll_eq_ok_iff.1 hvalidators).imp fun d v hv => ?_
    obtain ⟨hname, hpackage, hfunction⟩ := names_of_generate hv
    exact ⟨hname, hpackage, hfunction, hv⟩

/-- A type that refers to itself, one without rules, one with two dangling fields, and one with
another. -/
def danglingDeclarations : List Declaration :=
  [⟨"Node", "", none, [⟨"next", "Option<Node>", "required", []⟩], false⟩,
    ⟨"Address", "", none, [⟨"city", "String", "", []⟩], false⟩,
    ⟨"User", "", some ⟨"user.rs", 7⟩, [⟨"name", "String", "required", []⟩,
      ⟨"home", "Address", "required", []⟩, ⟨"work", "Office", "required", []⟩], false⟩,
    ⟨"Shop", "", none, [⟨"site", "Address", "required", []⟩], false⟩]

theorem exists_analyze_danglingDeclarations :
    ∃ analyzed, analyze danglingDeclarations = .ok analyzed := by
  have haccepted : ((analyze danglingDeclarations).toOption.any fun _ => true) = true := by
    decide +kernel
  obtain ⟨analyzed, hanalyzed, -⟩ := exists_eq_ok_of_any haccepted
  exact ⟨analyzed, hanalyzed⟩

/-- If the last fault is noticed first, the last declaration is reported. -/
theorem compile_danglingDeclarations_last :
    compile danglingDeclarations {} ⟨Fin.last⟩ =
      .error (.semantic (.noValidator "Shop" "site" "Address")) := by
  decide +kernel

/-- In order, the fault is that of the first of the three, at the place of its owner. Otherwise it may
be that of the last one as well. -/
theorem home_dangles :
    ∃ analyzed, analyze danglingDeclarations = .ok analyzed ∧
      (∃ d field, FirstOfAll analyzed d field ∧
        missingValidator d field =
          .located ⟨"user.rs", 7⟩ (.semantic (.noValidator "User" "home" "Address"))) ∧
      (∃ d ∈ analyzed, ∃ field, FirstDangling analyzed d field ∧
        missingValidator d field = .semantic (.noValidator "Shop" "site" "Address")) := by
  have hfault : compile danglingDeclarations {} .inOrder =
      .error (.located ⟨"user.rs", 7⟩ (.semantic (.noValidator "User" "home" "Address"))) := by
    decide +kernel
  obtain ⟨analyzed, hanalyzed⟩ := exists_analyze_danglingDeclarations
  obtain ⟨-, hany, hfirst, -⟩ := (compile_outcome danglingDeclarations {}).2 analyzed hanalyzed
  obtain ⟨d, field, hdangling, hmissing⟩ := (hfirst _).1 hfault
  obtain ⟨e, he, field', hdangling', hmissing'⟩ :=
    (hany _).1 ⟨_, compile_danglingDeclarations_last⟩
  exact ⟨analyzed, hanalyzed, ⟨d, field, hdangling, hmissing.symm⟩,
    e, he, field', hdangling', hmissing'.symm⟩

/-- If the last fault is noticed first, the declaration that is reported is not the first of those
with dangling fields. -/
theorem later_owner_reported :
    ∃ analyzed, analyze danglingDeclarations = .ok analyzed ∧
      ∃ schedule fault, compile danglingDeclarations {} schedule = .error fault ∧
        ¬ ∃ d field, FirstOfAll analyzed d field ∧ fault = missingValidator d field := by
  have hinOrder : compile danglingDeclarations {} .inOrder ≠
      .error (.semantic (.noValidator "Shop" "site" "Address")) := by
    decide +kernel
  obtain ⟨analyzed, hanalyzed⟩ := exists_analyze_danglingDeclarations
  refine ⟨analyzed, hanalyzed, ⟨Fin.last⟩, _, compile_danglingDeclarations_last,
    fun hfirst => hinOrder ?_⟩
  exact (compile_inOrder_eq_error_iff hanalyzed).2 hfirst

end FieldRules
