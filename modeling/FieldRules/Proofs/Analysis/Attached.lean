import FieldRules.Proofs.Analysis.WellFormed

/-!
# Attached rules

What is known of a rule once the analysis has attached it to a primitive field. `Rule.Fits` collects
the promises that the generation of checks relies on; `fits_of_analyze` says that the analysis keeps
them for every rule of every field. On a field of a declared type there is only one kind of rule
(`required_of_analyze`).
-/

namespace FieldRules

/-- What the analysis promises of a rule on a primitive field of a type. -/
inductive Rule.Fits (type : FieldType) (rule : Rule) : Prop where
  /-- The operation is legal for the type, and can read all its targets. -/
  | checked : rule.validation.HasArity → rule.validation.operation.comparesFields = false →
      rule.validation.operation.isLegalForType type = true →
      (∀ value ∈ rule.validation.values,
        Analysis.Readable rule.validation.operation type value) →
      rule.peer = none → rule.Fits type
  /-- The operation is legal for the type, and there is a peer that it can be compared with. -/
  | compared {peer : Peer} : rule.validation.HasArity →
      rule.validation.operation.comparesFields = true →
      rule.validation.operation.isLegalForType type = true → rule.peer = some peer →
      ComparesWith type peer.type → rule.Fits type

section

variable {type : FieldType} {rule : Rule}

theorem Rule.Fits.hasArity (h : rule.Fits type) : rule.validation.HasArity := by
  cases h with
  | checked harity => exact harity
  | compared harity => exact harity

theorem Rule.Fits.isLegalForType (h : rule.Fits type) :
    rule.validation.operation.isLegalForType type = true := by
  cases h with
  | checked _ _ hlegal => exact hlegal
  | compared _ _ hlegal => exact hlegal

/-- If the targets are no paths, they can be read. -/
theorem Rule.Fits.readable (h : rule.Fits type)
    (hcmp : rule.validation.operation.comparesFields = false) :
    ∀ value ∈ rule.validation.values,
      Analysis.Readable rule.validation.operation type value := by
  cases h with
  | checked _ _ _ hread => exact hread
  | compared _ hcmp' => exact absurd (hcmp.symm.trans hcmp') (by decide)

/-- If the target is a path, it has led to a peer. -/
theorem Rule.Fits.exists_peer (h : rule.Fits type)
    (hcmp : rule.validation.operation.comparesFields = true) :
    ∃ peer, rule.peer = some peer ∧ ComparesWith type peer.type := by
  cases h with
  | checked _ hcmp' => exact absurd (hcmp.symm.trans hcmp') (by decide)
  | compared _ _ _ hpeer hcompares => exact ⟨_, hpeer, hcompares⟩

end

/-- An accepted validation of a primitive field makes a rule that fits the field. -/
theorem Analysis.Accepted.fits {scope : Scope} {owner : Declaration} {field : Field} {rule : Rule}
    (h : Accepted scope owner field rule.validation rule.peer)
    (harity : rule.validation.HasArity) (hprim : field.fieldType.isPrimitive = true) :
    rule.Fits field.fieldType := by
  generalize hpeer : rule.peer = found at h
  cases h with
  | nested hnested => exact absurd hprim (by simp [hnested])
  | compared _ hcmp hresolve =>
    obtain ⟨target, -, hcomparable, hlegal, -, rfl⟩ := resolvePeer_eq_ok_iff.1 hresolve
    exact .compared harity hcmp hlegal hpeer (comparable_iff.1 hcomparable)
  | checked _ hcmp hlegal hread => exact .checked harity hcmp hlegal hread hpeer

/-- Every rule that a field is annotated with states what its tag does, and has been accepted. -/
theorem Analysis.AnnotatesField.accepted {scope : Scope} {owner : Declaration}
    {field annotated : Field} (h : AnnotatesField scope owner field annotated) {rule : Rule}
    (hrule : rule ∈ annotated.rules) :
    ∃ vs, Tag.validations field.tag = .ok vs ∧ rule.validation ∈ vs ∧
      Accepted scope owner field rule.validation rule.peer := by
  obtain ⟨rules, ⟨vs, hvs, hrules⟩, rfl⟩ := h
  obtain ⟨v, hv, hcheck⟩ := forall₂_mem_right hrules hrule
  obtain ⟨rfl, haccepted⟩ := checkValidation_eq_ok_iff.1 hcheck
  exact ⟨vs, hvs, hv, haccepted⟩

/-- The rules of a primitive field fit it. -/
theorem Analysis.AnnotatesField.rule_fits {scope : Scope} {owner : Declaration}
    {field annotated : Field} (h : AnnotatesField scope owner field annotated) {rule : Rule}
    (hrule : rule ∈ annotated.rules) (hprim : annotated.fieldType.isPrimitive = true) :
    rule.Fits annotated.fieldType := by
  obtain ⟨vs, hvs, hv, haccepted⟩ := h.accepted hrule
  obtain ⟨rules, -, rfl⟩ := h
  exact haccepted.fits (Tag.hasArity_of_mem_validations hvs hv) hprim

/-- A field of a declared type can only be required, and only outside containers. -/
theorem Analysis.AnnotatesField.required_of_nested {scope : Scope} {owner : Declaration}
    {field annotated : Field} (h : AnnotatesField scope owner field annotated) {rule : Rule}
    (hrule : rule ∈ annotated.rules) (hnested : annotated.fieldType.isPrimitive = false) :
    rule.validation.operation = .required ∧ annotated.fieldType.shape = .plain := by
  obtain ⟨-, -, -, haccepted⟩ := h.accepted hrule
  obtain ⟨rules, -, rfl⟩ := h
  generalize rule.peer = found at haccepted
  cases haccepted with
  | nested _ hop hshape => exact ⟨hop, hshape⟩
  | compared hprim => exact absurd (hnested.symm.trans hprim) Bool.false_ne_true
  | checked hprim => exact absurd (hnested.symm.trans hprim) Bool.false_ne_true

section

variable {types analyzed : List Declaration} (h : analyze types = .ok analyzed) {d : Declaration}
  (hd : d ∈ analyzed) {field : Field} (hfield : field ∈ d.fields)
include h hd hfield

/-- Every field that the analysis returns is one of a declaration, annotated. -/
theorem exists_annotatesField_of_analyze :
    ∃ scope owner source, Analysis.AnnotatesField scope owner source field := by
  obtain ⟨scope, -, hall⟩ := analyze_eq_ok_iff.1 h
  obtain ⟨owner, -, fields, hfields, rfl⟩ := forall₂_mem_right hall hd
  obtain ⟨source, -, hannotates⟩ := forall₂_mem_right hfields hfield
  exact ⟨scope, owner, source, hannotates⟩

/-- **Every rule that the analysis attaches to a primitive field fits the field.** -/
theorem fits_of_analyze (hprim : field.fieldType.isPrimitive = true) {rule : Rule}
    (hrule : rule ∈ field.rules) : rule.Fits field.fieldType := by
  obtain ⟨scope, owner, source, hannotates⟩ := exists_annotatesField_of_analyze h hd hfield
  exact hannotates.rule_fits hrule hprim

/-- A rule that the analysis attaches to a field of a declared type only requires it. -/
theorem required_of_analyze (hnested : field.fieldType.isPrimitive = false) {rule : Rule}
    (hrule : rule ∈ field.rules) :
    rule.validation.operation = .required ∧ field.fieldType.shape = .plain := by
  obtain ⟨scope, owner, source, hannotates⟩ := exists_annotatesField_of_analyze h hd hfield
  exact hannotates.required_of_nested hrule hnested

/-- A rule that the analysis attaches states what an entry of the tag does. -/
theorem exists_entry_of_analyze {rule : Rule} (hrule : rule ∈ field.rules) :
    ∃ es, Tag.entries field.tag = .ok es ∧
      ∃ e ∈ es, Validation.ofEntry e = .ok rule.validation := by
  obtain ⟨scope, owner, source, hannotates⟩ := exists_annotatesField_of_analyze h hd hfield
  obtain ⟨vs, hvs, hv, -⟩ := hannotates.accepted hrule
  obtain ⟨rules, -, rfl⟩ := hannotates
  obtain ⟨es, hes, hread⟩ := Tag.validations_eq_ok_iff.1 hvs
  exact ⟨es, hes, forall₂_mem_right hread hv⟩

/-- A field of a declared type has rules only outside containers. -/
theorem shape_eq_plain_of_analyze (hnested : field.fieldType.isPrimitive = false)
    (hrules : field.rules ≠ []) : field.fieldType.shape = .plain := by
  obtain ⟨rule, hrule⟩ := List.exists_mem_of_ne_nil _ hrules
  exact (required_of_analyze h hd hfield hnested hrule).2

end

end FieldRules
