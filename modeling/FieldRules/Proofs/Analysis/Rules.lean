import FieldRules.Analysis
import FieldRules.Proofs.Scope
import FieldRules.Proofs.Traversal

/-!
# What the analysis attaches

The two passes of the analysis, taken together, treat every field of every declaration by itself:
its tag is read into validations, and each validation is checked into a rule. `analyze_eq_ok_iff`
says so for whole sets of declarations.

`checkValidation_eq_ok_iff` is the inversion of the check of one validation: there are three ways in
which a validation can be accepted (`Accepted`), one for fields of declared types, one for
comparisons of fields and one for everything else. What follows from acceptance is proved from these
lemmas, and nothing below unfolds the analysis.
-/

namespace FieldRules.Analysis

/-! ### One validation -/

/-- The target is what the operation of a validation expects on a field of the type. -/
def Readable (operation : Operation) (type : FieldType) (value : String) : Prop :=
  ∃ l, (TargetKind.of operation type).read value = some l

/-- The ways in which a validation of a field is accepted, and the peer that is found for it. -/
inductive Accepted (scope : Scope) (owner : Declaration) (field : Field) (validation : Validation) :
    Option Peer → Prop where
  /-- A field of a declared type may be required. -/
  | nested : field.fieldType.isPrimitive = false → validation.operation = .required →
      field.fieldType.shape = .plain → Accepted scope owner field validation none
  /-- A comparison of fields has a peer. -/
  | compared {peer : Peer} : field.fieldType.isPrimitive = true →
      validation.operation.comparesFields = true →
      resolvePeer scope ⟨owner, field, validation.operation⟩ field.fieldType validation = .ok peer →
      Accepted scope owner field validation (some peer)
  /-- Any other operation is legal for the type, and all targets can be read. -/
  | checked : field.fieldType.isPrimitive = true → validation.operation.comparesFields = false →
      validation.operation.isLegalForType field.fieldType = true →
      (∀ value ∈ validation.values, Readable validation.operation field.fieldType value) →
      Accepted scope owner field validation none

variable {scope : Scope} {owner : Declaration} {field : Field} {validation : Validation}

/-- No target is unreadable exactly if all targets can be read. -/
theorem find?_unreadable_eq_none_iff {operation : Operation} {type : FieldType}
    {values : List String} :
    (values.find? fun value => ((TargetKind.of operation type).read value).isNone) = none ↔
      ∀ value ∈ values, Readable operation type value := by
  rw [List.find?_eq_none]
  refine forall₂_congr fun value _ => ?_
  rw [Readable, ← Option.ne_none_iff_exists', Option.isNone_iff_eq_none]

/-- The rule of a validation is the validation with the peer that acceptance finds. -/
theorem checkValidation_eq_ok_iff {rule : Rule} :
    checkValidation scope owner field validation = .ok rule ↔
      rule.validation = validation ∧ Accepted scope owner field validation rule.peer := by
  constructor
  · intro h
    unfold checkValidation at h
    simp only at h
    split at h
    case isTrue hprim =>
      split at h
      case isTrue hreq =>
        cases h
        exact ⟨rfl, .nested (by simpa using hprim) hreq.1 hreq.2⟩
      case isFalse => cases h
    case isFalse hprim =>
      have hprim : field.fieldType.isPrimitive = true := by simpa using hprim
      split at h
      case isTrue hcmp =>
        obtain ⟨peer, hpeer, heq⟩ := map_eq_ok_iff.1 h
        cases heq
        exact ⟨rfl, .compared hprim hcmp hpeer⟩
      case isFalse hcmp =>
        split at h
        case isTrue => cases h
        case isFalse hlegal =>
          split at h
          case h_1 => cases h
          case h_2 hfind =>
            cases h
            exact ⟨rfl, .checked hprim (by simpa using hcmp) (by simpa using hlegal)
              (find?_unreadable_eq_none_iff.1 hfind)⟩
  · obtain ⟨v, peer⟩ := rule
    rintro ⟨hv, h⟩
    dsimp only at hv h
    subst hv
    cases h with
    | nested hprim hop hshape => simp [checkValidation, hprim, hop, hshape]
    | compared hprim hcmp hpeer => simp [checkValidation, hprim, hcmp, hpeer, Except.map]
    | checked hprim hcmp hlegal hread =>
      have hfind := find?_unreadable_eq_none_iff.2 hread
      simp [checkValidation, hprim, hcmp, hlegal, hfind]

/-- A peer is the field at the end of the path that the target spells. Its values can be compared
with those of the field, the operation is legal for the field, and the peer is bare. -/
theorem resolvePeer_eq_ok_iff {site : Site} {type : FieldType} {peer : Peer} :
    resolvePeer scope site type validation = .ok peer ↔
      ∃ target,
        findPeer scope site (peerReference validation) = .ok target ∧
          comparable type target.fieldType = true ∧
          site.operation.isLegalForType type = true ∧ target.fieldType.isBare = true ∧
          peer = ⟨peerPath (peerReference validation), target.fieldType⟩ := by
  unfold resolvePeer
  simp only
  split
  case h_1 fault hpath => simp [hpath]
  case h_2 target hpath =>
    rw [hpath]
    by_cases hcomparable : comparable type target.fieldType = true
    · by_cases hlegal : site.operation.isLegalForType type = true
      · by_cases hbare : target.fieldType.isBare = true
        · simp [hcomparable, hlegal, hbare, eq_comm (a := peer)]
        · simp [hcomparable, hlegal, hbare]
      · simp [hcomparable, hlegal]
    · simp [hcomparable]

/-! ### Fields and declarations -/

/-- The rules of a field: its tag is read into validations, and each of them makes a rule. -/
def RulesOf (scope : Scope) (owner : Declaration) (field : Field) (rules : List Rule) : Prop :=
  ∃ validations, Tag.validations field.tag = .ok validations ∧
    List.Forall₂ (fun v r => checkValidation scope owner field v = .ok r) validations rules

/-- The field with its rules. -/
def AnnotatesField (scope : Scope) (owner : Declaration) (field annotated : Field) : Prop :=
  ∃ rules, RulesOf scope owner field rules ∧ annotated = { field with rules }

/-- The declaration with the rules of its fields. -/
def Annotates (scope : Scope) (owner annotated : Declaration) : Prop :=
  ∃ fields, List.Forall₂ (AnnotatesField scope owner) owner.fields fields ∧
    annotated = { owner with fields, hasValidations := fields.any (·.rules ≠ []) }

theorem readTag_eq_ok_iff {read : Field × List Validation} :
    readTag owner field = .ok read ↔
      read.1 = field ∧ Tag.validations field.tag = .ok read.2 := by
  obtain ⟨f, validations⟩ := read
  unfold readTag
  split
  case h_1 fault h => simp [h]
  case h_2 vs h => simp [h, eq_comm (a := field)]

theorem attachRules_eq_ok_iff {validations : List Validation} {annotated : Field} :
    attachRules scope owner field validations = .ok annotated ↔
      ∃ rules,
        List.Forall₂ (fun v r => checkValidation scope owner field v = .ok r) validations rules ∧
          annotated = { field with rules } := by
  simp only [← mapM_eq_ok_iff]
  unfold attachRules
  split
  case h_1 fault h => simp [h]
  case h_2 rules h => simp [h, eq_comm (a := annotated)]

/-- Reading the tag of a field and then checking what it states. -/
theorem readTag_attachRules_iff {annotated : Field} :
    (∃ read : Field × List Validation, readTag owner field = .ok read ∧
        attachRules scope owner read.1 read.2 = .ok annotated) ↔
      AnnotatesField scope owner field annotated := by
  simp only [readTag_eq_ok_iff, attachRules_eq_ok_iff]
  constructor
  · rintro ⟨⟨_, validations⟩, ⟨rfl, hread⟩, rules, hrules, rfl⟩
    exact ⟨rules, ⟨validations, hread, hrules⟩, rfl⟩
  · rintro ⟨rules, ⟨validations, hread, hrules⟩, rfl⟩
    exact ⟨(field, validations), ⟨rfl, hread⟩, rules, hrules, rfl⟩

/-- Both passes over one declaration. -/
theorem readTags_annotate_iff {annotated : Declaration} :
    (∃ read : Declaration × List (Field × List Validation), readTags owner = .ok read ∧
        annotate scope read.1 read.2 = .ok annotated) ↔
      Annotates scope owner annotated := by
  simp only [readTags, annotate, map_eq_ok_iff, mapM_eq_ok_iff]
  constructor
  · rintro ⟨_, ⟨reads, hreads, rfl⟩, fields, hfields, rfl⟩
    refine ⟨fields, ?_, rfl⟩
    refine (exists_forall₂_and_iff.1 ⟨reads, hreads, hfields⟩).imp ?_
    exact fun _ _ => readTag_attachRules_iff.1
  · rintro ⟨fields, hfields, rfl⟩
    obtain ⟨reads, hreads, hattach⟩ := exists_forall₂_and_iff.2
      (hfields.imp fun _ _ => readTag_attachRules_iff.2)
    exact ⟨_, ⟨reads, hreads, rfl⟩, fields, hattach, rfl⟩

/-- Both passes over all declarations, one after the other. -/
theorem exists_mapM_readTags_iff {types analyzed : List Declaration} :
    (∃ read, types.mapM readTags = .ok read ∧
        (read.mapM fun (owner, fields) => annotate scope owner fields) = .ok analyzed) ↔
      List.Forall₂ (Annotates scope) types analyzed := by
  simp only [mapM_eq_ok_iff, exists_forall₂_and_iff, readTags_annotate_iff]

end FieldRules.Analysis

namespace FieldRules

open Analysis

/-- **The analysis** succeeds exactly if the declarations have a scope and every declaration can be
annotated in it, each by itself. -/
theorem analyze_eq_ok_iff {types analyzed : List Declaration} :
    analyze types = .ok analyzed ↔
      ∃ scope, Scope.build types = .ok scope ∧
        List.Forall₂ (Annotates scope) types analyzed := by
  unfold analyze
  cases hscope : Scope.build types with
  | error fault => simp
  | ok scope =>
    simp only [Except.ok.injEq, exists_eq_left', ← exists_mapM_readTags_iff]
    cases types.mapM readTags <;> simp

/-- The scope is that of the declarations themselves, and it is there if no key is repeated. -/
theorem analyze_eq_ok_iff_annotates {types analyzed : List Declaration} :
    analyze types = .ok analyzed ↔ (types.map Declaration.key).Nodup ∧
      List.Forall₂ (Annotates (Scope.of types)) types analyzed := by
  rw [analyze_eq_ok_iff]
  simp only [Scope.build_eq_ok_iff]
  constructor
  · rintro ⟨_, ⟨hkeys, rfl⟩, hall⟩
    exact ⟨hkeys, hall⟩
  · rintro ⟨hkeys, hall⟩
    exact ⟨_, ⟨hkeys, rfl⟩, hall⟩

/-- So the analysis succeeds exactly if no key is repeated and each declaration can be annotated. -/
theorem exists_analyze_eq_ok_iff {types : List Declaration} :
    (∃ analyzed, analyze types = .ok analyzed) ↔ (types.map Declaration.key).Nodup ∧
      ∀ d ∈ types, ∃ annotated, Annotates (Scope.of types) d annotated := by
  simp only [analyze_eq_ok_iff_annotates, exists_and_left, exists_forall₂_iff]

end FieldRules
