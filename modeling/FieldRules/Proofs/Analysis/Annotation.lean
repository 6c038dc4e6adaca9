import FieldRules.Proofs.Analysis.Rules
import FieldRules.Proofs.Tag.Arity
import FieldRules.Proofs.Tag.Pieces

/-!
# The analysis annotates

The analysis attaches rules to declarations and changes nothing else about them. `AnnotationOf` says
what becomes of a declaration: its rules are what the entries of its tags state, one by one and in
their order, and it has validations exactly if a tag has an entry that is not blank.

Rules that declarations come with are overwritten and never looked at. `unannotated` takes them off,
and `analyze_unannotated` says that the outcome of the analysis is the same without them, whether it
succeeds or fails. So a second analysis returns what the first one did.
-/

namespace FieldRules

/-! ### Without annotations -/

/-- The field without its rules. -/
def Field.unannotated (field : Field) : Field :=
  { field with rules := [] }

/-- The declaration without the rules of its fields. -/
def Declaration.unannotated (d : Declaration) : Declaration :=
  { d with fields := d.fields.map Field.unannotated, hasValidations := false }

theorem Declaration.field?_unannotated (d : Declaration) (name : String) :
    d.unannotated.field? name = (d.field? name).map Field.unannotated := by
  simp [field?, unannotated, List.find?_map, Function.comp_def, Field.unannotated]

theorem map_key_unannotated (types : List Declaration) :
    (types.map Declaration.unannotated).map Declaration.key = types.map Declaration.key := by
  simp [Declaration.key, Declaration.unannotated]

/-- The scope of declarations without their annotations. -/
def Scope.unannotated (scope : Scope) : Scope :=
  { scope with types := scope.types.map Declaration.unannotated }

theorem Scope.find?_unannotated (scope : Scope) (fromPackage reference : String) :
    scope.unannotated.find? fromPackage reference =
      (scope.find? fromPackage reference).map Declaration.unannotated := by
  simp only [find?, unannotated]
  cases scope.index.resolve fromPackage reference <;> simp

theorem TypeIndex.firstRepeated_unannotated (seen : List (String × String))
    (types : List Declaration) :
    firstRepeated seen (types.map Declaration.unannotated) =
      (firstRepeated seen types).map Declaration.unannotated := by
  induction types generalizing seen with
  | nil => rfl
  | cons d ds ih =>
    have hkey : d.unannotated.key = d.key := rfl
    rw [List.map_cons, firstRepeated, firstRepeated, hkey, ih]
    split <;> rfl

/-- The declarations have a scope without their annotations exactly if they have one with them. -/
theorem Scope.build_unannotated (types : List Declaration) :
    Scope.build (types.map Declaration.unannotated) = (Scope.build types).map Scope.unannotated := by
  rw [build, build, TypeIndex.build, TypeIndex.build, TypeIndex.firstRepeated_unannotated,
    map_key_unannotated]
  cases TypeIndex.firstRepeated [] types <;> rfl

namespace Analysis

/-! ### Annotations are not looked at -/

/-- The validation that a fault is about, without annotations around it. -/
def Site.unannotated (site : Site) : Site :=
  ⟨site.owner.unannotated, site.field.unannotated, site.operation⟩

variable (scope : Scope) (site : Site) (owner : Declaration) (field : Field)

theorem enterField_unannotated (reference : String) (current : Declaration) (found : Field) :
    enterField scope.unannotated site.unannotated reference current.unannotated
        found.unannotated =
      (enterField scope site reference current found).map Declaration.unannotated := by
  have htype : found.unannotated.fieldType = found.fieldType := rfl
  have hpackage : current.unannotated.package = current.package := rfl
  unfold enterField
  rw [htype, hpackage, Scope.find?_unannotated]
  split_ifs
  · rfl
  · rfl
  · cases scope.find? current.package found.fieldType.base <;> rfl

/-- A path leads to the same field, or stops with the same fault. -/
theorem followPath_unannotated (reference : String) (nested : Bool) (d : Declaration)
    (path : List String) :
    followPath (enterField scope.unannotated site.unannotated reference)
        (site.unannotated.undefined reference) nested d.unannotated path =
      (followPath (enterField scope site reference) (site.undefined reference) nested d path).map
        Field.unannotated := by
  induction path generalizing nested d with
  | nil => rfl
  | cons name rest ih =>
    rw [followPath, followPath, Declaration.field?_unannotated]
    cases d.field? name with
    | none => rfl
    | some found =>
      dsimp only [Option.map_some]
      split_ifs
      · rfl
      · rw [enterField_unannotated]
        cases enterField scope site reference d found with
        | error fault => rfl
        | ok next => exact ih true next

/-- So a comparison has the same peer, or the same fault. -/
theorem resolvePeer_unannotated (type : FieldType) (v : Validation) :
    resolvePeer scope.unannotated site.unannotated type v = resolvePeer scope site type v := by
  have hfind : findPeer scope.unannotated site.unannotated (peerReference v) =
      (findPeer scope site (peerReference v)).map Field.unannotated :=
    followPath_unannotated scope site _ _ _ _
  unfold resolvePeer
  simp only [hfind]
  cases findPeer scope site (peerReference v) <;> rfl

/-- A validation makes the same rule, or has the same fault. -/
theorem checkValidation_unannotated (v : Validation) :
    checkValidation scope.unannotated owner.unannotated field.unannotated v =
      checkValidation scope owner field v := by
  have hpeer := resolvePeer_unannotated scope ⟨owner, field, v.operation⟩ field.fieldType v
  unfold Site.unannotated at hpeer
  have htype : field.unannotated.fieldType = field.fieldType := rfl
  unfold checkValidation
  simp only [htype, hpeer]
  rfl

/-! ### The passes -/

/-- What a tag states is attached to the field in place of the rules that it has. -/
theorem attachRules_unannotated (validations : List Validation) :
    attachRules scope.unannotated owner.unannotated field.unannotated validations =
      attachRules scope owner field validations := by
  have hcheck : checkValidation scope.unannotated owner.unannotated field.unannotated =
      checkValidation scope owner field := funext (checkValidation_unannotated scope owner field)
  unfold attachRules
  rw [hcheck]
  rfl

/-- The tags of a declaration, read without its annotations. -/
def unannotatedTags (read : Declaration × List (Field × List Validation)) :
    Declaration × List (Field × List Validation) :=
  (read.1.unannotated, read.2.map fun (field, validations) => (field.unannotated, validations))

theorem readTags_unannotated : readTags owner.unannotated = (readTags owner).map unannotatedTags := by
  have hfield : ∀ field, readTag owner.unannotated field.unannotated =
      (readTag owner field).map fun (field, validations) => (field.unannotated, validations) := by
    intro field
    have htag : field.unannotated.tag = field.tag := rfl
    unfold readTag
    rw [htag]
    cases Tag.validations field.tag <;> rfl
  have hfields : owner.unannotated.fields.mapM (readTag owner.unannotated) =
      (owner.fields.mapM (readTag owner)).map
        (List.map fun (field, validations) => (field.unannotated, validations)) := by
    rw [← mapM_map_eq_map_mapM]
    exact List.mapM_map.trans (congrArg (owner.fields.mapM ·) (funext hfield))
  rw [readTags, readTags, hfields]
  cases owner.fields.mapM (readTag owner) <;> rfl

theorem annotate_unannotated (fields : List (Field × List Validation)) :
    annotate scope.unannotated owner.unannotated
        (fields.map fun (field, validations) => (field.unannotated, validations)) =
      annotate scope owner fields := by
  have hattach : (fun read : Field × List Validation =>
      attachRules scope.unannotated owner.unannotated read.1.unannotated read.2) =
        fun read => attachRules scope owner read.1 read.2 :=
    funext fun read => attachRules_unannotated scope owner read.1 read.2
  rw [annotate, annotate, List.mapM_map, Function.comp_def, hattach]
  rfl

end Analysis

/-- **Annotations that declarations come with do not matter**, whether the analysis succeeds or fails. -/
theorem analyze_unannotated (types : List Declaration) :
    analyze (types.map Declaration.unannotated) = analyze types := by
  have hread : (types.map Declaration.unannotated).mapM Analysis.readTags =
      (types.mapM Analysis.readTags).map (List.map Analysis.unannotatedTags) := by
    rw [← mapM_map_eq_map_mapM]
    exact List.mapM_map.trans
      (congrArg (types.mapM ·) (funext Analysis.readTags_unannotated))
  unfold analyze
  rw [Scope.build_unannotated, hread]
  cases Scope.build types with
  | error fault => rfl
  | ok scope =>
    cases types.mapM Analysis.readTags with
    | error fault => rfl
    | ok read =>
      have hannotate : (fun read : Declaration × List (Field × List Validation) =>
          Analysis.annotate scope.unannotated (Analysis.unannotatedTags read).1
            (Analysis.unannotatedTags read).2) = fun read => Analysis.annotate scope read.1 read.2 :=
        funext fun read => Analysis.annotate_unannotated scope read.1 read.2
      show (read.map Analysis.unannotatedTags).mapM (fun read =>
        Analysis.annotate scope.unannotated read.1 read.2) =
          read.mapM fun read => Analysis.annotate scope read.1 read.2
      rw [List.mapM_map, Function.comp_def, hannotate]

/-- Declarations that differ in their annotations only have the same outcome. -/
theorem analyze_congr_unannotated {types types' : List Declaration}
    (h : types'.map Declaration.unannotated = types.map Declaration.unannotated) :
    analyze types' = analyze types := by
  rw [← analyze_unannotated types', h, analyze_unannotated]

/-! ### What is attached -/

/-- The tag has an entry that is not blank. -/
def Tag.HasEntry (tag : String) : Prop :=
  ∃ pieces, Tag.piecesFrom false none tag.toList = some pieces ∧ ∃ piece ∈ pieces,
    Text.trim piece ≠ []

/-- The field with the rules that the entries of its tag state. -/
structure FieldAnnotationOf (field annotated : Field) : Prop where
  /-- The name is kept, -/
  name : annotated.name = field.name
  /-- the spelling of the type, -/
  type : annotated.type = field.type
  /-- and the tag. -/
  tag : annotated.tag = field.tag
  /-- The rules state what the entries do, one by one. -/
  rules : ∃ es, Tag.entries field.tag = .ok es ∧
    List.Forall₂ (fun e rule => Validation.ofEntry e = .ok rule.validation) es annotated.rules

/-- The declaration with the rules that its tags state. -/
structure AnnotationOf (d annotated : Declaration) : Prop where
  /-- The name is kept, -/
  name : annotated.name = d.name
  /-- the package, -/
  package : annotated.package = d.package
  /-- and the place. -/
  location : annotated.location = d.location
  /-- The fields are annotated in their order. -/
  fields : List.Forall₂ FieldAnnotationOf d.fields annotated.fields
  /-- The declaration has validations if a tag has an entry that is not blank. -/
  hasValidations : annotated.hasValidations = true ↔ ∃ field ∈ d.fields, Tag.HasEntry field.tag

theorem Tag.hasEntry_iff {tag : String} {es : List String} (h : entries tag = .ok es) :
    HasEntry tag ↔ es ≠ [] := by
  obtain ⟨pieces, hpieces, rfl⟩ := entries_eq_ok_iff.1 h
  simp [HasEntry, hpieces]

/-- A field gets rules exactly if its tag has an entry that is not blank. -/
theorem FieldAnnotationOf.rules_ne_nil_iff {field annotated : Field}
    (h : FieldAnnotationOf field annotated) : annotated.rules ≠ [] ↔ Tag.HasEntry field.tag := by
  obtain ⟨es, hes, hrules⟩ := h.rules
  rw [Tag.hasEntry_iff hes, ← List.length_pos_iff, ← List.length_pos_iff, hrules.length_eq]

theorem FieldAnnotationOf.unannotated_eq {field annotated : Field}
    (h : FieldAnnotationOf field annotated) : field.unannotated = annotated.unannotated := by
  simp [Field.unannotated, h.name, h.type, h.tag]

theorem AnnotationOf.unannotated_eq {d annotated : Declaration} (h : AnnotationOf d annotated) :
    d.unannotated = annotated.unannotated := by
  have hfields : d.fields.map Field.unannotated = annotated.fields.map Field.unannotated :=
    map_eq_map_of_forall₂ h.fields fun _ _ => FieldAnnotationOf.unannotated_eq
  simp [Declaration.unannotated, h.name, h.package, h.location, hfields]

namespace Analysis

/-- The rules of a field state what its entries do. -/
theorem AnnotatesField.annotationOf {scope : Scope} {owner : Declaration} {field annotated : Field}
    (h : AnnotatesField scope owner field annotated) : FieldAnnotationOf field annotated := by
  obtain ⟨rules, ⟨vs, hvs, hrules⟩, rfl⟩ := h
  obtain ⟨es, hes, hread⟩ := Tag.validations_eq_ok_iff.1 hvs
  refine ⟨rfl, rfl, rfl, es, hes, ?_⟩
  refine (exists_forall₂_and_iff.1 ⟨vs, hread, hrules⟩).imp ?_
  rintro e rule ⟨v, hv, hrule⟩
  rw [(checkValidation_eq_ok_iff.1 hrule).1]
  exact hv

theorem Annotates.annotationOf {scope : Scope} {d annotated : Declaration}
    (h : Annotates scope d annotated) : AnnotationOf d annotated := by
  obtain ⟨fields, hfields, rfl⟩ := h
  have hannotated : List.Forall₂ FieldAnnotationOf d.fields fields :=
    hfields.imp fun _ _ => AnnotatesField.annotationOf
  refine ⟨rfl, rfl, rfl, hannotated, ?_⟩
  rw [List.any_eq_true]
  constructor
  · rintro ⟨g, hg, hrules⟩
    obtain ⟨f, hf, hfg⟩ := forall₂_mem_right hannotated hg
    exact ⟨f, hf, hfg.rules_ne_nil_iff.1 (by simpa using hrules)⟩
  · rintro ⟨f, hf, hentry⟩
    obtain ⟨g, hg, hfg⟩ := forall₂_mem_right hannotated.flip hf
    exact ⟨g, hg, by simpa using FieldAnnotationOf.rules_ne_nil_iff hfg |>.2 hentry⟩

end Analysis

theorem annotationOf_of_analyze {types analyzed : List Declaration}
    (h : analyze types = .ok analyzed) : List.Forall₂ AnnotationOf types analyzed := by
  obtain ⟨scope, -, hall⟩ := analyze_eq_ok_iff.1 h
  exact hall.imp fun _ _ => Analysis.Annotates.annotationOf

/-- **The analysis annotates and changes nothing else, and can be repeated.** Declarations that it
accepts keep all they had and get the rules that their tags state; whatever annotations they come
with, the result is the same; and the analysis of the result returns it as it is. -/
theorem analysis_annotates {types analyzed : List Declaration} (h : analyze types = .ok analyzed) :
    List.Forall₂ AnnotationOf types analyzed ∧
    (∀ types', types'.map Declaration.unannotated = types.map Declaration.unannotated →
      analyze types' = .ok analyzed) ∧
    analyze analyzed = .ok analyzed := by
  have hannotated := annotationOf_of_analyze h
  have hsame : types.map Declaration.unannotated = analyzed.map Declaration.unannotated :=
    map_eq_map_of_forall₂ hannotated fun _ _ => AnnotationOf.unannotated_eq
  refine ⟨hannotated, fun types' htypes' => ?_, ?_⟩
  · rw [analyze_congr_unannotated htypes', h]
  · rw [analyze_congr_unannotated hsame.symm, h]

/-- A field with a stale rule and one with a blank entry, in a declaration that is marked as having
validations already. -/
def staleDeclarations : List Declaration :=
  [⟨"Account", "", some ⟨"account.rs", 3⟩,
      [⟨"name", "String", "required, , min=2", [⟨⟨.email, []⟩, none⟩]⟩], false⟩,
    ⟨"Plain", "", none, [⟨"note", "String", " , ", []⟩], true⟩]

/-- The stale rule is replaced, and the mark is taken off. -/
theorem stale_annotations_replaced :
    ∃ analyzed, analyze staleDeclarations = .ok analyzed ∧
      List.Forall₂ AnnotationOf staleDeclarations analyzed ∧
      analyzed.map (·.hasValidations) = [true, false] ∧ analyze analyzed = .ok analyzed := by
  have haccepted : ((analyze staleDeclarations).toOption.any fun analyzed =>
      analyzed.map (·.hasValidations) = [true, false]) = true := by
    decide +kernel
  obtain ⟨analyzed, hanalyzed, hmarks⟩ := exists_eq_ok_of_any haccepted
  obtain ⟨hannotated, -, hagain⟩ := analysis_annotates hanalyzed
  exact ⟨analyzed, hanalyzed, hannotated, of_decide_eq_true hmarks, hagain⟩

end FieldRules
