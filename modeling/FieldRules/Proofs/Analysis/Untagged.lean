import FieldRules.Proofs.Analysis.WellFormed

/-!
# What declarations see of each other

A declaration refers to others by their names and packages, and a path goes on through the names and
types of their fields. What the fields are annotated with plays no part. `Declaration.untagged` is
what is left without it; declarations that agree in that much give references and paths the same
meaning (`Denotes.of_forall₂`, `LeadsTo.of_untagged`). So a declaration gets the same rules among
either of them, whatever the tags of the others are (`annotates_congr_untagged`).
-/

namespace FieldRules

/-! ### Without tags -/

/-- The field without its tag, and without the rules that the tag states. -/
def Field.untagged (field : Field) : Field :=
  { field with tag := "", rules := [] }

/-- The declaration without the tags of its fields. -/
def Declaration.untagged (d : Declaration) : Declaration :=
  { d with fields := d.fields.map Field.untagged, hasValidations := false }

variable {types types' : List Declaration} {d d' : Declaration}

theorem Field.fieldType_eq_of_untagged {f f' : Field} (h : f.untagged = f'.untagged) :
    f.fieldType = f'.fieldType :=
  (congrArg Field.fieldType h : f.untagged.fieldType = f'.untagged.fieldType)

theorem Declaration.key_eq_of_untagged (h : d.untagged = d'.untagged) : d.key = d'.key :=
  (congrArg Declaration.key h : d.untagged.key = d'.untagged.key)

theorem Declaration.package_eq_of_untagged (h : d.untagged = d'.untagged) :
    d.package = d'.package :=
  (congrArg Declaration.package h : d.untagged.package = d'.untagged.package)

theorem Declaration.field?_untagged (d : Declaration) (name : String) :
    d.untagged.field? name = (d.field? name).map Field.untagged := by
  simp [field?, untagged, List.find?_map, Function.comp_def, Field.untagged]

/-- Declarations that are the same without their tags are so one by one. -/
theorem map_untagged_eq_iff :
    types.map Declaration.untagged = types'.map Declaration.untagged ↔
      List.Forall₂ (fun d d' => d.untagged = d'.untagged) types types' := by
  rw [← List.forall₂_eq_eq_eq, List.forall₂_map_left_iff, List.forall₂_map_right_iff]

/-! ### References and paths -/

/-- The first field of a name is there without its tag, too. -/
theorem FirstNamed.of_untagged (hd : d.untagged = d'.untagged) {name : String} {field : Field}
    (h : FirstNamed d name field) :
    ∃ field', FirstNamed d' name field' ∧ field.untagged = field'.untagged := by
  have hfield := Declaration.field?_untagged d name
  rw [Declaration.field?_eq_some_iff.2 h, hd, Declaration.field?_untagged] at hfield
  obtain ⟨field', hfield', heq⟩ := Option.map_eq_some_iff.1 hfield
  exact ⟨field', Declaration.field?_eq_some_iff.1 hfield', heq.symm⟩

/-- What a reference means has the same place among declarations with the same keys. -/
theorem Denotes.of_forall₂ {R : Declaration → Declaration → Prop}
    (h : List.Forall₂ R types types') (hkey : ∀ d d', R d d' → d.key = d'.key)
    {fromPackage reference : String} (hd : Denotes types fromPackage reference d) :
    ∃ d', Denotes types' fromPackage reference d' ∧ R d d' := by
  have hkeys : types.map Declaration.key = types'.map Declaration.key :=
    map_eq_map_of_forall₂ h hkey
  obtain ⟨i, hi, hd⟩ := Option.bind_eq_some_iff.1 hd
  obtain ⟨d', hd', hR⟩ := exists_getElem?_of_forall₂ h hd
  refine ⟨d', Option.bind_eq_some_iff.2 ⟨i, ?_, hd'⟩, hR⟩
  rwa [Scope.of, ← hkeys]

/-- A path leads through declarations with other tags to the same field. -/
theorem LeadsTo.of_untagged
    (h : types.map Declaration.untagged = types'.map Declaration.untagged) {path : List String}
    {target : Field} (hpath : LeadsTo types d path target) (hd : d.untagged = d'.untagged) :
    ∃ target', LeadsTo types' d' path target' ∧ target.untagged = target'.untagged := by
  induction hpath generalizing d' with
  | last hfirst =>
    obtain ⟨target', htarget', heq⟩ := hfirst.of_untagged hd
    exact ⟨target', .last htarget', heq⟩
  | hop hfirst hcategory hshape hoptional hnext _ ih =>
    obtain ⟨field', hfield', heq⟩ := hfirst.of_untagged hd
    obtain ⟨next', hnext', hnext⟩ :=
      hnext.of_forall₂ (map_untagged_eq_iff.1 h) fun _ _ => Declaration.key_eq_of_untagged
    obtain ⟨target', hrest, htarget⟩ := ih hnext
    rw [Field.fieldType_eq_of_untagged heq] at hcategory hshape hoptional hnext'
    rw [Declaration.package_eq_of_untagged hd] at hnext'
    exact ⟨target', .hop hfield' hcategory hshape hoptional hnext' hrest, htarget⟩

namespace Analysis

variable {owner : Declaration} {field : Field} {v : Validation}

/-- A comparison finds the same peer. -/
theorem resolvePeer_of_untagged
    (h : types.map Declaration.untagged = types'.map Declaration.untagged) {site : Site}
    {type : FieldType} {peer : Peer} (hpeer : resolvePeer (Scope.of types) site type v = .ok peer) :
    resolvePeer (Scope.of types') site type v = .ok peer := by
  obtain ⟨target, hfind, hcomparable, hlegal, hbare, rfl⟩ := resolvePeer_eq_ok_iff.1 hpeer
  obtain ⟨target', hpath, heq⟩ := (findPeer_eq_ok_iff.1 hfind).of_untagged h rfl
  have htype := Field.fieldType_eq_of_untagged heq
  rw [htype] at hcomparable hbare ⊢
  exact resolvePeer_eq_ok_iff.2
    ⟨target', findPeer_eq_ok_iff.2 hpath, hcomparable, hlegal, hbare, rfl⟩

theorem Accepted.of_untagged
    (h : types.map Declaration.untagged = types'.map Declaration.untagged) {found : Option Peer}
    (haccepted : Accepted (Scope.of types) owner field v found) :
    Accepted (Scope.of types') owner field v found := by
  cases haccepted with
  | nested hprim hop hshape => exact .nested hprim hop hshape
  | compared hprim hcmp hpeer => exact .compared hprim hcmp (resolvePeer_of_untagged h hpeer)
  | checked hprim hcmp hlegal hread => exact .checked hprim hcmp hlegal hread

theorem Annotates.of_untagged
    (h : types.map Declaration.untagged = types'.map Declaration.untagged) {annotated : Declaration}
    (hannotates : Annotates (Scope.of types) owner annotated) :
    Annotates (Scope.of types') owner annotated := by
  obtain ⟨fields, hfields, rfl⟩ := hannotates
  refine ⟨fields, hfields.imp ?_, rfl⟩
  rintro field annotated ⟨rules, ⟨vs, hvs, hrules⟩, rfl⟩
  refine ⟨rules, ⟨vs, hvs, hrules.imp fun v rule hrule => ?_⟩, rfl⟩
  obtain ⟨hv, haccepted⟩ := checkValidation_eq_ok_iff.1 hrule
  exact checkValidation_eq_ok_iff.2 ⟨hv, haccepted.of_untagged h⟩

/-- **What a declaration is annotated with does not depend on the tags of others.** -/
theorem annotates_congr_untagged
    (h : types.map Declaration.untagged = types'.map Declaration.untagged) :
    Annotates (Scope.of types) = Annotates (Scope.of types') := by
  funext owner annotated
  exact propext ⟨.of_untagged h, .of_untagged h.symm⟩

/-- Annotating a declaration changes nothing but what its tags state. -/
theorem Annotates.untagged_eq {scope : Scope} {annotated : Declaration}
    (h : Annotates scope owner annotated) : owner.untagged = annotated.untagged := by
  obtain ⟨fields, hfields, rfl⟩ := h
  have hsame : owner.fields.map Field.untagged = fields.map Field.untagged := by
    refine map_eq_map_of_forall₂ hfields ?_
    rintro field annotated ⟨rules, -, rfl⟩
    rfl
  simp [Declaration.untagged, hsame]

end Analysis

end FieldRules
