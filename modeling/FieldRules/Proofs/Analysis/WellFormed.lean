import FieldRules.Proofs.Analysis.Rules
import FieldRules.Proofs.Tag.Arity

/-!
# Well-formed declarations

What declarations have to be for the analysis to accept them, said without the analysis: no type is
declared twice, every tag can be read, and every entry is permitted on its field. An entry that
compares fields is permitted if its target leads somewhere: `LeadsTo` is the relation between a
declaration, a path of names and the field at the end of the path. It goes from declaration to
declaration as the path does, and each type on the way is looked up in the package of the
declaration that the path has reached. Nothing is said about the length of a path, and the
declarations may refer to each other in circles.

The main statement is `exists_analyze_eq_ok_iff_wellFormed`: the analysis accepts exactly the
well-formed sets of declarations.
-/

namespace FieldRules

/-! ### Paths through declarations -/

/-- The first field of that name. -/
def FirstNamed (d : Declaration) (name : String) (field : Field) : Prop :=
  ∃ before after, d.fields = before ++ field :: after ∧ field.name = name ∧
    ∀ f ∈ before, f.name ≠ name

/-- A type reference that is written in a package means the declaration. -/
def Denotes (types : List Declaration) (fromPackage reference : String) (d : Declaration) : Prop :=
  (Scope.of types).find? fromPackage reference = some d

/-- The names lead from a declaration to a field. -/
inductive LeadsTo (types : List Declaration) : Declaration → List String → Field → Prop where
  /-- The last name is a field of the declaration that the path has reached. -/
  | last {d : Declaration} {name : String} {target : Field} :
      FirstNamed d name target → LeadsTo types d [name] target
  /-- Any name before is a field of a declared type, neither in a container nor optional. -/
  | hop {d next : Declaration} {name : String} {field target : Field} {rest : List String} :
      FirstNamed d name field → field.fieldType.category = .other →
      field.fieldType.shape = .plain → field.fieldType.optional = false →
      Denotes types d.package field.fieldType.base next →
      LeadsTo types next rest target → LeadsTo types d (name :: rest) target

/-! ### Permitted entries -/

/-- Values of the two types can be compared: they are of one category, and integers have either the
same type or a common one. -/
structure ComparesWith (source target : FieldType) : Prop where
  category : target.category = source.category
  common : source.category = .integer →
    Text.trimmed source.base = Text.trimmed target.base ∨
      ∃ w, Widening.commonInteger source.base target.base = some w

/-- The entry of a tag is permitted on the field. -/
inductive Permitted (types : List Declaration) (owner : Declaration) (field : Field)
    (v : Validation) : Prop where
  /-- A field of a declared type understands `required`, outside containers. -/
  | nested : field.fieldType.category = .other → v.operation = .required →
      field.fieldType.shape = .plain → Permitted types owner field v
  /-- An operation on a primitive field is legal for it and can read its targets. -/
  | checked : field.fieldType.category ≠ .other → v.operation.comparesFields = false →
      v.operation.isLegalForType field.fieldType = true →
      (∀ value ∈ v.values, Analysis.Readable v.operation field.fieldType value) →
      Permitted types owner field v
  /-- A comparison of a primitive field leads to a bare field with which it compares. -/
  | compared {target : Field} : field.fieldType.category ≠ .other →
      v.operation.comparesFields = true → v.operation.isLegalForType field.fieldType = true →
      LeadsTo types owner (Analysis.peerPath (Analysis.peerReference v)) target →
      ComparesWith field.fieldType target.fieldType → target.fieldType.shape = .plain →
      target.fieldType.optional = false → Permitted types owner field v

/-- Declarations that the analysis accepts. -/
structure WellFormed (types : List Declaration) : Prop where
  /-- No two declarations have the same name and the same package. -/
  distinct : types.Pairwise fun d e =>
    ¬(d.name = e.name ∧ packageKey d.package = packageKey e.package)
  /-- Every tag can be split, and every entry can be read. -/
  readable : ∀ d ∈ types, ∀ field ∈ d.fields, ∃ es, Tag.entries field.tag = .ok es ∧
    ∀ e ∈ es, ∃ v, Validation.ofEntry e = .ok v
  /-- Every entry is permitted. -/
  permitted : ∀ d ∈ types, ∀ field ∈ d.fields, ∀ es, Tag.entries field.tag = .ok es →
    ∀ e ∈ es, ∀ v, Validation.ofEntry e = .ok v → Permitted types d field v

/-! ### Following a path -/

theorem Declaration.field?_eq_some_iff {d : Declaration} {name : String} {field : Field} :
    d.field? name = some field ↔ FirstNamed d name field := by
  rw [Declaration.field?, List.find?_eq_some_iff_append, FirstNamed]
  constructor
  · rintro ⟨hname, before, after, hfields, hbefore⟩
    exact ⟨before, after, hfields, by simpa using hname, fun f hf => by simpa using hbefore f hf⟩
  · rintro ⟨before, after, hfields, hname, hbefore⟩
    exact ⟨by simpa using hname, before, after, hfields, fun f hf => by simpa using hbefore f hf⟩

/-- A path has at least one name. -/
theorem LeadsTo.ne_nil {types : List Declaration} {d : Declaration} {path : List String}
    {target : Field} (h : LeadsTo types d path target) : path ≠ [] := by
  cases h <;> simp

theorem FieldType.isPrimitive_eq_false_iff {type : FieldType} :
    type.isPrimitive = false ↔ type.category = .other := by
  simp [FieldType.isPrimitive]

theorem FieldType.isPrimitive_iff {type : FieldType} :
    type.isPrimitive = true ↔ type.category ≠ .other := by
  simp [FieldType.isPrimitive]

theorem FieldType.isBare_iff {type : FieldType} :
    type.isBare = true ↔ type.shape = .plain ∧ type.optional = false := by
  simp [FieldType.isBare]

namespace Analysis

/-- A path can enter a field of a declared type, neither in a container nor optional. -/
theorem enterField_eq_ok_iff {scope : Scope} {site : Site} {reference : String}
    {d next : Declaration} {field : Field} :
    enterField scope site reference d field = .ok next ↔
      field.fieldType.category = .other ∧ field.fieldType.shape = .plain ∧
        field.fieldType.optional = false ∧
        scope.find? d.package field.fieldType.base = some next := by
  unfold enterField
  constructor
  · intro h
    split_ifs at h with hprim hbare
    split at h
    case h_1 => cases h
    case h_2 hnext =>
      cases h
      obtain ⟨hshape, hoptional⟩ := FieldType.isBare_iff.1 (by simpa using hbare)
      exact ⟨FieldType.isPrimitive_eq_false_iff.1 (by simpa using hprim), hshape, hoptional, hnext⟩
  · rintro ⟨hcategory, hshape, hoptional, hnext⟩
    have hprim := FieldType.isPrimitive_eq_false_iff.2 hcategory
    have hbare := FieldType.isBare_iff.2 ⟨hshape, hoptional⟩
    simp [hprim, hbare, hnext]

/-- Following a path finds the field that the path leads to, whatever is reported otherwise. -/
theorem followPath_eq_ok_iff {types : List Declaration} {site : Site} {reference : String}
    {undefined : Bool → SemanticError} {nested : Bool} {d : Declaration} {path : List String}
    {target : Field} :
    followPath (enterField (Scope.of types) site reference) undefined nested d path = .ok target ↔
      LeadsTo types d path target := by
  induction path generalizing d nested with
  | nil =>
    constructor
    · intro h
      cases h
    · intro h
      exact absurd rfl h.ne_nil
  | cons name rest ih =>
    rw [followPath]
    constructor
    · intro h
      split at h
      case h_1 => cases h
      case h_2 field hfield =>
        have hfirst := Declaration.field?_eq_some_iff.1 hfield
        split_ifs at h with hrest
        · cases h
          exact hrest ▸ .last hfirst
        · split at h
          case h_1 => cases h
          case h_2 next hnext =>
            obtain ⟨hcategory, hshape, hoptional, hnext⟩ := enterField_eq_ok_iff.1 hnext
            exact .hop hfirst hcategory hshape hoptional hnext (ih.1 h)
    · intro h
      cases h with
      | last hfirst => simp [Declaration.field?_eq_some_iff.2 hfirst]
      | hop hfirst hcategory hshape hoptional hnext hrest =>
        have henter : enterField (Scope.of types) site reference d _ = .ok _ :=
          enterField_eq_ok_iff.2 ⟨hcategory, hshape, hoptional, hnext⟩
        simp only [Declaration.field?_eq_some_iff.2 hfirst, if_neg hrest.ne_nil, henter]
        exact ih.2 hrest

/-- A reference means the field that its path leads to. -/
theorem findPeer_eq_ok_iff {types : List Declaration} {site : Site} {reference : String}
    {target : Field} :
    findPeer (Scope.of types) site reference = .ok target ↔
      LeadsTo types site.owner (peerPath reference) target := by
  rw [findPeer, followPath_eq_ok_iff]

theorem comparable_iff {source target : FieldType} :
    comparable source target = true ↔ ComparesWith source target := by
  have hcommon : (Widening.commonInteger source.base target.base).isSome = true ↔
      ∃ w, Widening.commonInteger source.base target.base = some w := Option.isSome_iff_exists
  simp only [comparable, Bool.and_eq_true, Bool.or_eq_true, beq_iff_eq, bne_iff_ne, hcommon]
  constructor
  · rintro ⟨hcategory, (hinteger | hbase) | hwiden⟩
    · exact ⟨hcategory.symm, fun h => absurd h hinteger⟩
    · exact ⟨hcategory.symm, fun _ => .inl hbase⟩
    · exact ⟨hcategory.symm, fun _ => .inr hwiden⟩
  · rintro ⟨hcategory, h⟩
    refine ⟨hcategory.symm, ?_⟩
    by_cases hinteger : source.category = .integer
    · rcases h hinteger with hbase | hwiden
      · exact .inl (.inr hbase)
      · exact .inr hwiden
    · exact .inl (.inl hinteger)

/-- A validation is accepted exactly if it is permitted. -/
theorem exists_accepted_iff {types : List Declaration} {owner : Declaration} {field : Field}
    {v : Validation} :
    (∃ peer, Accepted (Scope.of types) owner field v peer) ↔ Permitted types owner field v := by
  constructor
  · rintro ⟨peer, h⟩
    cases h with
    | nested hprim hop hshape =>
      exact .nested (FieldType.isPrimitive_eq_false_iff.1 hprim) hop hshape
    | checked hprim hcmp hlegal hread =>
      exact .checked (FieldType.isPrimitive_iff.1 hprim) hcmp hlegal hread
    | compared hprim hcmp hpeer =>
      obtain ⟨target, hpath, hcomparable, hlegal, hbare, -⟩ := resolvePeer_eq_ok_iff.1 hpeer
      obtain ⟨hshape, hoptional⟩ := FieldType.isBare_iff.1 hbare
      exact .compared (FieldType.isPrimitive_iff.1 hprim) hcmp hlegal
        (findPeer_eq_ok_iff.1 hpath) (comparable_iff.1 hcomparable) hshape hoptional
  · intro h
    cases h with
    | nested hcategory hop hshape =>
      exact ⟨none, .nested (FieldType.isPrimitive_eq_false_iff.2 hcategory) hop hshape⟩
    | checked hcategory hcmp hlegal hread =>
      exact ⟨none, .checked (FieldType.isPrimitive_iff.2 hcategory) hcmp hlegal hread⟩
    | @compared target hcategory hcmp hlegal hpath hcompares hshape hoptional =>
      refine ⟨some ⟨peerPath (peerReference v), target.fieldType⟩, ?_⟩
      refine .compared (FieldType.isPrimitive_iff.2 hcategory) hcmp ?_
      exact resolvePeer_eq_ok_iff.2 ⟨target, findPeer_eq_ok_iff.2 hpath,
        comparable_iff.2 hcompares, hlegal, FieldType.isBare_iff.2 ⟨hshape, hoptional⟩, rfl⟩

/-- A validation makes a rule exactly if it is permitted. -/
theorem exists_checkValidation_eq_ok_iff {types : List Declaration} {owner : Declaration}
    {field : Field} {v : Validation} :
    (∃ rule, checkValidation (Scope.of types) owner field v = .ok rule) ↔
      Permitted types owner field v := by
  rw [← exists_accepted_iff]
  constructor
  · rintro ⟨rule, h⟩
    exact ⟨_, (checkValidation_eq_ok_iff.1 h).2⟩
  · rintro ⟨peer, h⟩
    exact ⟨⟨v, peer⟩, checkValidation_eq_ok_iff.2 ⟨rfl, h⟩⟩

/-! ### Well-formed declarations are accepted -/

/-- A field has rules exactly if its tag can be read and all entries are permitted. -/
theorem exists_annotatesField_iff {types : List Declaration} {owner : Declaration} {field : Field} :
    (∃ annotated, AnnotatesField (Scope.of types) owner field annotated) ↔
      (∃ es, Tag.entries field.tag = .ok es ∧ ∀ e ∈ es, ∃ v, Validation.ofEntry e = .ok v) ∧
        ∀ es, Tag.entries field.tag = .ok es →
          ∀ e ∈ es, ∀ v, Validation.ofEntry e = .ok v → Permitted types owner field v := by
  constructor
  · rintro ⟨_, rules, ⟨vs, hvs, hrules⟩, -⟩
    obtain ⟨es, hes, hread⟩ := Tag.validations_eq_ok_iff.1 hvs
    refine ⟨⟨es, hes, exists_forall₂_iff.1 ⟨vs, hread⟩⟩, fun es' hes' e he v hv => ?_⟩
    cases hes.symm.trans hes'
    have heach := exists_forall₂_iff.1 ⟨rules, exists_forall₂_and_iff.1 ⟨vs, hread, hrules⟩⟩
    obtain ⟨rule, v', hv', hrule⟩ := heach e he
    cases hv.symm.trans hv'
    exact exists_checkValidation_eq_ok_iff.1 ⟨rule, hrule⟩
  · rintro ⟨⟨es, hes, hread⟩, hpermitted⟩
    have heach : ∀ e ∈ es, ∃ rule, ∃ v, Validation.ofEntry e = .ok v ∧
        checkValidation (Scope.of types) owner field v = .ok rule := by
      intro e he
      obtain ⟨v, hv⟩ := hread e he
      obtain ⟨rule, hrule⟩ := exists_checkValidation_eq_ok_iff.2 (hpermitted es hes e he v hv)
      exact ⟨rule, v, hv, hrule⟩
    obtain ⟨rules, hrules⟩ := exists_forall₂_iff.2 heach
    obtain ⟨vs, hvs, hrules⟩ := exists_forall₂_and_iff.2 hrules
    exact ⟨_, rules, ⟨vs, Tag.validations_eq_ok_iff.2 ⟨es, hes, hvs⟩, hrules⟩, rfl⟩

/-- A declaration can be annotated exactly if all its fields can. -/
theorem exists_annotates_iff {scope : Scope} {owner : Declaration} :
    (∃ annotated, Annotates scope owner annotated) ↔
      ∀ field ∈ owner.fields, ∃ annotated, AnnotatesField scope owner field annotated := by
  rw [← exists_forall₂_iff]
  constructor
  · rintro ⟨_, fields, hfields, -⟩
    exact ⟨fields, hfields⟩
  · rintro ⟨fields, hfields⟩
    exact ⟨_, fields, hfields, rfl⟩

end Analysis

/-- No two declarations have the same key exactly if no two have the same name and package. -/
theorem nodup_keys_iff {types : List Declaration} :
    (types.map Declaration.key).Nodup ↔ types.Pairwise fun d e =>
      ¬(d.name = e.name ∧ packageKey d.package = packageKey e.package) := by
  rw [List.Nodup, List.pairwise_map]
  simp only [ne_eq, Declaration.key, Prod.mk.injEq, and_comm]

/-- **The analysis accepts exactly the well-formed sets of declarations.** -/
theorem exists_analyze_eq_ok_iff_wellFormed (types : List Declaration) :
    (∃ analyzed, analyze types = .ok analyzed) ↔ WellFormed types := by
  simp only [analyze_eq_ok_iff, Scope.build_eq_ok_iff]
  constructor
  · rintro ⟨analyzed, _, ⟨hkeys, rfl⟩, hall⟩
    have hfields : ∀ d ∈ types, ∀ field ∈ d.fields,
        ∃ annotated, Analysis.AnnotatesField (Scope.of types) d field annotated := fun d hd =>
      Analysis.exists_annotates_iff.1 (exists_forall₂_iff.1 ⟨analyzed, hall⟩ d hd)
    exact {
      distinct := nodup_keys_iff.1 hkeys
      readable := fun d hd field hfield =>
        (Analysis.exists_annotatesField_iff.1 (hfields d hd field hfield)).1
      permitted := fun d hd field hfield =>
        (Analysis.exists_annotatesField_iff.1 (hfields d hd field hfield)).2 }
  · rintro ⟨hdistinct, hread, hpermitted⟩
    have heach : ∀ d ∈ types, ∃ annotated, Analysis.Annotates (Scope.of types) d annotated := by
      intro d hd
      refine Analysis.exists_annotates_iff.2 fun field hfield => ?_
      exact Analysis.exists_annotatesField_iff.2
        ⟨hread d hd field hfield, hpermitted d hd field hfield⟩
    obtain ⟨analyzed, hall⟩ := exists_forall₂_iff.2 heach
    exact ⟨analyzed, _, ⟨nodup_keys_iff.2 hdistinct, rfl⟩, hall⟩

end FieldRules
