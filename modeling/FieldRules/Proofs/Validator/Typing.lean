import FieldRules.Proofs.Analysis.Paths
import FieldRules.Proofs.Compilation.Delegation
import FieldRules.Proofs.Condition.Typing

/-!
# Checks are well-typed

Every check of a validator is well scoped and well-typed: see `hasType_of_mem_blocks`. The fields
that it reads are those to which paths lead from the validated type through the declarations.
-/

namespace FieldRules

variable {types analyzed : List Declaration}

/-- The fields of a validated type, by the paths that lead to them. A path leads to one field. -/
def Context.of (types : List Declaration) (owner : Declaration) : Context where
  field path type := ∃ target, LeadsTo types owner path target ∧ target.fieldType = type

/-- So an optional field has no other type by which it could be read. -/
theorem Context.of_field_unique {owner : Declaration} {path : List String} {type type' : FieldType}
    (h : (Context.of types owner).field path type)
    (h' : (Context.of types owner).field path type') : type = type' := by
  obtain ⟨target, hpath, rfl⟩ := h
  obtain ⟨target', hpath', rfl⟩ := h'
  rw [hpath.unique hpath']

namespace Validator

/-- The check of a rule is the expression of its condition. -/
theorem checkBlock_eq_ok_check {field : Field} {type : FieldType} {rule : Rule} {condition : Expr}
    {name message : String}
    (h : checkBlock field type rule = .ok (some (.check condition name message))) :
    ∃ built, Condition.build field.name type rule = .ok built ∧ built.expr = .ok condition := by
  obtain ⟨built, e, hbuild, hexpr, hsome⟩ := checkBlock_eq_ok_iff.1 h
  obtain ⟨-, hblock⟩ := Option.ite_none_left_eq_some.1 hsome.symm
  cases hblock
  exact ⟨built, hbuild, hexpr⟩

/-- The checks of a field are those of its rules, or the presence of a nested value. -/
theorem check_of_fieldBlocks {scope : Scope} {owner : Declaration} {field : Field}
    {part : List Block} (h : fieldBlocks scope owner field = .ok part) {condition : Expr}
    {name message : String} (hcheck : Block.check condition name message ∈ part) :
    (field.fieldType.isPrimitive = true ∧ ∃ rule ∈ field.rules,
      checkBlock field field.fieldType rule = .ok (some (.check condition name message))) ∨
    (field.fieldType.optional = true ∧
      condition = .someAnd (.field [field.name]) (.const true)) := by
  unfold fieldBlocks at h
  dsimp only at h
  split at h
  case isTrue hprim =>
    obtain ⟨blocks, hblocks, rfl⟩ := map_eq_ok_iff.1 h
    rw [mapM_eq_ok_iff] at hblocks
    obtain ⟨block, hblock, hsome⟩ := List.mem_filterMap.1 hcheck
    obtain ⟨rule, hrule, hrule'⟩ := forall₂_mem_right hblocks hblock
    exact .inl ⟨hprim, rule, hrule, hsome ▸ hrule'⟩
  case isFalse =>
    obtain ⟨calls, hcalls, rfl⟩ := map_eq_ok_iff.1 h
    rcases List.mem_append.1 hcheck with hpresence | hcall
    · obtain ⟨⟨hoptional, -⟩, hcheck⟩ := List.mem_ite_nil_right.1 hpresence
      cases List.mem_singleton.1 hcheck
      exact .inr ⟨hoptional, rfl⟩
    · rcases delegateBlocks_eq_ok hcalls with ⟨target, -, -, rfl⟩ | ⟨-, rfl⟩
      · cases List.mem_singleton.1 hcall
      · cases hcall

end Validator

/-- **Every check of a validator is well scoped and well-typed**, if the declarations are accepted
and no declaration has two fields of one name. -/
theorem hasType_of_mem_blocks (h : analyze types = .ok analyzed)
    (hnames : ∀ d ∈ types, (d.fields.map (·.name)).Nodup) {owner : Declaration}
    (howner : owner ∈ analyzed) {scope : Scope} {body : Validator}
    (hbody : Validator.ofDeclaration scope owner = .ok body) {condition : Expr}
    {name message : String} (hcheck : Block.check condition name message ∈ body.blocks) :
    condition.HasType (Context.of analyzed owner) .check := by
  have hnodup : (owner.fields.map (·.name)).Nodup := by
    obtain ⟨_, -, hall⟩ := analyze_eq_ok_iff.1 h
    obtain ⟨source, hsource, hannotates⟩ := forall₂_mem_right hall howner
    exact hannotates.names_eq ▸ hnames source hsource
  obtain ⟨parts, hparts, rfl⟩ := Validator.ofDeclaration_eq_ok_iff.1 hbody
  obtain ⟨part, hpart, hcheck⟩ := List.mem_flatten.1 hcheck
  obtain ⟨field, hfield, hblocks⟩ := forall₂_mem_right hparts hpart
  have hpath : (Context.of analyzed owner).field [field.name] field.fieldType :=
    ⟨field, .last (firstNamed_of_nodup hnodup hfield), rfl⟩
  rcases Validator.check_of_fieldBlocks hblocks hcheck with
    ⟨hprim, rule, hrule, hblock⟩ | ⟨hoptional, rfl⟩
  · have hfits := fits_of_analyze h howner hfield hprim hrule
    obtain ⟨built, e, hbuild, hexpr, htyped⟩ :=
      Condition.exists_hasType_of_fits hfits (FieldType.isPrimitive_iff.1 hprim) hpath
        fun peer hpeer => by
          obtain ⟨target, hleads, htype, hpeers⟩ :=
            leadsTo_of_analyze h howner hfield hrule hpeer
          exact ⟨⟨target, hleads, htype⟩, hpeers⟩
    obtain ⟨built', hbuild', hexpr'⟩ := Validator.checkBlock_eq_ok_check hblock
    cases hbuild.symm.trans hbuild'
    cases hexpr.symm.trans hexpr'
    exact htyped
  · exact .someAnd hpath hoptional .const

/-- Checks of an optional value, of the keys of a dictionary and of a field in another package. -/
def shipmentDeclarations : List Declaration :=
  [⟨"Shipment", "shop", none, [⟨"note", "Option<String>", "in='gift' 'fragile'", []⟩,
      ⟨"tags", "HashMap<String, u8>", "nin='hidden', max=3", []⟩,
      ⟨"weight", "u16", "ltefield=parcel.limit", []⟩,
      ⟨"parcel", "crate::depot::Parcel", "required", []⟩], false⟩,
    ⟨"Parcel", "depot", none, [⟨"limit", "u64", "gt=0", []⟩], false⟩]

/-- All of them are well-typed. -/
theorem shipment_checks_typed :
    ∃ analyzed owner body, analyze shipmentDeclarations = .ok analyzed ∧ owner ∈ analyzed ∧
      Validator.ofDeclaration (Scope.of analyzed) owner = .ok body ∧
      body.functionName = "validate_shipment" ∧
      body.blocks.map (·.isDelegate) = [false, false, false, false, true] ∧
      ∀ condition name message, Block.check condition name message ∈ body.blocks →
        condition.HasType (Context.of analyzed owner) .check := by
  have hnames : ∀ d ∈ shipmentDeclarations, (d.fields.map (·.name)).Nodup := by decide
  have heval : ((analyze shipmentDeclarations).toOption.any fun analyzed =>
      analyzed.any fun owner =>
        (Validator.ofDeclaration (Scope.of analyzed) owner).toOption.any fun body =>
          body.functionName = "validate_shipment" ∧
            body.blocks.map (·.isDelegate) = [false, false, false, false, true]) = true := by
    decide +kernel
  obtain ⟨analyzed, hanalyzed, heval⟩ := exists_eq_ok_of_any heval
  obtain ⟨owner, howner, heval⟩ := List.any_eq_true.1 heval
  obtain ⟨body, hbody, heval⟩ := exists_eq_ok_of_any heval
  obtain ⟨hname, hblocks⟩ := of_decide_eq_true heval
  refine ⟨analyzed, owner, body, hanalyzed, howner, hbody, hname, hblocks, ?_⟩
  intro condition name message hcheck
  exact hasType_of_mem_blocks hanalyzed hnames howner hbody hcheck

end FieldRules
