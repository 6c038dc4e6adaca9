import FieldRules.Proofs.Compilation.Stages
import FieldRules.Proofs.Scope.References
import FieldRules.Proofs.Text.Path

/-!
# Delegation

A field of a declared type is delegated to the validator of its type. `delegations_link` says that
each such field makes one call and no other field makes any, that the call is to a validator which
is written in the same compilation, and that it goes the way that the type of the field was written:
the path of the call, with the name of the type behind it, means that type again.
-/

namespace FieldRules

open Text

variable {types : List Declaration}

/-! ### The path of a reference -/

/-- The path that a reference is written with, if there is one: what stands before its last double
colon, without blanks. -/
inductive WrittenBelow (reference : String) : Option String → Prop where
  /-- A bare name has no path. -/
  | bare : ¬ [':', ':'] <:+: trim reference.toList → WrittenBelow reference none
  /-- Nothing in the name makes another double colon, not even with the colon before it. -/
  | path {front name : List Char} : trim reference.toList = front ++ ':' :: ':' :: name →
      ¬ [':', ':'] <:+: ':' :: name → WrittenBelow reference (some (String.ofList (trim front)))

/-- A name behind a path, if there is one. -/
def behindPath : Option String → String → String
  | none, name => name
  | some path, name => path ++ "::" ++ name

/-- A validator is called by its name, behind the path that the type is written with. -/
theorem exists_writtenBelow (reference : String) :
    ∃ path, WrittenBelow reference path ∧
      ∀ name, Validator.delegateCall reference name = behindPath path (validatorName name) := by
  unfold Validator.delegateCall
  cases hcut : cutLastSegment (trim reference.toList) with
  | none => exact ⟨none, .bare (cutLastSegment_eq_none_iff.1 hcut), fun _ => rfl⟩
  | some cut =>
    obtain ⟨front, name⟩ := cut
    obtain ⟨hsplit, hlast⟩ := cutLastSegment_eq_some_iff.1 hcut
    exact ⟨_, .path hsplit hlast, fun _ => rfl⟩

/-- A trimmed text stays trimmed without the blanks before its last double colon. -/
theorem trim_path {cs front name : List Char} (h : trim cs = front ++ ':' :: ':' :: name) :
    trim (trim front ++ ':' :: ':' :: name) = trim front ++ ':' :: ':' :: name := by
  refine trim_eq_self_iff.2 ⟨fun c hc => ?_, fun c hc => ?_⟩
  · cases hfront : trim front with
    | nil =>
      rw [hfront] at hc
      cases hc
      rfl
    | cons d ds =>
      rw [hfront] at hc
      cases hc
      have hhead : (trim front).head? = some c := by rw [hfront]; rfl
      exact head?_trim hhead
  · have hlast : (trim cs).getLast? = some c := by
      rw [h]
      simpa [List.getLast?_append] using hc
    exact (trim_eq_self_iff.1 (trim_trim cs)).2 c hlast

/-- Blanks around a path do not change the packages that it can mean. -/
theorem candidatePackages_trim (here path : List Char) :
    TypeIndex.candidatePackages here (trim path) = TypeIndex.candidatePackages here path := by
  simp only [TypeIndex.candidatePackages, map_trim_pathSegments_trim]

/-- The name of a declaration, behind the path of a reference to it, stands for the same keys. -/
theorem WrittenBelow.referenceKeys_eq {fromPackage reference : String} {path : Option String}
    {d : Declaration} (h : WrittenBelow reference path)
    (hd : d.key ∈ referenceKeys fromPackage reference) :
    referenceKeys fromPackage (behindPath path d.name) = referenceKeys fromPackage reference := by
  cases h with
  | bare hbare =>
    have hcut := cutLastSegment_eq_none_iff.2 hbare
    rw [referenceKeys_bare hcut, List.mem_singleton] at hd
    have hname : d.name = trimmed reference := congrArg Prod.snd hd
    have hagain : cutLastSegment (trim (trimmed reference).toList) = none := by simpa using hcut
    rw [behindPath, hname, referenceKeys_bare hagain, referenceKeys_bare hcut]
    simp [trimmed]
  | @path front name hsplit hlast =>
    have hcut := cutLastSegment_eq_some_iff.2 ⟨hsplit, hlast⟩
    rw [referenceKeys_path hcut] at hd
    obtain ⟨package, -, hkey⟩ := List.mem_map.1 hd
    have hname : d.name = String.ofList name := (congrArg Prod.snd hkey).symm
    have htext : (behindPath (some (String.ofList (trim front))) d.name).toList =
        trim front ++ ':' :: ':' :: name := by
      simp [behindPath, hname]
    have hagain : cutLastSegment
        (trim (behindPath (some (String.ofList (trim front))) d.name).toList) =
          some (trim front, name) := by
      rw [htext, trim_path hsplit]
      exact cutLastSegment_eq_some_iff.2 ⟨rfl, hlast⟩
    rw [referenceKeys_path hagain, referenceKeys_path hcut, candidatePackages_trim]

/-- So it means the same declaration. -/
theorem WrittenBelow.denotes {fromPackage reference : String} {path : Option String}
    {d : Declaration} (h : WrittenBelow reference path)
    (hd : Denotes types fromPackage reference d) :
    Denotes types fromPackage (behindPath path d.name) d := by
  have hkeys := h.referenceKeys_eq (mem_of_find?_of hd).2
  rw [Denotes, find?_of, hkeys, ← find?_of]
  exact hd

/-! ### The delegations of a field -/

/-- The block calls another validator. -/
def Block.isDelegate : Block → Bool
  | .check .. => false
  | .delegate .. => true

/-- The field is outside containers, and of a declared type that has validations. -/
structure DelegatesTo (types : List Declaration) (owner : Declaration) (field : Field)
    (target : Declaration) : Prop where
  /-- The type of the field is not a primitive. -/
  nested : field.fieldType.category = .other
  /-- There is no container around it. -/
  plain : field.fieldType.shape = .plain
  /-- Seen from the package of the owner it means the target. -/
  denotes : Denotes types owner.package field.fieldType.base target
  /-- The target has validations. -/
  validated : target.hasValidations = true

/-- The checks of a primitive field delegate nothing. -/
theorem Validator.filter_isDelegate_of_primitive {field : Field} {type : FieldType}
    {part : List Block} (h : primitiveBlocks field type = .ok part) :
    part.filter (·.isDelegate) = [] := by
  obtain ⟨blocks, hblocks, rfl⟩ := map_eq_ok_iff.1 h
  rw [List.filter_eq_nil_iff]
  intro block hblock
  obtain ⟨found, hfound, rfl : found = some block⟩ := List.mem_filterMap.1 hblock
  obtain ⟨rule, -, hcheck⟩ := forall₂_mem_right (mapM_eq_ok_iff.1 hblocks) hfound
  obtain ⟨condition, e, -, -, hsome⟩ := checkBlock_eq_ok_iff.1 hcheck
  obtain ⟨-, hblock⟩ := Option.ite_none_left_eq_some.1 hsome.symm
  cases hblock
  simp [Block.isDelegate]

/-- Nor does the check that a value is present. -/
theorem Validator.filter_isDelegate_presenceBlocks {field : Field} {type : FieldType} :
    (presenceBlocks field type).filter (·.isDelegate) = [] := by
  unfold presenceBlocks
  split
  · rfl
  · rfl

/-- The delegation of a field is one call if it is outside containers and has a target. -/
theorem Validator.delegateBlocks_eq_ok {scope : Scope} {owner : Declaration} {field : Field}
    {type : FieldType} {calls : List Block}
    (h : delegateBlocks scope owner field type = .ok calls) :
    (∃ target, type.shape = .plain ∧ delegateTarget scope owner type = some target ∧
        calls = [.delegate field.name (delegateCall type.base target.name) type.optional]) ∨
      (type.shape = .plain → delegateTarget scope owner type = none) ∧ calls = [] := by
  unfold delegateBlocks at h
  split at h
  case isTrue hshape =>
    cases h
    exact .inr ⟨fun hplain => absurd hplain hshape, rfl⟩
  case isFalse hshape =>
    split at h
    case h_1 target htarget =>
      cases h
      exact .inl ⟨target, by simpa using hshape, htarget, rfl⟩
    case h_2 hnone =>
      split at h
      case isTrue =>
        cases h
        exact .inr ⟨fun _ => hnone, rfl⟩
      case isFalse => cases h

/-- A field of a declared type makes one call if it has a target, and none otherwise. -/
theorem Validator.delegatesTo_of_delegateBlocks {owner : Declaration} {field : Field}
    {calls : List Block} (hnested : field.fieldType.category = .other)
    (h : delegateBlocks (Scope.of types) owner field field.fieldType = .ok calls) :
    (∃ target, DelegatesTo types owner field target ∧ calls =
        [.delegate field.name (delegateCall field.fieldType.base target.name)
          field.fieldType.optional]) ∨
      (∀ target, ¬ DelegatesTo types owner field target) ∧ calls = [] := by
  rcases delegateBlocks_eq_ok h with ⟨target, hplain, htarget, rfl⟩ | ⟨hnone, rfl⟩
  · obtain ⟨hdenotes, hvalidated⟩ := delegateTarget_eq_some_iff.1 htarget
    exact .inl ⟨target, ⟨hnested, hplain, hdenotes, hvalidated⟩, rfl⟩
  · refine .inr ⟨fun target htarget => ?_, rfl⟩
    have hsome := delegateTarget_eq_some_iff.2 ⟨htarget.denotes, htarget.validated⟩
    cases (hnone htarget.plain).symm.trans hsome

/-- Any other field makes none. -/
theorem Validator.filter_isDelegate_fieldBlocks {owner : Declaration} {field : Field}
    {part : List Block} (h : fieldBlocks (Scope.of types) owner field = .ok part) :
    (∃ target, DelegatesTo types owner field target ∧ part.filter (·.isDelegate) =
        [.delegate field.name (delegateCall field.fieldType.base target.name)
          field.fieldType.optional]) ∨
      (∀ target, ¬ DelegatesTo types owner field target) ∧ part.filter (·.isDelegate) = [] := by
  unfold fieldBlocks at h
  dsimp only at h
  split at h
  case isTrue hprim =>
    refine .inr ⟨fun target htarget => ?_, filter_isDelegate_of_primitive h⟩
    exact FieldType.isPrimitive_iff.1 hprim htarget.nested
  case isFalse hprim =>
    have hnested : field.fieldType.category = .other :=
      FieldType.isPrimitive_eq_false_iff.1 (by simpa using hprim)
    obtain ⟨calls, hcalls, rfl⟩ := map_eq_ok_iff.1 h
    rw [List.filter_append, filter_isDelegate_presenceBlocks, List.nil_append]
    rcases delegatesTo_of_delegateBlocks hnested hcalls with ⟨target, htarget, rfl⟩ | ⟨hnone, rfl⟩
    · exact .inl ⟨target, htarget, rfl⟩
    · exact .inr ⟨hnone, rfl⟩

/-! ### The delegations of an output -/

/-- The calls that a field should make, among the validators of an output. -/
inductive Links (types : List Declaration) (validators : List GeneratedValidator)
    (owner : Declaration) (field : Field) : List Block → Prop where
  /-- A field with a target calls the validator of the target, behind the path that its type is
  written with; that path leads from the package of the owner to the target. -/
  | call {target : Declaration} {path : Option String} {v : GeneratedValidator} :
      DelegatesTo types owner field target → WrittenBelow field.fieldType.base path →
      v ∈ validators → v.typeName = target.name → v.package = target.package →
      v.functionName = validatorName target.name →
      Denotes types owner.package (behindPath path target.name) target →
      Links types validators owner field
        [.delegate field.name (behindPath path v.functionName) field.fieldType.optional]
  /-- Any other field makes no call. -/
  | alone : (∀ target, ¬ DelegatesTo types owner field target) →
      Links types validators owner field []

/-- **Delegations link up.** Whatever compiles, every analysed declaration with validations has a
validator in the output, and each of its fields makes exactly the calls that it should. -/
theorem delegations_link {options : Options} {schedule : Schedule} {output : Output}
    (h : compile types options schedule = .ok output) :
    ∃ analyzed, analyze types = .ok analyzed ∧
      ∀ owner ∈ analyzed, owner.hasValidations = true →
        ∃ body parts, Validator.ofDeclaration (Scope.of analyzed) owner = .ok body ∧
          ⟨owner.name, owner.package, body.functionName, body.source options.support⟩ ∈
            output.validators ∧
          body.blocks = parts.flatten ∧
          List.Forall₂ (fun field part =>
              Links analyzed output.validators owner field (part.filter (·.isDelegate)))
            owner.fields parts := by
  obtain ⟨analyzed, validators, hanalyzed, hvalidators, rfl⟩ := compile_eq_ok_iff.1 h
  have hwritten : ∀ d ∈ analyzed, d.hasValidations = true →
      ∃ v ∈ validators, generate options (Scope.of analyzed) d = .ok v := fun d hd hvalidated =>
    forall₂_mem_right (generateAll_eq_ok_iff.1 hvalidators).flip
      (List.mem_filter.2 ⟨hd, hvalidated⟩)
  refine ⟨analyzed, hanalyzed, fun owner howner hvalidated => ?_⟩
  obtain ⟨v, hv, hgenerate⟩ := hwritten owner howner hvalidated
  obtain ⟨body, hbody, rfl⟩ := generate_eq_ok_iff.1 hgenerate
  obtain ⟨parts, hparts, rfl⟩ := Validator.ofDeclaration_eq_ok_iff.1 hbody
  refine ⟨_, parts, hbody, hv, rfl, hparts.imp fun field part hpart => ?_⟩
  rcases Validator.filter_isDelegate_fieldBlocks hpart with ⟨target, htarget, hcall⟩ | ⟨hnone, hcall⟩
  · obtain ⟨w, hw, hgenerate⟩ :=
      hwritten target (mem_of_find?_of htarget.denotes).1 htarget.validated
    obtain ⟨hname, hpackage, hfunction⟩ := names_of_generate hgenerate
    obtain ⟨path, hpath, hbehind⟩ := exists_writtenBelow field.fieldType.base
    rw [hcall, hbehind, ← hfunction]
    exact .call htarget hpath hw hname hpackage hfunction (hpath.denotes htarget.denotes)
  · rw [hcall]
    exact .alone hnone

/-- Two declarations in one package, and one in another that refers to it. -/
def customerDeclarations : List Declaration :=
  [⟨"Order", "orders", none, [⟨"id", "u64", "required", []⟩,
      ⟨"customer", "crate::people::Customer", "", []⟩], false⟩,
    ⟨"Customer", "people", none, [⟨"email", "String", "email", []⟩,
      ⟨"work", "Option<Address>", "required", []⟩], false⟩,
    ⟨"Address", "people", none, [⟨"city", "String", "required", []⟩], false⟩]

/-- Each of them makes the calls that it should. -/
theorem customer_delegations_link :
    ∃ output analyzed, compile customerDeclarations {} = .ok output ∧
      analyze customerDeclarations = .ok analyzed ∧
      analyzed.map (·.name) = ["Order", "Customer", "Address"] ∧
      ∀ owner ∈ analyzed, ∃ body parts,
        Validator.ofDeclaration (Scope.of analyzed) owner = .ok body ∧
          body.blocks = parts.flatten ∧
          List.Forall₂ (fun field part =>
              Links analyzed output.validators owner field (part.filter (·.isDelegate)))
            owner.fields parts := by
  have hcompiles : ((compile customerDeclarations {}).toOption.any fun _ => true) = true := by
    decide +kernel
  have hanalyzes : ((analyze customerDeclarations).toOption.any fun analyzed =>
      analyzed.map (·.name) = ["Order", "Customer", "Address"] ∧
        ∀ owner ∈ analyzed, owner.hasValidations = true) = true := by
    decide +kernel
  obtain ⟨output, hcompile, -⟩ := exists_eq_ok_of_any hcompiles
  obtain ⟨analyzed, hanalyzed, hlinks⟩ := delegations_link hcompile
  rw [hanalyzed] at hanalyzes
  obtain ⟨hnames, hvalidated⟩ := of_decide_eq_true hanalyzes
  refine ⟨output, analyzed, hcompile, hanalyzed, hnames, fun owner howner => ?_⟩
  obtain ⟨body, parts, hbody, -, hblocks, hparts⟩ := hlinks owner howner (hvalidated owner howner)
  exact ⟨body, parts, hbody, hblocks, hparts⟩

end FieldRules
