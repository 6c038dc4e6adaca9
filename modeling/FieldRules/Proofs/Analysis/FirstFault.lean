import FieldRules.Proofs.Analysis.EntryFault
import FieldRules.Proofs.Analysis.Faults
import FieldRules.Proofs.Scope.Repeated

/-!
# The fault that is reported

Declarations can have many faults, and the analysis reports one of them. It looks for a repeated
declaration first, then for a tag that cannot be read, and only then for an entry that makes no sense;
each time it reports the first in the order of the declarations, their fields and their entries.

`Raised` says this without the analysis, with the declaration at fault, and `reported_fault` that the
analysis reports exactly the fault that is raised. `first_failing_hop` is the case of an entry that
compares fields: its fault is that of its path.
-/

namespace FieldRules

/-! ### The faults of a set of declarations -/

/-- All entries of the tag of a field are permitted on it. -/
def AllPermitted (types : List Declaration) (owner : Declaration) (field : Field) : Prop :=
  ∀ vs, Tag.validations field.tag = .ok vs → ∀ v ∈ vs, Permitted types owner field v

/-- Nothing that is looked at before this entry of the field is at fault: there is no repeated
declaration, every tag can be read, and all entries before this one are permitted. -/
structure NoFaultBefore (types : List Declaration) (owner : Declaration) (field : Field)
    (v : Validation) : Prop where
  /-- No two declarations have the same name and package. -/
  distinct : Distinct types
  /-- Every tag can be read. -/
  readable : ∀ d ∈ types, ∀ f ∈ d.fields, Tag.IsReadable f.tag
  /-- So are all entries of the declarations before the owner permitted, -/
  owners : AllBefore (fun d => ∀ f ∈ d.fields, AllPermitted types d f) types owner
  /-- all entries of its fields before this one, -/
  fields : AllBefore (AllPermitted types owner) owner.fields field
  /-- and those of the field before this entry. -/
  entries : ∃ vs, Tag.validations field.tag = .ok vs ∧ AllBefore (Permitted types owner field) vs v

/-- The fault of a declaration that the analysis stops at while it goes over the declarations. -/
inductive PassFault (types : List Declaration) : Declaration → Error → Prop where
  /-- No declaration is repeated, and this is the first tag that cannot be read. -/
  | tag {owner : Declaration} {field : Field} {fault : TagError} : Distinct types →
      AllBefore (fun d => ∀ f ∈ d.fields, Tag.IsReadable f.tag) types owner →
      AllBefore (fun f => Tag.IsReadable f.tag) owner.fields field →
      Tag.Fault field.tag fault →
      PassFault types owner (.tag owner.name field.name fault)
  /-- All tags can be read as well, and this is the first entry that makes no sense. -/
  | entry {owner : Declaration} {field : Field} {v : Validation} {fault : SemanticError} :
      NoFaultBefore types owner field v → EntryFault types owner field v fault →
      PassFault types owner (.semantic fault)

/-- The fault that is raised for declarations, and the declaration at fault. -/
inductive Raised (types : List Declaration) : Declaration → Error → Prop where
  /-- A repeated declaration. -/
  | duplicate {d : Declaration} : FirstRepeated types d →
      Raised types d (.semantic (.duplicateType d.name d.package))
  /-- A declaration with a tag or an entry at fault. -/
  | pass {d : Declaration} {fault : Error} : PassFault types d fault → Raised types d fault

/-! ### The first pass -/

namespace Analysis

variable {types : List Declaration} {owner : Declaration} {field : Field} {fault : Error}

theorem exists_readTag_eq_ok_iff :
    (∃ read, readTag owner field = .ok read) ↔ Tag.IsReadable field.tag := by
  simp only [readTag_eq_ok_iff, Tag.isReadable_iff]
  constructor
  · rintro ⟨⟨_, vs⟩, -, hvs⟩
    exact ⟨vs, hvs⟩
  · rintro ⟨vs, hvs⟩
    exact ⟨(field, vs), rfl, hvs⟩

theorem exists_readTags_eq_ok_iff :
    (∃ read, readTags owner = .ok read) ↔ ∀ f ∈ owner.fields, Tag.IsReadable f.tag := by
  simp only [readTags, map_eq_ok_iff, mapM_eq_ok_iff, ← @exists_readTag_eq_ok_iff owner,
    ← exists_forall₂_iff]
  constructor
  · rintro ⟨_, reads, hreads, -⟩
    exact ⟨reads, hreads⟩
  · rintro ⟨reads, hreads⟩
    exact ⟨_, reads, hreads, rfl⟩

theorem exists_mapM_readTags_eq_ok_iff :
    (∃ read, types.mapM readTags = .ok read) ↔
      ∀ d ∈ types, ∀ f ∈ d.fields, Tag.IsReadable f.tag := by
  simp only [mapM_eq_ok_iff, exists_forall₂_iff, exists_readTags_eq_ok_iff]

/-- A declaration stops the first pass with its first tag that cannot be read. -/
theorem readTags_eq_error_iff :
    readTags owner = .error fault ↔ ∃ field inner,
      AllBefore (fun f => Tag.IsReadable f.tag) owner.fields field ∧
      Tag.Fault field.tag inner ∧
      fault = (Error.tag owner.name field.name inner).at? owner.location := by
  simp only [readTags, map_eq_error_iff, mapM_eq_error_iff_allBefore, exists_readTag_eq_ok_iff,
    readTag_eq_error_iff, Tag.validations_eq_error_iff, exists_and_left]

/-- **The first pass stops at the first tag that cannot be read.** -/
theorem mapM_readTags_eq_error_iff :
    types.mapM readTags = .error fault ↔ ∃ owner field inner,
      AllBefore (fun d => ∀ f ∈ d.fields, Tag.IsReadable f.tag) types owner ∧
      AllBefore (fun f => Tag.IsReadable f.tag) owner.fields field ∧
      Tag.Fault field.tag inner ∧
      fault = (Error.tag owner.name field.name inner).at? owner.location := by
  simp only [mapM_eq_error_iff_allBefore, exists_readTags_eq_ok_iff, readTags_eq_error_iff,
    exists_and_left]

/-! ### The second pass -/

/-- A field whose tag can be read gets its rules if all its entries are permitted. -/
theorem exists_attachRules_of_readable (hread : Tag.IsReadable field.tag) :
    (∃ annotated, (readTag owner field >>= fun (f, vs) =>
        attachRules (Scope.of types) owner f vs) = .ok annotated) ↔
      AllPermitted types owner field := by
  obtain ⟨vs, hvs⟩ := Tag.isReadable_iff.1 hread
  have hrules : ∀ annotated, AnnotatesField (Scope.of types) owner field annotated ↔
      ∃ rules, List.Forall₂ (fun v r => checkValidation (Scope.of types) owner field v = .ok r)
        vs rules ∧ annotated = { field with rules } := by
    simp [AnnotatesField, RulesOf, hvs]
  simp only [bind_eq_ok_iff, readTag_attachRules_iff, hrules, exists_comm (α := Field),
    exists_and_left, exists_eq, and_true, exists_forall₂_iff, exists_checkValidation_eq_ok_iff,
    AllPermitted, hvs, Except.ok.injEq, forall_eq']

/-- It stops the second pass with its first entry that is not permitted. -/
theorem attachRules_of_readable_eq_error_iff (hread : Tag.IsReadable field.tag) :
    (readTag owner field >>= fun (f, vs) => attachRules (Scope.of types) owner f vs) =
        .error fault ↔
      ∃ v inner, (∃ vs, Tag.validations field.tag = .ok vs ∧
          AllBefore (Permitted types owner field) vs v) ∧
        EntryFault types owner field v inner ∧
        fault = (Error.semantic inner).at? owner.location := by
  obtain ⟨vs, hvs⟩ := Tag.isReadable_iff.1 hread
  have hreadTag : readTag owner field = .ok (field, vs) := readTag_eq_ok_iff.2 ⟨rfl, hvs⟩
  rw [hreadTag]
  show attachRules (Scope.of types) owner field vs = .error fault ↔ _
  simp only [attachRules_eq_error_iff, mapM_eq_error_iff_allBefore,
    exists_checkValidation_eq_ok_iff, checkValidation_eq_error_iff, hvs, Except.ok.injEq,
    exists_eq_left']
  constructor
  · rintro ⟨inner, ⟨v, hbefore, hv⟩, rfl⟩
    exact ⟨v, inner, hbefore, hv, rfl⟩
  · rintro ⟨v, inner, hbefore, hv, rfl⟩
    exact ⟨inner, ⟨v, hbefore, hv⟩, rfl⟩

/-- So does a declaration whose tags can be read. -/
theorem annotate_of_readable_eq_error_iff (hread : ∀ f ∈ owner.fields, Tag.IsReadable f.tag) :
    (readTags owner >>= fun (d, fields) => annotate (Scope.of types) d fields) = .error fault ↔
      ∃ field v inner, AllBefore (AllPermitted types owner) owner.fields field ∧
        (∃ vs, Tag.validations field.tag = .ok vs ∧
          AllBefore (Permitted types owner field) vs v) ∧
        EntryFault types owner field v inner ∧
        fault = (Error.semantic inner).at? owner.location := by
  obtain ⟨_, hreadTags⟩ := exists_readTags_eq_ok_iff.2 hread
  obtain ⟨reads, hreads, -⟩ := map_eq_ok_iff.1 hreadTags
  have hstep : (readTags owner >>= fun (d, fields) => annotate (Scope.of types) d fields) =
      annotate (Scope.of types) owner reads := by
    rw [readTags, hreads]
    rfl
  rw [hstep, annotate, map_eq_error_iff, mapM_of_mapM_eq_ok hreads, mapM_eq_error_iff_allBefore]
  simp only [exists_and_left]
  refine exists_congr fun field => ?_
  rw [allBefore_congr fun f hf => exists_attachRules_of_readable (hread f hf)]
  refine and_congr_right fun hfield => ?_
  rw [attachRules_of_readable_eq_error_iff (hread field hfield.mem)]
  simp only [exists_and_left]

/-- **The second pass stops at the first entry that is not permitted.** -/
theorem mapM_annotate_eq_error_iff {read : List (Declaration × List (Field × List Validation))}
    (hread : types.mapM readTags = .ok read) :
    (read.mapM fun (owner, fields) => annotate (Scope.of types) owner fields) = .error fault ↔
      ∃ owner field v inner,
        AllBefore (fun d => ∀ f ∈ d.fields, AllPermitted types d f) types owner ∧
        AllBefore (AllPermitted types owner) owner.fields field ∧
        (∃ vs, Tag.validations field.tag = .ok vs ∧
          AllBefore (Permitted types owner field) vs v) ∧
        EntryFault types owner field v inner ∧
        fault = (Error.semantic inner).at? owner.location := by
  have hreadable := exists_mapM_readTags_eq_ok_iff.1 ⟨read, hread⟩
  have hpermitted : ∀ d ∈ types, (∃ annotated,
      (readTags d >>= fun (d, fields) => annotate (Scope.of types) d fields) = .ok annotated) ↔
        ∀ f ∈ d.fields, AllPermitted types d f := by
    intro d hd
    simp only [bind_eq_ok_iff, readTags_annotate_iff, exists_annotates_iff]
    refine forall₂_congr fun f hf => ?_
    rw [← exists_attachRules_of_readable (hreadable d hd f hf)]
    simp only [bind_eq_ok_iff, readTag_attachRules_iff]
  rw [mapM_of_mapM_eq_ok hread, mapM_eq_error_iff_allBefore]
  simp only [exists_and_left]
  refine exists_congr fun owner => ?_
  rw [allBefore_congr hpermitted]
  refine and_congr_right fun howner => ?_
  rw [annotate_of_readable_eq_error_iff (hreadable owner howner.mem)]
  simp only [exists_and_left]

end Analysis

/-! ### The analysis -/

/-- A fault of the passes is raised only for declarations that are distinct. -/
theorem PassFault.distinct {types : List Declaration} {d : Declaration} {inner : Error}
    (h : PassFault types d inner) : Distinct types := by
  cases h with
  | tag hdistinct => exact hdistinct
  | entry hbefore => exact hbefore.distinct

/-- If some tag cannot be read, the first of them is at fault; otherwise it is the first entry that is
not permitted. -/
theorem passFault_iff {types : List Declaration} {fault : Error} (hdistinct : Distinct types) :
    (∃ d inner, PassFault types d inner ∧ fault = inner.at? d.location) ↔
      types.mapM Analysis.readTags = .error fault ∨
      ∃ read, types.mapM Analysis.readTags = .ok read ∧
        (read.mapM fun (owner, fields) => Analysis.annotate (Scope.of types) owner fields) =
          .error fault := by
  constructor
  · rintro ⟨d, _, hpass, rfl⟩
    cases hpass with
    | tag _ howners hfields htag =>
      exact .inl (Analysis.mapM_readTags_eq_error_iff.2
        ⟨_, _, _, howners, hfields, htag, rfl⟩)
    | entry hbefore hentry =>
      obtain ⟨read, hread⟩ := Analysis.exists_mapM_readTags_eq_ok_iff.2 hbefore.readable
      exact .inr ⟨read, hread, (Analysis.mapM_annotate_eq_error_iff hread).2
        ⟨_, _, _, _, hbefore.owners, hbefore.fields, hbefore.entries, hentry, rfl⟩⟩
  · rintro (hread | ⟨read, hread, hannotate⟩)
    · obtain ⟨owner, field, inner, howners, hfields, htag, rfl⟩ :=
        Analysis.mapM_readTags_eq_error_iff.1 hread
      exact ⟨owner, _, .tag hdistinct howners hfields htag, rfl⟩
    · obtain ⟨owner, field, v, inner, howners, hfields, hentries, hentry, rfl⟩ :=
        (Analysis.mapM_annotate_eq_error_iff hread).1 hannotate
      have hreadable := Analysis.exists_mapM_readTags_eq_ok_iff.1 ⟨read, hread⟩
      exact ⟨owner, _, .entry ⟨hdistinct, hreadable, howners, hfields, hentries⟩ hentry, rfl⟩

/-- **The analysis fails with a repeated declaration, or with the fault of a pass**, which stands where
the declaration at fault does. -/
theorem analyze_eq_error_iff {types : List Declaration} {fault : Error} :
    analyze types = .error fault ↔
      (∃ d, FirstRepeated types d ∧ fault = .semantic (.duplicateType d.name d.package)) ∨
      ∃ d inner, PassFault types d inner ∧ fault = inner.at? d.location := by
  rw [← Scope.build_eq_error_iff]
  unfold analyze
  cases hscope : Scope.build types with
  | error stop =>
    have hnone : ¬ ∃ d inner, PassFault types d inner ∧ fault = inner.at? d.location := by
      rintro ⟨d, inner, hpass, -⟩
      cases hscope.symm.trans (Scope.build_eq_ok_iff_distinct.2 ⟨hpass.distinct, rfl⟩)
    simp [hnone]
  | ok scope =>
    obtain ⟨hdistinct, rfl⟩ := Scope.build_eq_ok_iff_distinct.1 hscope
    rw [passFault_iff hdistinct]
    cases types.mapM Analysis.readTags <;> simp

/-- **The fault that is reported**, apart from the place it is reported at, is the fault that is raised:
that of the first repeated declaration; if there is none, that of the first tag that cannot be read;
if there is none either, that of the first entry that is not permitted. -/
theorem reported_fault (types : List Declaration) (inner : Error) :
    (∃ fault, analyze types = .error fault ∧ fault.unlocated = inner) ↔
      ∃ d, Raised types d inner := by
  have hunlocated : ∀ {d e}, PassFault types d e → e.unlocated = e := by
    intro d e h
    cases h <;> rfl
  constructor
  · rintro ⟨fault, hfault, rfl⟩
    rcases analyze_eq_error_iff.1 hfault with ⟨d, hd, rfl⟩ | ⟨d, e, hpass, rfl⟩
    · exact ⟨d, .duplicate hd⟩
    · rw [Error.unlocated_at?, hunlocated hpass]
      exact ⟨d, .pass hpass⟩
  · rintro ⟨d, hraised⟩
    cases hraised with
    | duplicate hd => exact ⟨_, analyze_eq_error_iff.2 (.inl ⟨d, hd, rfl⟩), rfl⟩
    | pass hpass =>
      refine ⟨_, analyze_eq_error_iff.2 (.inr ⟨d, inner, hpass, rfl⟩), ?_⟩
      rw [Error.unlocated_at?, hunlocated hpass]

/-- A tag that cannot be read is reported before an entry that makes no sense, wherever they stand. -/
example : analyze [⟨"User", "", none, [⟨"name", "String", "gte=3", []⟩], false⟩,
      ⟨"Order", "", none, [⟨"id", "u64", "required, gte", []⟩], false⟩] =
    .error (.tag "Order" "id" (.expectedOneTarget (.compare .ge))) := by
  decide +kernel

/-- **The first failing hop decides the fault of a comparison.** Let nothing before a comparison on a
primitive field be at fault. Then the analysis reports what is wrong with the comparison, and nothing
is wrong with it exactly if it is permitted. -/
theorem first_failing_hop {types : List Declaration} {owner : Declaration} {field : Field}
    {v : Validation} (h : NoFaultBefore types owner field v)
    (hprim : field.fieldType.category ≠ .other) (hcmp : v.operation.comparesFields = true) :
    (∀ fault, PeerFault types owner field v fault →
      analyze types = .error ((Error.semantic fault).at? owner.location)) ∧
    ((∃ fault, PeerFault types owner field v fault) ↔ ¬ Permitted types owner field v) := by
  have hentry : ∀ fault, EntryFault types owner field v fault ↔
      PeerFault types owner field v fault := by
    intro fault
    constructor
    · intro hfault
      cases hfault with
      | nested hother => exact absurd hother hprim
      | compared _ _ hpeer => exact hpeer
      | illegal _ hnot => exact absurd (hcmp.symm.trans hnot) (by decide)
      | target _ hnot => exact absurd (hcmp.symm.trans hnot) (by decide)
    · exact .compared hprim hcmp
  constructor
  · intro fault hpeer
    exact analyze_eq_error_iff.2 (.inr ⟨owner, _, .entry h ((hentry fault).2 hpeer), rfl⟩)
  · rw [← exists_entryFault_iff]
    exact exists_congr fun fault => (hentry fault).symm

/-- A field that is compared with one three hops away, in another package. -/
def cargoDeclaration : Declaration :=
  ⟨"Cargo", "shop", some ⟨"shop.rs", 3⟩,
    [⟨"weight", "u32", "required, ltefield=receiver.town.mayor.age", []⟩,
      ⟨"receiver", "crate::people::Customer", "", []⟩], false⟩

/-- The first hop leads here. -/
def receiverDeclaration : Declaration :=
  ⟨"Customer", "people", none, [⟨"town", "Town", "", []⟩], false⟩

/-- The second hop leads here, and the third fails. -/
def townDeclaration : Declaration :=
  ⟨"Town", "people", none, [⟨"mayor", "Option<Person>", "", []⟩], false⟩

/-- The declarations together. -/
def cargoDeclarations : List Declaration :=
  [cargoDeclaration, receiverDeclaration, townDeclaration,
    ⟨"Person", "people", none, [⟨"age", "u32", "", []⟩], false⟩]

/-- The path stops at the optional field, and the fault names its type. -/
theorem mayor_stops_path :
    NoFaultBefore cargoDeclarations cargoDeclaration
        ⟨"weight", "u32", "required, ltefield=receiver.town.mayor.age", []⟩
        ⟨.compareField .le, ["receiver.town.mayor.age"]⟩ ∧
      analyze cargoDeclarations = .error (.located ⟨"shop.rs", 3⟩ (.semantic
        (.invalidOperation "Cargo" "weight" (.compareField .le) "Option<Person>"))) := by
  have hreadable : ∀ d ∈ cargoDeclarations, ∀ f ∈ d.fields,
      ((Tag.validations f.tag).toOption.any fun _ => true) = true := by
    decide +kernel
  have hbefore : NoFaultBefore cargoDeclarations cargoDeclaration
      ⟨"weight", "u32", "required, ltefield=receiver.town.mayor.age", []⟩
      ⟨.compareField .le, ["receiver.town.mayor.age"]⟩ := by
    refine ⟨by unfold Distinct; decide +kernel, fun d hd f hf => ?_,
      ⟨[], _, rfl, List.forall_mem_nil _⟩, ⟨[], _, rfl, List.forall_mem_nil _⟩,
      [⟨.required, []⟩, _], by decide +kernel, [⟨.required, []⟩], [], rfl, ?_⟩
    · obtain ⟨vs, hvs, -⟩ := exists_eq_ok_of_any (hreadable d hd f hf)
      exact Tag.isReadable_iff.2 ⟨vs, hvs⟩
    · rw [List.forall_mem_singleton]
      exact .checked (by decide +kernel) rfl (by decide +kernel) (List.forall_mem_nil _)
  have hcustomer : FieldType.ofSpelling "crate::people::Customer" =
      ⟨.other, .plain, false, "crate::people::Customer"⟩ := by decide +kernel
  have htown : FieldType.ofSpelling "Town" = ⟨.other, .plain, false, "Town"⟩ := by decide +kernel
  have henters : Enters cargoDeclarations cargoDeclaration ["receiver", "town"] townDeclaration := by
    have hfirst : FirstNamed cargoDeclaration "receiver"
        ⟨"receiver", "crate::people::Customer", "", []⟩ :=
      Declaration.field?_eq_some_iff.1 (by decide +kernel)
    have hsecond : FirstNamed receiverDeclaration "town" ⟨"town", "Town", "", []⟩ :=
      Declaration.field?_eq_some_iff.1 (by decide +kernel)
    have hnext : Denotes cargoDeclarations "shop" "crate::people::Customer" receiverDeclaration := by
      unfold Denotes
      decide +kernel
    have hlast : Denotes cargoDeclarations "people" "Town" townDeclaration := by
      unfold Denotes
      decide +kernel
    refine .hop hfirst ?_ ?_ ?_ ?_ (.hop hsecond ?_ ?_ ?_ ?_ .here)
    all_goals simp only [Field.fieldType, hcustomer, htown]
    · exact hnext
    · exact hlast
  have hmayor : FirstNamed townDeclaration "mayor" ⟨"mayor", "Option<Person>", "", []⟩ :=
    Declaration.field?_eq_some_iff.1 (by decide +kernel)
  have hpath : Analysis.peerPath
      (Analysis.peerReference ⟨.compareField .le, ["receiver.town.mayor.age"]⟩) =
        ["receiver", "town"] ++ "mayor" :: ["age"] := by
    decide +kernel
  have hstops := first_failing_hop hbefore (by decide +kernel) rfl
  refine ⟨hbefore, hstops.1 _ (.path ⟨_, _, _, _, hpath, henters, ?_⟩)⟩
  exact .contained (List.cons_ne_nil _ _) hmayor (by decide +kernel) (.inr (by decide +kernel))

end FieldRules
