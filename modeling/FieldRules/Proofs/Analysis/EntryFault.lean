import FieldRules.Proofs.Analysis.WellFormed

/-!
# Faults of an entry

Why an entry is rejected on a field, said without the analysis (`EntryFault`). Every entry that is not
permitted has one fault, and `checkValidation_eq_error_iff` says that it is rejected with this fault.

The target of a comparison spells a path, and the path is followed from the declaration of the field.
`Enters` is the relation between a declaration, the names that have been passed and the declaration
that they lead to; `StopsAt` says what is wrong with the name behind them. Only a path that leads to a
field can be rejected for what it leads to: first because the fields do not compare, then because the
operation is not legal for the field, and last because the peer is in a container or optional
(`PeerFault`).
-/

namespace FieldRules

/-! ### Paths that stop -/

/-- The names lead through fields of declared types from one declaration to another. -/
inductive Enters (types : List Declaration) : Declaration → List String → Declaration → Prop where
  /-- Without a name the path has not left its declaration. -/
  | here {d : Declaration} : Enters types d [] d
  /-- A name leads on if its field is of a declared type, neither in a container nor optional. -/
  | hop {d next reached : Declaration} {name : String} {field : Field} {names : List String} :
      FirstNamed d name field → field.fieldType.category = .other →
      field.fieldType.shape = .plain → field.fieldType.optional = false →
      Denotes types d.package field.fieldType.base next →
      Enters types next names reached → Enters types d (name :: names) reached

/-- What is wrong with a name of a path that has reached the declaration `current`. The path has left
the declaration that it starts in if it is `nested`, and `after` are the names that it still has. -/
inductive StopsAt (types : List Declaration) (owner : Declaration) (field : Field) (v : Validation)
    (current : Declaration) (name : String) : Bool → List String → SemanticError → Prop where
  /-- The first name of the path is no field. -/
  | missingFirst {after : List String} : (∀ f ∈ current.fields, f.name ≠ name) →
      StopsAt types owner field v current name false after
        (.undefinedField owner.name field.name (Analysis.peerReference v))
  /-- A later name is no field of the declaration that the path has reached. -/
  | missingLater {after : List String} : (∀ f ∈ current.fields, f.name ≠ name) →
      StopsAt types owner field v current name true after
        (.undefinedNestedField owner.name field.name (Analysis.peerReference v))
  /-- The path goes on behind a primitive. -/
  | primitive {nested : Bool} {after : List String} {found : Field} : after ≠ [] →
      FirstNamed current name found → found.fieldType.category ≠ .other →
      StopsAt types owner field v current name nested after
        (.undefinedNestedField owner.name field.name (Analysis.peerReference v))
  /-- The path goes on behind a field that is in a container or optional. -/
  | contained {nested : Bool} {after : List String} {found : Field} : after ≠ [] →
      FirstNamed current name found → found.fieldType.category = .other →
      (found.fieldType.shape ≠ .plain ∨ found.fieldType.optional = true) →
      StopsAt types owner field v current name nested after
        (.invalidOperation owner.name field.name v.operation found.type)
  /-- The path goes on behind a field whose type means nothing in the package of its declaration. -/
  | unresolved {nested : Bool} {after : List String} {found : Field} : after ≠ [] →
      FirstNamed current name found → found.fieldType.category = .other →
      found.fieldType.shape = .plain → found.fieldType.optional = false →
      (∀ next, ¬ Denotes types current.package found.fieldType.base next) →
      StopsAt types owner field v current name nested after
        (.undefinedNestedField owner.name field.name (Analysis.peerReference v))

/-- The path, followed from the declaration `d`, passes some of its names and stops at the next. -/
def PathStops (types : List Declaration) (owner : Declaration) (field : Field) (v : Validation)
    (nested : Bool) (d : Declaration) (path : List String) (fault : SemanticError) : Prop :=
  ∃ before name after current, path = before ++ name :: after ∧ Enters types d before current ∧
    StopsAt types owner field v current name (nested || !before.isEmpty) after fault

/-- Why a comparison of a field is rejected. -/
inductive PeerFault (types : List Declaration) (owner : Declaration) (field : Field)
    (v : Validation) : SemanticError → Prop where
  /-- The path stops at one of its names. -/
  | path {fault : SemanticError} :
      PathStops types owner field v false owner
        (Analysis.peerPath (Analysis.peerReference v)) fault →
      PeerFault types owner field v fault
  /-- The path leads to a field that does not compare with this one. -/
  | mismatched {target : Field} :
      LeadsTo types owner (Analysis.peerPath (Analysis.peerReference v)) target →
      ¬ ComparesWith field.fieldType target.fieldType →
      PeerFault types owner field v
        (.mismatchedTypes owner.name field.name (Analysis.peerReference v))
  /-- It leads to one that does, and the operation is not legal for this field. -/
  | illegal {target : Field} :
      LeadsTo types owner (Analysis.peerPath (Analysis.peerReference v)) target →
      ComparesWith field.fieldType target.fieldType →
      v.operation.isLegalForType field.fieldType = false →
      PeerFault types owner field v
        (.invalidOperation owner.name field.name v.operation field.type)
  /-- The operation is legal, and the peer is in a container or optional. -/
  | contained {target : Field} :
      LeadsTo types owner (Analysis.peerPath (Analysis.peerReference v)) target →
      ComparesWith field.fieldType target.fieldType →
      v.operation.isLegalForType field.fieldType = true →
      (target.fieldType.shape ≠ .plain ∨ target.fieldType.optional = true) →
      PeerFault types owner field v
        (.invalidOperation owner.name field.name v.operation target.type)

/-! ### Following a path that stops -/

theorem Declaration.field?_eq_none_iff {d : Declaration} {name : String} :
    d.field? name = none ↔ ∀ f ∈ d.fields, f.name ≠ name := by
  simp [Declaration.field?]

theorem FieldType.isBare_eq_false_iff {type : FieldType} :
    type.isBare = false ↔ type.shape ≠ .plain ∨ type.optional = true := by
  rw [← Bool.not_eq_true, isBare_iff, not_and_or, Bool.not_eq_false]

namespace Analysis

theorem peerPath_ne_nil (reference : String) : peerPath reference ≠ [] := by
  simp [peerPath]

variable {types : List Declaration} {owner : Declaration} {field : Field} {v : Validation}
  {fault : SemanticError}

/-- A path stops at a name that is no field, or goes on behind a field that cannot be entered. -/
theorem stopsAt_iff {current : Declaration} {name : String} {nested : Bool} {after : List String} :
    StopsAt types owner field v current name nested after fault ↔
      (current.field? name = none ∧
        fault = Site.undefined ⟨owner, field, v.operation⟩ (peerReference v) nested) ∨
      (after ≠ [] ∧ ∃ found, current.field? name = some found ∧
        enterField (Scope.of types) ⟨owner, field, v.operation⟩ (peerReference v) current found =
          .error fault) := by
  constructor
  · intro h
    cases h with
    | missingFirst hmissing => exact .inl ⟨Declaration.field?_eq_none_iff.2 hmissing, rfl⟩
    | missingLater hmissing => exact .inl ⟨Declaration.field?_eq_none_iff.2 hmissing, rfl⟩
    | primitive hafter hfirst hcategory =>
      refine .inr ⟨hafter, _, Declaration.field?_eq_some_iff.2 hfirst, ?_⟩
      simp [enterField, FieldType.isPrimitive_iff.2 hcategory, Site.undefined]
    | contained hafter hfirst hcategory hcontained =>
      refine .inr ⟨hafter, _, Declaration.field?_eq_some_iff.2 hfirst, ?_⟩
      simp [enterField, FieldType.isPrimitive_eq_false_iff.2 hcategory,
        FieldType.isBare_eq_false_iff.2 hcontained, Site.illegal]
    | unresolved hafter hfirst hcategory hshape hoptional hnone =>
      refine .inr ⟨hafter, _, Declaration.field?_eq_some_iff.2 hfirst, ?_⟩
      have hfind := Option.eq_none_iff_forall_ne_some.2 hnone
      simp [enterField, FieldType.isPrimitive_eq_false_iff.2 hcategory,
        FieldType.isBare_iff.2 ⟨hshape, hoptional⟩, hfind, Site.undefined]
  · rintro (⟨hnone, rfl⟩ | ⟨hafter, found, hfound, henter⟩)
    · have hmissing := Declaration.field?_eq_none_iff.1 hnone
      cases nested with
      | false => exact .missingFirst hmissing
      | true => exact .missingLater hmissing
    · have hfirst := Declaration.field?_eq_some_iff.1 hfound
      unfold enterField at henter
      split_ifs at henter with hprim hbare
      · cases henter
        exact .primitive hafter hfirst (FieldType.isPrimitive_iff.1 hprim)
      · cases henter
        exact .contained hafter hfirst (FieldType.isPrimitive_eq_false_iff.1 (by simpa using hprim))
          (FieldType.isBare_eq_false_iff.1 (by simpa using hbare))
      · obtain ⟨hshape, hoptional⟩ := FieldType.isBare_iff.1 (by simpa using hbare)
        split at henter
        case h_1 hnone =>
          cases henter
          exact .unresolved hafter hfirst
            (FieldType.isPrimitive_eq_false_iff.1 (by simpa using hprim)) hshape hoptional
            (Option.eq_none_iff_forall_ne_some.1 hnone)
        case h_2 => cases henter

/-- A name leads on exactly if it is a field that can be entered. -/
theorem enters_cons_iff {site : Site} {reference name : String} {names : List String}
    {d reached : Declaration} :
    Enters types d (name :: names) reached ↔ ∃ found next, d.field? name = some found ∧
      enterField (Scope.of types) site reference d found = .ok next ∧
      Enters types next names reached := by
  simp only [Declaration.field?_eq_some_iff, enterField_eq_ok_iff]
  constructor
  · intro h
    cases h with
    | hop hfirst hcategory hshape hoptional hnext hnames =>
      exact ⟨_, _, hfirst, ⟨hcategory, hshape, hoptional, hnext⟩, hnames⟩
  · rintro ⟨found, next, hfirst, ⟨hcategory, hshape, hoptional, hnext⟩, hnames⟩
    exact .hop hfirst hcategory hshape hoptional hnext hnames

/-- A path stops at its first name, or leads on and stops later. -/
theorem pathStops_cons_iff (site : Site) (reference : String) {nested : Bool} {d : Declaration}
    {name : String} {rest : List String} :
    PathStops types owner field v nested d (name :: rest) fault ↔
      StopsAt types owner field v d name nested rest fault ∨
      ∃ found next, d.field? name = some found ∧
        enterField (Scope.of types) site reference d found = .ok next ∧
        PathStops types owner field v true next rest fault := by
  constructor
  · rintro ⟨before, last, after, current, hpath, henters, hstops⟩
    cases before with
    | nil =>
      cases hpath
      cases henters
      exact .inl (by simpa using hstops)
    | cons _ before =>
      cases hpath
      obtain ⟨found, next, hfound, hnext, hrest⟩ := enters_cons_iff.1 henters
      exact .inr ⟨found, next, hfound, hnext, before, last, after, current, rfl, hrest,
        by simpa using hstops⟩
  · rintro (hstops | ⟨found, next, hfound, hnext, before, last, after, current, rfl, hrest, hstops⟩)
    · exact ⟨[], name, rest, d, rfl, .here, by simpa using hstops⟩
    · exact ⟨name :: before, last, after, current, rfl,
        enters_cons_iff.2 ⟨found, next, hfound, hnext, hrest⟩, by simpa using hstops⟩

theorem ne_nil_of_pathStops {nested : Bool} {d : Declaration} {path : List String}
    (h : PathStops types owner field v nested d path fault) : path ≠ [] := by
  obtain ⟨before, name, after, current, rfl, -⟩ := h
  simp

/-- **A path is refused with the fault of the name that it stops at.** -/
theorem followPath_eq_error_iff {nested : Bool} {d : Declaration} {path : List String}
    (hpath : path ≠ []) :
    followPath (enterField (Scope.of types) ⟨owner, field, v.operation⟩ (peerReference v))
        (Site.undefined ⟨owner, field, v.operation⟩ (peerReference v)) nested d path =
          .error fault ↔
      PathStops types owner field v nested d path fault := by
  induction path generalizing d nested with
  | nil => exact absurd rfl hpath
  | cons name rest ih =>
    rw [pathStops_cons_iff ⟨owner, field, v.operation⟩ (peerReference v), stopsAt_iff, followPath]
    cases hfound : d.field? name with
    | none => simp [eq_comm (a := fault)]
    | some found =>
      by_cases hrest : rest = []
      · have hnot : ∀ next, ¬ PathStops types owner field v true next rest fault :=
          fun next h => ne_nil_of_pathStops h hrest
        subst hrest
        simp [hnot]
      · cases hnext : enterField (Scope.of types) ⟨owner, field, v.operation⟩ (peerReference v)
            d found with
        | error stop => simp [hrest, hnext]
        | ok next => simp [hrest, hnext, ih hrest]

theorem findPeer_eq_error_iff :
    findPeer (Scope.of types) ⟨owner, field, v.operation⟩ (peerReference v) = .error fault ↔
      PathStops types owner field v false owner (peerPath (peerReference v)) fault :=
  followPath_eq_error_iff (peerPath_ne_nil _)

/-- **A peer is refused with the faults of its comparison.** -/
theorem resolvePeer_eq_error_iff :
    resolvePeer (Scope.of types) ⟨owner, field, v.operation⟩ field.fieldType v = .error fault ↔
      PeerFault types owner field v fault := by
  have hleads : ∀ target,
      findPeer (Scope.of types) ⟨owner, field, v.operation⟩ (peerReference v) = .ok target ↔
        LeadsTo types owner (peerPath (peerReference v)) target := fun _ => findPeer_eq_ok_iff
  unfold resolvePeer
  simp only
  constructor
  · intro h
    split at h
    case h_1 stop hfind =>
      cases h
      exact .path (findPeer_eq_error_iff.1 hfind)
    case h_2 target hfind =>
      have hpath := (hleads target).1 hfind
      split_ifs at h with hcomparable hlegal hbare
      · cases h
        exact .mismatched hpath fun hcompares => by simp [comparable_iff.2 hcompares] at hcomparable
      · cases h
        exact .illegal hpath (comparable_iff.1 (by simpa using hcomparable)) (by simpa using hlegal)
      · cases h
        exact .contained hpath (comparable_iff.1 (by simpa using hcomparable))
          (by simpa using hlegal) (FieldType.isBare_eq_false_iff.1 (by simpa using hbare))
  · intro h
    cases h with
    | path hpath => simp [findPeer_eq_error_iff.2 hpath]
    | mismatched hpath hnot =>
      have hcomparable := Bool.eq_false_iff.2 fun h => hnot (comparable_iff.1 h)
      simp [(hleads _).2 hpath, hcomparable]
    | illegal hpath hcompares hlegal =>
      simp [(hleads _).2 hpath, comparable_iff.2 hcompares, hlegal, Site.illegal]
    | contained hpath hcompares hlegal hcontained =>
      simp [(hleads _).2 hpath, comparable_iff.2 hcompares, hlegal,
        FieldType.isBare_eq_false_iff.2 hcontained, Site.illegal]

end Analysis

/-! ### Faults of an entry -/

/-- Why an entry is rejected on a field. -/
inductive EntryFault (types : List Declaration) (owner : Declaration) (field : Field)
    (v : Validation) : SemanticError → Prop where
  /-- A field of a declared type understands nothing but `required`, and that not in a container. -/
  | nested : field.fieldType.category = .other →
      (v.operation ≠ .required ∨ field.fieldType.shape ≠ .plain) →
      EntryFault types owner field v
        (.invalidOperation owner.name field.name v.operation field.type)
  /-- A comparison has the fault of its path or of its peer. -/
  | compared {fault : SemanticError} : field.fieldType.category ≠ .other →
      v.operation.comparesFields = true → PeerFault types owner field v fault →
      EntryFault types owner field v fault
  /-- Any other operation has to be legal for the field. -/
  | illegal : field.fieldType.category ≠ .other → v.operation.comparesFields = false →
      v.operation.isLegalForType field.fieldType = false →
      EntryFault types owner field v
        (.invalidOperation owner.name field.name v.operation field.type)
  /-- A legal operation has to be able to read its targets; the first other target is named. -/
  | target {value : String} : field.fieldType.category ≠ .other →
      v.operation.comparesFields = false → v.operation.isLegalForType field.fieldType = true →
      AllBefore (Analysis.Readable v.operation field.fieldType) v.values value →
      ¬ Analysis.Readable v.operation field.fieldType value →
      EntryFault types owner field v (.invalidTarget owner.name field.name v.operation value
        (TargetKind.of v.operation field.fieldType))

namespace Analysis

variable {types : List Declaration} {owner : Declaration} {field : Field} {v : Validation}

/-- The first unreadable target is the one with only readable ones before it. -/
theorem find?_unreadable_eq_some_iff {operation : Operation} {type : FieldType}
    {values : List String} {value : String} :
    (values.find? fun value => ((TargetKind.of operation type).read value).isNone) = some value ↔
      AllBefore (Readable operation type) values value ∧ ¬ Readable operation type value := by
  have hread : ∀ value, ((TargetKind.of operation type).read value).isNone = true ↔
      ¬ Readable operation type value := by
    intro value
    rw [Readable, ← Option.ne_none_iff_exists', not_not, Option.isNone_iff_eq_none]
  have hsome : ∀ value, (!((TargetKind.of operation type).read value).isNone) = true ↔
      Readable operation type value := by
    intro value
    rw [Bool.not_eq_true', ← Bool.not_eq_true, hread, not_not]
  rw [List.find?_eq_some_iff_append, hread, and_comm]
  simp only [hsome, AllBefore]

/-- **A validation is rejected with the faults of its entry.** -/
theorem checkValidation_eq_error_iff {fault : SemanticError} :
    checkValidation (Scope.of types) owner field v = .error fault ↔
      EntryFault types owner field v fault := by
  constructor
  · intro h
    unfold checkValidation at h
    simp only at h
    split_ifs at h with hprim hreq hcmp hlegal
    · have hcategory := FieldType.isPrimitive_eq_false_iff.1 (by simpa using hprim)
      cases h
      rw [not_and_or] at hreq
      exact .nested hcategory hreq
    · have hcategory := FieldType.isPrimitive_iff.1 (by simpa using hprim)
      exact .compared hcategory hcmp (resolvePeer_eq_error_iff.1 (map_eq_error_iff.1 h))
    · have hcategory := FieldType.isPrimitive_iff.1 (by simpa using hprim)
      cases h
      exact .illegal hcategory (by simpa using hcmp) (by simpa using hlegal)
    · have hcategory := FieldType.isPrimitive_iff.1 (by simpa using hprim)
      split at h
      case h_1 value hfind =>
        cases h
        obtain ⟨hbefore, hbad⟩ := find?_unreadable_eq_some_iff.1 hfind
        exact .target hcategory (by simpa using hcmp) (by simpa using hlegal) hbefore hbad
      case h_2 => cases h
  · intro h
    cases h with
    | nested hcategory hnot =>
      have hnot := not_and_or.2 hnot
      simp [checkValidation, FieldType.isPrimitive_eq_false_iff.2 hcategory, hnot, Site.illegal]
    | compared hcategory hcmp hpeer =>
      have hresolve := resolvePeer_eq_error_iff.2 hpeer
      simp [checkValidation, FieldType.isPrimitive_iff.2 hcategory, hcmp, hresolve, Except.map]
    | illegal hcategory hcmp hlegal =>
      simp [checkValidation, FieldType.isPrimitive_iff.2 hcategory, hcmp, hlegal, Site.illegal]
    | target hcategory hcmp hlegal hbefore hbad =>
      have hfind := find?_unreadable_eq_some_iff.2 ⟨hbefore, hbad⟩
      simp [checkValidation, FieldType.isPrimitive_iff.2 hcategory, hcmp, hlegal, hfind]

end Analysis

/-- An entry has a fault exactly if it is not permitted. -/
theorem exists_entryFault_iff {types : List Declaration} {owner : Declaration} {field : Field}
    {v : Validation} :
    (∃ fault, EntryFault types owner field v fault) ↔ ¬ Permitted types owner field v := by
  simp only [← Analysis.checkValidation_eq_error_iff, ← Analysis.exists_checkValidation_eq_ok_iff]
  cases Analysis.checkValidation (Scope.of types) owner field v <;> simp

end FieldRules
