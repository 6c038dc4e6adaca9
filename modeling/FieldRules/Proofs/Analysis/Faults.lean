import FieldRules.Proofs.Analysis.Rules
import FieldRules.Proofs.Tag.Entry

/-!
# Faults of the analysis

The analysis rejects declarations for one of two reasons: they make no sense, or the tag of one of
their fields cannot be read (`fault_of_analyze`). Either fault may be reported at the place of a
declaration, and `Error.unlocated` is the fault without that place.

A tag cannot be read because it cannot be split, or because of the first of its entries that cannot
be read (`Tag.Fault`).

Not every fault of a tag can be reached. A tag with an open quote is not split at all, and the entries
of any other tag have all their quotes closed, so that no entry is ever reported to have a target
that does not end (`never_unterminated`).
-/

namespace FieldRules

/-- The fault without the places that it is reported at. -/
def Error.unlocated : Error → Error
  | .located _ inner => inner.unlocated
  | fault => fault

@[simp] theorem Error.unlocated_at? (fault : Error) (location : Option SourceLocation) :
    (fault.at? location).unlocated = fault.unlocated := by
  cases location <;> rfl

namespace Tag

/-- The tag can be split, and every entry can be read. -/
def IsReadable (tag : String) : Prop :=
  ∃ es, entries tag = .ok es ∧ ∀ e ∈ es, ∃ v, Validation.ofEntry e = .ok v

/-- Why a tag cannot be read. -/
inductive Fault (tag : String) : TagError → Prop where
  /-- It cannot be split. -/
  | split {fault : TagError} : entries tag = .error fault → Fault tag fault
  /-- Its first entry with a fault has this fault. -/
  | entry {es : List String} {e : String} {fault : TagError} : entries tag = .ok es →
      AllBefore (fun e => ∃ v, Validation.ofEntry e = .ok v) es e →
      Validation.ofEntry e = .error fault → Fault tag fault

variable {tag : String}

theorem isReadable_iff : IsReadable tag ↔ ∃ vs, validations tag = .ok vs := by
  simp only [validations_eq_ok_iff, IsReadable, ← exists_forall₂_iff]
  constructor
  · rintro ⟨es, hes, vs, hvs⟩
    exact ⟨vs, es, hes, hvs⟩
  · rintro ⟨vs, es, hes, hvs⟩
    exact ⟨es, hes, vs, hvs⟩

theorem validations_eq_error_iff {fault : TagError} :
    validations tag = .error fault ↔ Fault tag fault := by
  unfold validations
  constructor
  · intro h
    split at h
    case h_1 inner hentries =>
      cases h
      exact .split hentries
    case h_2 es hentries =>
      obtain ⟨e, hbefore, he⟩ := mapM_eq_error_iff_allBefore.1 h
      exact .entry hentries hbefore he
  · intro h
    cases h with
    | split hentries => simp [hentries]
    | entry hentries hbefore he =>
      simp only [hentries]
      exact mapM_eq_error_iff_allBefore.2 ⟨_, hbefore, he⟩

/-- A tag cannot be read if it cannot be split, or if one of its entries cannot be read. -/
theorem fault_of_validations {fault : TagError} (h : validations tag = .error fault) :
    fault = .unbalancedQuote tag ∨
      ∃ es, entries tag = .ok es ∧ ∃ e ∈ es, Validation.ofEntry e = .error fault := by
  cases validations_eq_error_iff.1 h with
  | split hentries =>
    unfold entries at hentries
    split at hentries
    · cases hentries
      exact .inl rfl
    · cases hentries
  | entry hentries hbefore he => exact .inr ⟨_, hentries, _, hbefore.mem, he⟩

/-- No entry of a tag has a target that does not end. -/
theorem ofEntry_ne_unterminated_of_mem_entries {tag e : String} {es : List String}
    (h : entries tag = .ok es) (he : e ∈ es) {op : Operation} {value : String} :
    Validation.ofEntry e ≠ .error (.unterminatedQuote op value) :=
  Validation.ofEntry_ne_unterminated (isPiece_of_mem_entries h he rfl)

theorem validations_ne_unterminated {tag : String} {op : Operation} {value : String} :
    validations tag ≠ .error (.unterminatedQuote op value) := by
  intro h
  rcases fault_of_validations h with hsplit | ⟨es, hes, e, he, hfault⟩
  · cases hsplit
  · exact ofEntry_ne_unterminated_of_mem_entries hes he hfault

end Tag

namespace Analysis

variable {scope : Scope} {owner : Declaration} {field : Field} {fault : Error}

theorem readTag_eq_error_iff :
    readTag owner field = .error fault ↔ ∃ inner, Tag.validations field.tag = .error inner ∧
      fault = (Error.tag owner.name field.name inner).at? owner.location := by
  unfold readTag
  split
  case h_1 inner h => simp [h, eq_comm (a := fault)]
  case h_2 validations h => simp [h]

theorem attachRules_eq_error_iff {validations : List Validation} :
    attachRules scope owner field validations = .error fault ↔
      ∃ inner, validations.mapM (checkValidation scope owner field) = .error inner ∧
        fault = (Error.semantic inner).at? owner.location := by
  unfold attachRules
  split
  case h_1 inner h => simp [h, eq_comm (a := fault)]
  case h_2 rules h => simp [h]

/-- The first pass stops at a tag. -/
theorem fault_of_readTags (h : readTags owner = .error fault) :
    ∃ field ∈ owner.fields, ∃ inner, Tag.validations field.tag = .error inner ∧
      fault = (Error.tag owner.name field.name inner).at? owner.location := by
  rw [readTags, map_eq_error_iff] at h
  obtain ⟨field, hfield, h⟩ := exists_mem_of_mapM_eq_error h
  exact ⟨field, hfield, readTag_eq_error_iff.1 h⟩

/-- The second pass stops at a validation. -/
theorem fault_of_annotate {fields : List (Field × List Validation)}
    (h : annotate scope owner fields = .error fault) :
    ∃ inner, fault = (Error.semantic inner).at? owner.location := by
  rw [annotate, map_eq_error_iff] at h
  obtain ⟨read, -, h⟩ := exists_mem_of_mapM_eq_error h
  obtain ⟨inner, -, rfl⟩ := attachRules_eq_error_iff.1 h
  exact ⟨inner, rfl⟩

end Analysis

/-- Declarations are rejected because they make no sense, or because of the tag of a field. -/
theorem fault_of_analyze {types : List Declaration} {fault : Error}
    (h : analyze types = .error fault) :
    (∃ inner location, fault = (Error.semantic inner).at? location) ∨
      ∃ owner ∈ types, ∃ field ∈ owner.fields, ∃ inner,
        Tag.validations field.tag = .error inner ∧
          fault = (Error.tag owner.name field.name inner).at? owner.location := by
  unfold analyze at h
  split at h
  case h_1 inner hscope =>
    cases h
    obtain ⟨inner, rfl⟩ := Scope.build_eq_error hscope
    exact .inl ⟨inner, none, rfl⟩
  case h_2 scope hscope =>
    split at h
    case h_1 inner hread =>
      cases h
      obtain ⟨owner, howner, hfault⟩ := exists_mem_of_mapM_eq_error hread
      exact .inr ⟨owner, howner, Analysis.fault_of_readTags hfault⟩
    case h_2 read hread =>
      obtain ⟨⟨owner, fields⟩, -, hfault⟩ := exists_mem_of_mapM_eq_error h
      obtain ⟨inner, rfl⟩ := Analysis.fault_of_annotate hfault
      exact .inl ⟨inner, owner.location, rfl⟩

/-- **A target without end is never reported.** No entry of a tag that can be split has this fault,
and so the analysis of declarations does not fail with it, whether or not the fault is reported at
the place of a declaration. -/
theorem never_unterminated :
    (∀ tag es, Tag.entries tag = .ok es → ∀ e ∈ es, ∀ op value,
      Validation.ofEntry e ≠ .error (.unterminatedQuote op value)) ∧
    ∀ types fault, analyze types = .error fault → ∀ owner field op value,
      fault.unlocated ≠ .tag owner field (.unterminatedQuote op value) := by
  constructor
  · intro tag es h e he op value
    exact Tag.ofEntry_ne_unterminated_of_mem_entries h he
  · intro types fault h owner field op value hfault
    rcases fault_of_analyze h with ⟨inner, location, rfl⟩ | ⟨d, -, f, -, inner, hread, rfl⟩
    · rw [Error.unlocated_at?] at hfault
      cases hfault
    · rw [Error.unlocated_at?] at hfault
      cases hfault
      exact Tag.validations_ne_unterminated hread

/-- The third apostrophe belongs to a word where the tag is split, and is never reached where the
targets are read. -/
theorem roles_never_unterminated :
    (Tag.entries "in='a'b', required" = .ok ["in='a'b'", "required"] ∧
      ∀ op value, Validation.ofEntry "in='a'b'" ≠ .error (.unterminatedQuote op value)) ∧
    ∃ fault,
      analyze [⟨"Account", "", some ⟨"account.rs", 3⟩,
        [⟨"role", "String", "in='a'b', required", []⟩], false⟩] = .error fault ∧
      ∀ owner field op value, fault.unlocated ≠ .tag owner field (.unterminatedQuote op value) := by
  have hentries : Tag.entries "in='a'b', required" = .ok ["in='a'b'", "required"] := by decide
  have hfault : analyze [⟨"Account", "", some ⟨"account.rs", 3⟩,
      [⟨"role", "String", "in='a'b', required", []⟩], false⟩] =
    .error (.located ⟨"account.rs", 3⟩
      (.tag "Account" "role" (.invalidQuote (.member false) "'a'b'"))) := by decide +kernel
  constructor
  · exact ⟨hentries, never_unterminated.1 _ _ hentries _ List.mem_cons_self⟩
  · exact ⟨_, hfault, never_unterminated.2 _ _ hfault⟩

end FieldRules
