import FieldRules.Proofs.Analysis.Attached
import FieldRules.Proofs.Analysis.Untagged
import FieldRules.Proofs.Compilation.Stages

/-!
# Paths of peers

The rules that the analysis attaches change neither the names of fields nor their types, nor what a
reference means. So a path leads through the annotated declarations to the same fields, and the path
of every attached peer does (`leadsTo_of_analyze`).
-/

namespace FieldRules

variable {types analyzed : List Declaration} {scope : Scope}

namespace Analysis

/-! ### Annotated declarations -/

theorem AnnotatesField.name_eq {owner : Declaration} {field annotated : Field}
    (h : AnnotatesField scope owner field annotated) : annotated.name = field.name := by
  obtain ⟨rules, -, rfl⟩ := h
  rfl

theorem AnnotatesField.fieldType_eq {owner : Declaration} {field annotated : Field}
    (h : AnnotatesField scope owner field annotated) : annotated.fieldType = field.fieldType := by
  obtain ⟨rules, -, rfl⟩ := h
  rfl

/-- The fields have the same names, in the same order. -/
theorem Annotates.names_eq {d annotated : Declaration} (h : Annotates scope d annotated) :
    annotated.fields.map (·.name) = d.fields.map (·.name) := by
  obtain ⟨fields, hfields, rfl⟩ := h
  exact (map_eq_map_of_forall₂ hfields fun _ _ hfield => hfield.name_eq.symm).symm

end Analysis

/-- The analysis changes nothing but what the tags state. -/
theorem map_untagged_of_analyze (h : analyze types = .ok analyzed) :
    types.map Declaration.untagged = analyzed.map Declaration.untagged := by
  obtain ⟨scope, -, hall⟩ := analyze_eq_ok_iff.1 h
  exact map_eq_map_of_forall₂ hall fun _ _ => Analysis.Annotates.untagged_eq

/-! ### Paths -/

/-- A path leads to one field only. -/
theorem LeadsTo.unique {d : Declaration} {path : List String} {target target' : Field}
    (h : LeadsTo types d path target) (h' : LeadsTo types d path target') : target = target' := by
  have hfirst : ∀ {d name field field'}, FirstNamed d name field → FirstNamed d name field' →
      field = field' := by
    intro d name field field' hfield hfield'
    have hfound := Declaration.field?_eq_some_iff.2 hfield
    exact Option.some.inj (hfound.symm.trans (Declaration.field?_eq_some_iff.2 hfield'))
  induction h with
  | last hlast =>
    cases h' with
    | last hlast' => exact hfirst hlast hlast'
    | hop _ _ _ _ _ hrest => exact absurd rfl hrest.ne_nil
  | hop hfield _ _ _ hnext hrest ih =>
    cases h' with
    | last => exact absurd rfl hrest.ne_nil
    | hop hfield' _ _ _ hnext' hrest' =>
      cases hfirst hfield hfield'
      cases Option.some.inj (hnext.symm.trans hnext')
      exact ih hrest'

/-- **The path of a peer leads from the declaration of its rule to the peer.** It is a field of the
category of the field with the rule, neither in a container nor optional. -/
theorem leadsTo_of_analyze (h : analyze types = .ok analyzed) {d : Declaration}
    (hd : d ∈ analyzed) {field : Field} (hfield : field ∈ d.fields) {rule : Rule}
    (hrule : rule ∈ field.rules) {peer : Peer} (hpeer : rule.peer = some peer) :
    ∃ target, LeadsTo analyzed d peer.path target ∧ target.fieldType = peer.type ∧
      peer.type.shape = .plain ∧ peer.type.optional = false ∧
      ComparesWith field.fieldType peer.type := by
  obtain ⟨-, hall⟩ := analyze_eq_ok_iff_annotates.1 h
  obtain ⟨owner, -, howner⟩ := forall₂_mem_right hall hd
  obtain ⟨fields, hfields, hdecl⟩ := id howner
  obtain ⟨source, -, hsource⟩ := forall₂_mem_right hfields (by rwa [hdecl] at hfield)
  obtain ⟨rules, ⟨vs, -, hrules⟩, hannotated⟩ := id hsource
  obtain ⟨v, -, hcheck⟩ := forall₂_mem_right hrules (by rwa [hannotated] at hrule)
  obtain ⟨-, haccepted⟩ := Analysis.checkValidation_eq_ok_iff.1 hcheck
  rw [hpeer] at haccepted
  cases haccepted with
  | compared _ _ hresolve =>
    obtain ⟨target, hfind, hcomparable, -, hbare, rfl⟩ := Analysis.resolvePeer_eq_ok_iff.1 hresolve
    obtain ⟨hshape, hoptional⟩ := FieldType.isBare_iff.1 hbare
    obtain ⟨target', hpath, heq⟩ := (Analysis.findPeer_eq_ok_iff.1 hfind).of_untagged
      (map_untagged_of_analyze h) howner.untagged_eq
    have htype := (Field.fieldType_eq_of_untagged heq).symm
    have hcompares := Analysis.comparable_iff.1 hcomparable
    rw [← hsource.fieldType_eq] at hcompares
    dsimp only
    exact ⟨target', hpath, htype, hshape, hoptional, hcompares⟩

/-- A field is the first one of its name if no two fields have the same name. -/
theorem firstNamed_of_nodup {d : Declaration} (h : (d.fields.map (·.name)).Nodup) {field : Field}
    (hfield : field ∈ d.fields) : FirstNamed d field.name field := by
  obtain ⟨before, after, hfields⟩ := List.append_of_mem hfield
  refine ⟨before, after, hfields, rfl, fun f hf hname => ?_⟩
  rw [hfields, List.map_append, List.nodup_append] at h
  exact h.2.2 _ (List.mem_map_of_mem hf) _ (List.mem_map_of_mem List.mem_cons_self) hname

end FieldRules
