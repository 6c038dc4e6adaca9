import FieldRules.Proofs.Analysis.Annotation
import FieldRules.Proofs.Analysis.Paths
import FieldRules.Proofs.Compilation.Order
import Mathlib.Data.List.Count

/-!
# Separate compilation

The validator of a declaration reads other declarations: a comparison follows a path through their
fields, and a field of a declared type calls the validator of that type. All that it takes from them
is what they are without their tags, and whether they have validations at all. So the tags of the
others can be changed, as long as no declaration gets its first validation or loses its last one,
and the validator stays the same to the letter: `separate_compilation`.
-/

namespace FieldRules

variable {types types' analyzed analyzed' : List Declaration} {options : Options}
  {schedule schedule' : Schedule} {validators : List GeneratedValidator} {d : Declaration}

/-- The validator has been written for the declaration. -/
def GeneratedValidator.IsOf (v : GeneratedValidator) (d : Declaration) : Prop :=
  v.typeName = d.name ∧ v.package = d.package

instance (v : GeneratedValidator) (d : Declaration) : Decidable (v.IsOf d) :=
  inferInstanceAs (Decidable (_ ∧ _))

/-! ### The analysed declarations -/

/-- A declaration is annotated in the same way among others with other tags. -/
theorem exists_annotates_of_untagged
    (hsame : types.map Declaration.untagged = types'.map Declaration.untagged)
    (h : analyze types = .ok analyzed) (h' : analyze types' = .ok analyzed') (hd : d ∈ types)
    (hd' : d ∈ types') :
    ∃ a ∈ analyzed, a ∈ analyzed' ∧ Analysis.Annotates (Scope.of types) d a := by
  obtain ⟨-, hall⟩ := analyze_eq_ok_iff_annotates.1 h
  obtain ⟨-, hall'⟩ := analyze_eq_ok_iff_annotates.1 h'
  obtain ⟨a, ha, hannotates⟩ := forall₂_mem_right hall.flip hd
  obtain ⟨a', ha', hannotates'⟩ := forall₂_mem_right hall'.flip hd'
  have hunique : a = a' :=
    Analysis.Annotates.unique hannotates (Analysis.Annotates.of_untagged hsame.symm hannotates')
  exact ⟨a, ha, hunique ▸ ha', hannotates⟩

/-! ### The validators -/

/-- The declarations are the same but for their tags and rules, and both have validations or neither
has. -/
def SameFlags (d d' : Declaration) : Prop :=
  d.untagged = d'.untagged ∧ d.hasValidations = d'.hasValidations

theorem forall₂_sameFlags
    (hsame : analyzed.map Declaration.untagged = analyzed'.map Declaration.untagged)
    (hflags : analyzed.map (·.hasValidations) = analyzed'.map (·.hasValidations)) :
    List.Forall₂ SameFlags analyzed analyzed' := by
  induction analyzed generalizing analyzed' with
  | nil =>
    rw [List.map_nil, eq_comm, List.map_eq_nil_iff] at hsame
    rw [hsame]
    exact .nil
  | cons d ds ih =>
    cases analyzed' with
    | nil => cases hsame
    | cons d' ds' =>
      obtain ⟨hd, hds⟩ := List.cons_eq_cons.1 hsame
      obtain ⟨hflag, hflags⟩ := List.cons_eq_cons.1 hflags
      exact .cons ⟨hd, hflag⟩ (ih hds hflags)

/-- Fields are delegated to the same types. -/
theorem delegateTarget_of_sameFlags (h : List.Forall₂ SameFlags analyzed analyzed')
    {owner target : Declaration} {type : FieldType}
    (htarget : Validator.delegateTarget (Scope.of analyzed) owner type = some target) :
    ∃ target', Validator.delegateTarget (Scope.of analyzed') owner type = some target' ∧
      target'.name = target.name := by
  obtain ⟨hdenotes, hvalidated⟩ := Validator.delegateTarget_eq_some_iff.1 htarget
  obtain ⟨target', hdenotes', hsame, hflag⟩ :=
    hdenotes.of_forall₂ h fun _ _ hR => Declaration.key_eq_of_untagged hR.1
  refine ⟨target', Validator.delegateTarget_eq_some_iff.2 ⟨hdenotes', hflag ▸ hvalidated⟩, ?_⟩
  exact (congrArg Declaration.name hsame : target.untagged.name = target'.untagged.name).symm

/-- So a declaration has the same validator among both. -/
theorem generate_of_sameFlags (h : List.Forall₂ SameFlags analyzed analyzed') :
    generate options (Scope.of analyzed) = generate options (Scope.of analyzed') := by
  have hflip : List.Forall₂ SameFlags analyzed' analyzed :=
    h.flip.imp fun _ _ hR => ⟨hR.1.symm, hR.2.symm⟩
  refine generate_congr_of_names fun owner type => Option.ext fun name => ?_
  simp only [Option.map_eq_some_iff]
  constructor
  · rintro ⟨target, htarget, rfl⟩
    exact delegateTarget_of_sameFlags h htarget
  · rintro ⟨target, htarget, rfl⟩
    exact delegateTarget_of_sameFlags hflip htarget

/-- One validator is written for a declaration that has validations, and none for any other. -/
theorem filter_isOf_of_generateAll (hkeys : (analyzed.map Declaration.key).Nodup)
    (hd : d ∈ analyzed) (h : generateAll options (Scope.of analyzed) schedule = .ok validators) :
    (d.hasValidations = true ∧ ∃ v, generate options (Scope.of analyzed) d = .ok v ∧
        validators.filter (fun v => v.IsOf d) = [v]) ∨
      d.hasValidations = false ∧ validators.filter (fun v => v.IsOf d) = [] := by
  have hsingle : analyzed.filter (fun e => e.name = d.name ∧ e.package = d.package) = [d] := by
    have honly : ∀ e ∈ analyzed,
        decide (e.name = d.name ∧ e.package = d.package) = (e == d) := by
      intro e he
      rw [Bool.eq_iff_iff, decide_eq_true_iff, beq_iff_eq]
      constructor
      · rintro ⟨hname, hpackage⟩
        have hkey : e.key = d.key := by rw [Declaration.key, Declaration.key, hname, hpackage]
        exact List.inj_on_of_nodup_map hkeys he hd hkey
      · rintro rfl
        exact ⟨rfl, rfl⟩
    rw [List.filter_congr honly, List.filter_beq, List.count_eq_one_of_mem hkeys.of_map hd]
    rfl
  have hstep := List.rel_filter (p := fun e => e.name = d.name ∧ e.package = d.package)
    (q := fun v => v.IsOf d) ?_ (generateAll_eq_ok_iff.1 h)
  · rw [List.filter_comm, hsingle] at hstep
    cases hvalidated : d.hasValidations with
    | true =>
      rw [List.filter_cons_of_pos hvalidated, List.forall₂_cons_left_iff] at hstep
      obtain ⟨v, rest, hv, hrest, hfilter⟩ := hstep
      rw [List.forall₂_nil_left_iff.1 hrest] at hfilter
      exact .inl ⟨rfl, v, hv, hfilter⟩
    | false =>
      rw [List.filter_cons_of_neg (by simp [hvalidated]), List.filter_nil,
        List.forall₂_nil_left_iff] at hstep
      exact .inr ⟨rfl, hstep⟩
  · intro e v hv
    obtain ⟨hname, hpackage, -⟩ := names_of_generate hv
    simp [GeneratedValidator.IsOf, hname, hpackage]

/-- **Separate compilation.** Let two sets of declarations be the same but for tags, and compile,
and let the same declarations have validations in both. A declaration with the same tags in both has
the same validator in both outputs, whatever their schedules: one if a tag of it has an entry that is
not blank, none otherwise. -/
theorem separate_compilation
    (hsame : types.map Declaration.untagged = types'.map Declaration.untagged) (hd : d ∈ types)
    (hd' : d ∈ types') (h : analyze types = .ok analyzed) (h' : analyze types' = .ok analyzed')
    (hflags : analyzed.map (·.hasValidations) = analyzed'.map (·.hasValidations))
    {output output' : Output} (hout : compile types options schedule = .ok output)
    (hout' : compile types' options schedule' = .ok output') :
    ∃ found : Option GeneratedValidator,
      (found.isSome = true ↔ ∃ field ∈ d.fields, Tag.HasEntry field.tag) ∧
      output.validators.filter (fun v => v.IsOf d) = found.toList ∧
      output'.validators.filter (fun v => v.IsOf d) = found.toList := by
  obtain ⟨a, ha, ha', hannotates⟩ := exists_annotates_of_untagged hsame h h' hd hd'
  rw [compile_of_analyze h, map_eq_ok_iff] at hout
  rw [compile_of_analyze h', map_eq_ok_iff] at hout'
  obtain ⟨validators, hvalidators, rfl⟩ := hout
  obtain ⟨validators', hvalidators', rfl⟩ := hout'
  have hanalyzed : analyzed.map Declaration.untagged = analyzed'.map Declaration.untagged := by
    rw [← map_untagged_of_analyze h, hsame, map_untagged_of_analyze h']
  have hgenerate : generate options (Scope.of analyzed) = generate options (Scope.of analyzed') :=
    generate_of_sameFlags (forall₂_sameFlags hanalyzed hflags)
  have hfound := filter_isOf_of_generateAll (nodup_keys_of_analyze h) ha hvalidators
  have hfound' := filter_isOf_of_generateAll (nodup_keys_of_analyze h') ha' hvalidators'
  have hannotated := hannotates.annotationOf
  have hisOf : ∀ v : GeneratedValidator, v.IsOf a ↔ v.IsOf d := fun v => by
    rw [GeneratedValidator.IsOf, GeneratedValidator.IsOf, hannotated.name, hannotated.package]
  simp only [hisOf, ← hgenerate] at hfound hfound'
  rw [← hannotated.hasValidations]
  rcases hfound with ⟨hvalidated, v, hv, hfilter⟩ | ⟨hvalidated, hfilter⟩
  · rcases hfound' with ⟨-, v', hv', hfilter'⟩ | ⟨hnone, -⟩
    · cases hv.symm.trans hv'
      exact ⟨some v, by simp [hvalidated], hfilter, hfilter'⟩
    · cases hvalidated.symm.trans hnone
  · rcases hfound' with ⟨hsome, -⟩ | ⟨-, hfilter'⟩
    · cases hvalidated.symm.trans hsome
    · exact ⟨none, by simp [hvalidated], hfilter, hfilter'⟩

/-- The declaration that an order reaches, with other tags. -/
def retaggedAddress : Declaration :=
  ⟨"Address", "people", none, [⟨"zip", "u32", "gte=10, lt=99999", []⟩], false⟩

/-- The validator of the order is the same among both, although one of its checks reaches into the
other declaration, and calls the validator of that. -/
theorem order_compiled_separately :
    [orderDeclaration, addressDeclaration].map Declaration.untagged =
      [orderDeclaration, retaggedAddress].map Declaration.untagged ∧
    ∃ output output' v, compile [orderDeclaration, addressDeclaration] {} = .ok output ∧
      compile [orderDeclaration, retaggedAddress] {} = .ok output' ∧
      v.functionName = "validate_order" ∧
      output.validators.filter (fun v => v.IsOf orderDeclaration) = [v] ∧
      output'.validators.filter (fun v => v.IsOf orderDeclaration) = [v] := by
  have hsame : [orderDeclaration, addressDeclaration].map Declaration.untagged =
      [orderDeclaration, retaggedAddress].map Declaration.untagged := rfl
  have heval : ((compile [orderDeclaration, addressDeclaration] {}).toOption.any fun output =>
      (output.validators.filter fun v => v.IsOf orderDeclaration).map (·.functionName) =
        ["validate_order"]) = true := by
    decide +kernel
  have hcompiles : ((compile [orderDeclaration, retaggedAddress] {}).toOption.any fun _ =>
      true) = true := by
    decide +kernel
  have hflags : ((analyze [orderDeclaration, addressDeclaration]).toOption.any fun analyzed =>
      (analyze [orderDeclaration, retaggedAddress]).toOption.any fun analyzed' =>
        analyzed.map (·.hasValidations) = analyzed'.map (·.hasValidations)) = true := by
    decide +kernel
  obtain ⟨output, hout, hname⟩ := exists_eq_ok_of_any heval
  obtain ⟨output', hout', -⟩ := exists_eq_ok_of_any hcompiles
  have hname := of_decide_eq_true hname
  obtain ⟨analyzed, hanalyzed, hflags⟩ := exists_eq_ok_of_any hflags
  obtain ⟨analyzed', hanalyzed', hflags⟩ := exists_eq_ok_of_any hflags
  obtain ⟨found, -, hfilter, hfilter'⟩ := separate_compilation hsame List.mem_cons_self
    List.mem_cons_self hanalyzed hanalyzed' (of_decide_eq_true hflags) hout hout'
  rw [hfilter] at hname
  cases found with
  | none => cases hname
  | some v =>
    exact ⟨hsame, output, output', v, hout, hout', List.singleton_inj.1 hname, hfilter,
      hfilter'⟩

end FieldRules
