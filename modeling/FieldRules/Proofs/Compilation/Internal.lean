import FieldRules.Compilation
import FieldRules.Proofs.Analysis.Faults
import FieldRules.Proofs.Condition.Build
import FieldRules.Proofs.Schedule

/-!
# Internal faults

An internal fault says that the tables of the library do not fit each other: a rule has no check, a
target no literal, or several tests no connective. `compile_never_internal` says that declarations
do not lead to such a fault. What the analysis rejects it rejects with a fault of a tag or of the
declarations, and whatever it accepts has conditions for all its rules.
-/

namespace FieldRules

/-- The fault lies in the library, whether or not it is reported at the place of a declaration. -/
def Error.IsInternal : Error → Prop
  | .internal _ => True
  | .located _ inner => inner.IsInternal
  | .tag .. | .semantic _ => False

/-- If the computation fails, its fault does not lie in the library. -/
def NeverInternal {α : Type} (x : Except Error α) : Prop :=
  ∀ fault, x = .error fault → ¬ fault.IsInternal

theorem Error.not_isInternal_tag_at {owner field : String} {fault : TagError}
    {location : Option SourceLocation} :
    ¬ ((Error.tag owner field fault).at? location).IsInternal := by
  cases location <;> exact id

theorem Error.not_isInternal_semantic_at {fault : SemanticError}
    {location : Option SourceLocation} :
    ¬ ((Error.semantic fault).at? location).IsInternal := by
  cases location <;> exact id

/-! ### Computations made of others -/

section

variable {α β : Type}

theorem NeverInternal.ok {a : α} : NeverInternal (.ok a) := fun _ h => nomatch h

theorem NeverInternal.map {f : α → β} {x : Except Error α} (h : NeverInternal x) :
    NeverInternal (x.map f) := fun fault hfault => h fault (map_eq_error_iff.1 hfault)

theorem NeverInternal.bind {f : α → Except Error β} {x : Except Error α} (hx : NeverInternal x)
    (hf : ∀ a, x = .ok a → NeverInternal (f a)) : NeverInternal (x >>= f) := by
  intro fault h
  rcases bind_eq_error_iff.1 h with h | ⟨a, ha, h⟩
  · exact hx fault h
  · exact hf a ha fault h

theorem NeverInternal.mapM {f : α → Except Error β} {xs : List α}
    (h : ∀ x ∈ xs, NeverInternal (f x)) : NeverInternal (xs.mapM f) := by
  intro fault hfault
  obtain ⟨x, hx, hfault⟩ := exists_mem_of_mapM_eq_error hfault
  exact h x hx fault hfault

theorem NeverInternal.collect {schedule : Schedule} {f : α → Except Error β} {xs : List α}
    (h : ∀ x ∈ xs, NeverInternal (f x)) : NeverInternal (schedule.collect (xs.map f)) := by
  intro fault hfault
  obtain ⟨x, hx, hfault⟩ := Schedule.exists_mem_of_collect_map_eq_error hfault
  exact h x hx fault hfault

end

/-! ### The analysis -/

theorem neverInternal_build (types : List Declaration) : NeverInternal (Scope.build types) := by
  intro fault h
  obtain ⟨inner, rfl⟩ := Scope.build_eq_error h
  exact id

theorem neverInternal_analyze (types : List Declaration) : NeverInternal (analyze types) := by
  intro fault h
  rcases fault_of_analyze h with ⟨inner, location, rfl⟩ | ⟨owner, -, field, -, inner, -, rfl⟩
  · exact Error.not_isInternal_semantic_at
  · exact Error.not_isInternal_tag_at

/-! ### The validators -/

namespace Validator

/-- A rule that fits its field has a check, or needs none. -/
theorem exists_checkBlock_eq_ok {field : Field} {type : FieldType} {rule : Rule}
    (h : rule.Fits type) : ∃ block, checkBlock field type rule = .ok block := by
  obtain ⟨body, condition, hbuild, hexpr⟩ := Condition.exists_builds_of_fits field.name h
  unfold checkBlock
  simp only [hbuild, hexpr]
  exact ⟨_, rfl⟩

theorem neverInternal_checkBlock {field : Field} {type : FieldType} {rule : Rule}
    (h : rule.Fits type) : NeverInternal (checkBlock field type rule) := by
  obtain ⟨block, hblock⟩ := exists_checkBlock_eq_ok h
  rw [hblock]
  exact .ok

theorem neverInternal_delegateBlocks {scope : Scope} {owner : Declaration} {field : Field}
    {type : FieldType} : NeverInternal (delegateBlocks scope owner field type) := by
  unfold delegateBlocks
  split_ifs
  · exact .ok
  · split
    · exact .ok
    · exact .ok
  · split
    · exact .ok
    · rintro _ ⟨⟩
      exact Error.not_isInternal_semantic_at

/-- A declaration whose rules fit their fields has a validator, or a nested type has none. -/
theorem neverInternal_ofDeclaration (scope : Scope) {d : Declaration}
    (h : ∀ field ∈ d.fields, field.fieldType.isPrimitive = true →
      ∀ rule ∈ field.rules, rule.Fits field.fieldType) :
    NeverInternal (ofDeclaration scope d) := by
  refine .map (.mapM fun field hfield => ?_)
  unfold fieldBlocks
  dsimp only
  split_ifs with hprim
  · exact .map (.mapM fun rule hrule => neverInternal_checkBlock (h field hfield hprim rule hrule))
  · exact .map neverInternal_delegateBlocks

end Validator

theorem neverInternal_generateAll (options : Options) (scope : Scope) (schedule : Schedule)
    (h : ∀ d ∈ scope.types, ∀ field ∈ d.fields, field.fieldType.isPrimitive = true →
      ∀ rule ∈ field.rules, rule.Fits field.fieldType) :
    NeverInternal (generateAll options scope schedule) := by
  refine .collect fun d hd => .map ?_
  exact Validator.neverInternal_ofDeclaration scope (h d (List.mem_filter.1 hd).1)

theorem neverInternal_generateAll_of_analyze {types analyzed : List Declaration} {scope : Scope}
    (options : Options) (schedule : Schedule) (h : analyze types = .ok analyzed)
    (hscope : Scope.build analyzed = .ok scope) :
    NeverInternal (generateAll options scope schedule) := by
  obtain ⟨-, rfl⟩ := Scope.build_eq_ok_iff.1 hscope
  refine neverInternal_generateAll options _ schedule fun d hd field hfield hprim rule hrule => ?_
  exact fits_of_analyze h hd hfield hprim hrule

/-- **Accepted declarations compile without an internal fault.** Every rule that the analysis has
attached to a primitive field has a condition with an expression. So a declaration by itself, in any
scope, all declarations together and the whole compilation can fail, but not in the library, however
the work is scheduled. -/
theorem compile_never_internal (types : List Declaration) :
    (∀ analyzed, analyze types = .ok analyzed →
      (∀ d ∈ analyzed, ∀ field ∈ d.fields, field.fieldType.isPrimitive = true →
        ∀ rule ∈ field.rules, ∃ condition e,
          Condition.build field.name field.fieldType rule = .ok condition ∧
            condition.expr = .ok e) ∧
      (∀ scope, ∀ d ∈ analyzed, NeverInternal (Validator.ofDeclaration scope d)) ∧
      (∀ options scope schedule, Scope.build analyzed = .ok scope →
        NeverInternal (generateAll options scope schedule))) ∧
    ∀ options schedule, NeverInternal (compile types options schedule) := by
  refine ⟨fun analyzed h => ⟨?_, ?_, ?_⟩, fun options schedule => ?_⟩
  · intro d hd field hfield hprim rule hrule
    have hfits := fits_of_analyze h hd hfield hprim hrule
    obtain ⟨body, condition, hbuild, hexpr⟩ := Condition.exists_builds_of_fits field.name hfits
    exact ⟨condition, _, hbuild, hexpr⟩
  · intro scope d hd
    refine Validator.neverInternal_ofDeclaration scope fun field hfield hprim rule hrule => ?_
    exact fits_of_analyze h hd hfield hprim hrule
  · intro options scope schedule hscope
    exact neverInternal_generateAll_of_analyze options schedule h hscope
  · refine .bind (neverInternal_analyze types) fun analyzed h => ?_
    refine .bind (neverInternal_build analyzed) fun scope hscope => ?_
    exact .map (neverInternal_generateAll_of_analyze options schedule h hscope)

/-- An optional text with a list of targets, and a small number with a bound. -/
theorem account_never_internal :
    ∃ analyzed,
      analyze [⟨"Account", "", none, [⟨"role", "Option<String>", "in='user' 'admin'", []⟩,
        ⟨"age", "u8", "gte=18", []⟩], false⟩] = .ok analyzed ∧
      ∃ d ∈ analyzed, ∃ field ∈ d.fields, field.fieldType.isPrimitive = true ∧
        ∃ rule ∈ field.rules, ∃ condition e,
          Condition.build field.name field.fieldType rule = .ok condition ∧
            condition.expr = .ok e := by
  have haccepted : analyze [⟨"Account", "", none,
      [⟨"role", "Option<String>", "in='user' 'admin'", []⟩, ⟨"age", "u8", "gte=18", []⟩],
      false⟩] =
    .ok [⟨"Account", "", none,
      [⟨"role", "Option<String>", "in='user' 'admin'",
        [⟨⟨.member false, ["user", "admin"]⟩, none⟩]⟩,
        ⟨"age", "u8", "gte=18", [⟨⟨.compare .ge, ["18"]⟩, none⟩]⟩], true⟩] := by
    decide +kernel
  refine ⟨_, haccepted, _, List.mem_cons_self, _, List.mem_cons_self, by decide +kernel, _,
    List.mem_cons_self, ?_⟩
  exact ((compile_never_internal _).1 _ haccepted).1 _ List.mem_cons_self _ List.mem_cons_self
    (by decide +kernel) _ List.mem_cons_self

end FieldRules
