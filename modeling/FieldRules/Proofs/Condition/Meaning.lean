import FieldRules.Proofs.Literal.Reading

/-!
# What a generated check means

The expression that is built for a rule decides what the validation of the rule demands. There is
one lemma for each operation; each finds the template of the operation, takes the body that is built
from it, and reads off what the body decides. `exists_meaning_of_analyze` puts them together for the
rules that the analysis attaches, under the guard of an optional field.

Fields of floating-point numbers are left out, as expressions about them have no value here.
-/

namespace FieldRules

namespace Condition

variable {name : String} {type : FieldType} {rule : Rule} {rt : Runtime} {env : Env}

/-- The rule has a check, and inside the guard it decides what the operation of the rule demands. -/
def Means (name : String) (type : FieldType) (rule : Rule) : Prop :=
  ∃ body targets, Builds name type rule body ∧
    rule.validation.targets? type = some targets ∧
    ∀ rt env v, (fieldValue name type).eval rt env = some v →
      v.HasShape type.category type.shape →
      body.Decides rt env (rule.validation.operation.Demands rt type.shape targets v)

/-! ### Subjects -/

theorem eval_len {e : Expr} {v : Value} {n : Nat} (hv : e.eval rt env = some v)
    (hn : v.size? rt = some n) : (Expr.len e).eval rt env = some (.scalar (.number n)) := by
  rw [Expr.eval, hv, Option.bind_some, hn]
  rfl

theorem eval_lower {e : Expr} {s : String} (h : e.eval rt env = some (.scalar (.text s))) :
    (Expr.lower e).eval rt env = some (.scalar (.text (Text.lowered s))) := by
  rw [Expr.eval, h]
  rfl

theorem eval_literal {l : Literal} {x : Scalar} (h : l.scalar? = some x) :
    (Expr.literal l).eval rt env = some (.scalar x) := by
  rw [Expr.eval, h]
  rfl

/-- An element is the same whether it is borrowed as a text or not. -/
theorem eval_elementItem {x : Scalar} (h : x.category = type.category) :
    (elementItem type).eval rt { env with element := some x } = some (.scalar x) := by
  unfold elementItem
  split_ifs with howned
  · obtain ⟨s, rfl⟩ := Scalar.exists_text (h.trans howned.1)
    simp only [Expr.eval, Env.get]
    rfl
  · simp only [Expr.eval, Env.get]
    rfl

/-! ### Operations without targets -/

/-- The constant that `required` compares with is the empty value of the category. -/
theorem exists_emptyLiteral {category : Category} (hfloat : category ≠ .float)
    (hother : category ≠ .other) :
    ∃ l y, Template.emptyLiteral category = some l ∧ l.scalar? = some y ∧
      y.category = category ∧ ∀ x : Scalar, x.category = category → (x = y ↔ x.IsEmpty) := by
  cases category with
  | string =>
    refine ⟨_, .text "", rfl, rfl, rfl, fun x hx => ?_⟩
    cases x <;> cases hx
    simp [Scalar.IsEmpty]
  | integer =>
    refine ⟨_, .number 0, rfl, rfl, rfl, fun x hx => ?_⟩
    cases x <;> cases hx
    simp [Scalar.IsEmpty]
  | bool =>
    refine ⟨_, .truth false, rfl, rfl, rfl, fun x hx => ?_⟩
    cases x <;> cases hx
    simp [Scalar.IsEmpty]
  | float => exact absurd rfl hfloat
  | other => exact absurd rfl hother

/-- Values that are not of a declared type can be tested for equality. -/
theorem comparableBy_of_not_isOrder {c : Comparison} {category : Category}
    (hc : c.isOrder = false) (hother : category ≠ .other) :
    Operation.comparableBy c category = true := by
  simp [Operation.comparableBy, hc, Category.isPrimitive, hother]

/-- Numbers can be compared in every way. -/
theorem comparableBy_integer (c : Comparison) : Operation.comparableBy c .integer = true := by
  cases c <;> rfl

theorem means_required (hop : rule.validation.operation = .required)
    (hvalues : rule.validation.values = []) (hfloat : type.category ≠ .float)
    (hother : type.category ≠ .other) : Means name type rule := by
  have htargets : rule.validation.targets? type = some [] := by
    simp only [Validation.targets?, hvalues]
    rfl
  cases hshape : type.shape with
  | plain =>
    obtain ⟨l, y, hl, hy, hcategory, hempty⟩ := exists_emptyLiteral hfloat hother
    have ht : Template.of rule.validation.operation type.category type.shape.kind =
        some (.compared .value .ne (.fixed l) (Template.plainMessage " is required")) := by
      simp only [hop, hshape, Shape.kind, Template.of, Template.required, hl, Option.map_some]
    refine ⟨_, [], builds_constant ht rfl rfl, htargets, fun rt env v hv hshaped => ?_⟩
    rw [hshape] at hshaped
    cases hshaped with
    | plain hx =>
      rw [hop]
      refine (Expr.decides_compare hv (eval_literal hy) (hcategory.trans hx.symm) ?_).congr
        (not_congr (hempty _ hx))
      exact comparableBy_of_not_isOrder rfl (hx ▸ hother)
  | list | dict =>
    have ht : Template.of rule.validation.operation type.category type.shape.kind =
        some (.compared .len .ne (.fixed (.size 0))
          (Template.plainMessage " must not be empty")) := by
      simp only [hop, hshape, Shape.kind, Template.of, Template.required]
    refine ⟨_, [], builds_constant ht rfl rfl, htargets, fun rt env v hv hshaped => ?_⟩
    rw [hshape] at hshaped
    cases hshaped
    rw [hop]
    refine (Expr.decides_compare (eval_len hv rfl) (eval_literal (x := .number 0) rfl) rfl
      (comparableBy_integer .ne)).congr ?_
    simp [Comparison.Holds, Operation.Demands, hshape, Shape.kind]
  | fixedList n =>
    have ht : Template.of rule.validation.operation type.category type.shape.kind =
        some ⟨.value, .always, .nothing, none, Template.plainMessage " is required"⟩ := by
      simp only [hop, hshape, Shape.kind, Template.of, Template.required]
    refine ⟨_, [], builds_always ht rfl rfl, htargets, fun rt env v hv hshaped => ?_⟩
    rw [hshape] at hshaped
    cases hshaped
    rw [hop]
    exact Expr.decides_true.congr (by simp [Operation.Demands, hshape, Shape.kind])

theorem means_email (hop : rule.validation.operation = .email)
    (hvalues : rule.validation.values = []) (hcategory : type.category = .string)
    (hshape : type.shape = .plain) : Means name type rule := by
  have htargets : rule.validation.targets? type = some [] := by
    simp only [Validation.targets?, hvalues]
    rfl
  have ht : Template.of rule.validation.operation type.category type.shape.kind =
      some ⟨.value, .email, .nothing, none, Template.plainMessage " must be a valid email"⟩ := by
    rw [hop, hcategory, hshape]
    rfl
  refine ⟨_, [], builds_email ht rfl rfl, htargets, fun rt env v hv hshaped => ?_⟩
  rw [hshape, hcategory] at hshaped
  rw [hop]
  obtain ⟨s, rfl⟩ := hshaped.exists_text
  exact Expr.decides_isEmail hv

/-! ### Operations with one target -/

/-- The only target of a validation, with its constant and its value. -/
theorem exists_target {value : String} (hvalues : rule.validation.values = [value])
    (hread : ∀ value ∈ rule.validation.values,
      Analysis.Readable rule.validation.operation type value)
    (hkind : (TargetKind.of rule.validation.operation type).category ≠ .float) :
    ∃ l y, (TargetKind.of rule.validation.operation type).read value = some l ∧
      l.scalar? = some y ∧
      y.category = (TargetKind.of rule.validation.operation type).category ∧
      rule.validation.targets? type = some [y] := by
  obtain ⟨l, hl⟩ := hread value (hvalues ▸ List.mem_singleton_self value)
  obtain ⟨y, hy, hcategory⟩ := TargetKind.exists_scalar_of_read hl hkind
  refine ⟨l, y, hl, hy, hcategory, mapM_eq_some_iff.2 ?_⟩
  rw [hvalues]
  exact .cons (Option.bind_eq_some_iff.2 ⟨l, hl, hy⟩) .nil

theorem means_compare {c : Comparison} {value : String}
    (hop : rule.validation.operation = .compare c) (hvalues : rule.validation.values = [value])
    (hread : ∀ value ∈ rule.validation.values,
      Analysis.Readable rule.validation.operation type value)
    (hlegal : Operation.comparableBy c type.category = true) (hshape : type.shape = .plain)
    (hfloat : type.category ≠ .float) (hother : type.category ≠ .other) :
    Means name type rule := by
  have hkind : (TargetKind.of rule.validation.operation type).category = type.category := by
    rw [hop]
    exact TargetKind.category_ofCategory hother
  obtain ⟨l, y, hl, hy, hcategory, htargets⟩ := exists_target hvalues hread (hkind ▸ hfloat)
  have ht : Template.of rule.validation.operation type.category type.shape.kind =
      some (.compared .value c .targets
        (Template.targetMessage (Template.comparisonPhrase c) "")) := by
    rw [hop, hshape]
    exact Template.comparison_of_comparableBy hlegal
  refine ⟨_, [y], builds_single ht rfl rfl hvalues hl, htargets, fun rt env v hv hshaped => ?_⟩
  rw [hshape] at hshaped
  rw [hop]
  cases hshaped with
  | plain hx =>
    refine (Expr.decides_compare hv (eval_literal hy) ?_ (hx ▸ hlegal)).congr ?_
    · exact (hcategory.trans hkind).trans hx.symm
    · simp [Operation.Demands]

/-- A text compared in lower case is the same up to letter case, or it is not. -/
theorem holds_lowered_iff {negated : Bool} {s t : String} :
    (if negated then Comparison.ne else Comparison.eq).Holds (.text (Text.lowered s))
      (.text (Text.lowered t)) ↔ SameText negated s t := by
  unfold SameText
  cases negated <;> simp [Comparison.Holds]

theorem means_sameText {negated : Bool} {value : String}
    (hop : rule.validation.operation = .sameText negated)
    (hvalues : rule.validation.values = [value])
    (hcategory : type.category = .string) (hshape : type.shape = .plain) :
    Means name type rule := by
  have hread : (TargetKind.of rule.validation.operation type).read value =
      some (.text (Text.trimmed value)) := by
    rw [hop]
    rfl
  have htargets : rule.validation.targets? type = some [.text (Text.trimmed value)] := by
    rw [Validation.targets?, hvalues, mapM_eq_some_iff]
    exact .cons (Option.bind_eq_some_iff.2 ⟨_, hread, rfl⟩) .nil
  have ht : Template.of rule.validation.operation type.category type.shape.kind =
      some (.compared .lower (if negated then .ne else .eq) .targets
        (Template.targetMessage
          (Template.comparisonPhrase (if negated then .ne else .eq)) "")) := by
    rw [hop, hcategory, hshape]
    rfl
  have hbuilds : Builds name type rule _ := builds_single ht rfl rfl hvalues hread
  generalize Text.trimmed value = t at hread htargets hbuilds
  refine ⟨_, _, hbuilds, htargets, fun rt env v hv hshaped => ?_⟩
  rw [hshape, hcategory] at hshaped
  rw [hop]
  obtain ⟨s, rfl⟩ := hshaped.exists_text
  have hliteral : (Literal.text (Text.lowered t)).scalar? = some (.text (Text.lowered t)) := by
    rw [Literal.scalar?]
  refine (Expr.decides_compare (eval_lower hv) (eval_literal hliteral) rfl ?_).congr ?_
  · cases negated <;> rfl
  · rw [holds_lowered_iff]
    simp [Operation.Demands]

/-- What a limit compares is what it allows. -/
theorem holds_comparison_iff {l : Limit} {m n : Int} :
    l.comparison.Holds (.number m) (.number n) ↔ l.Allows m n := by
  cases l <;> simp [Limit.comparison, Comparison.Holds, Limit.Allows, Scalar.AtMost]

/-- A limit means what it should if its template looks at what the limit applies to. -/
theorem means_of_measure {l : Limit} {value : String} {t : Template}
    (hop : rule.validation.operation = .limit l) (hvalues : rule.validation.values = [value])
    (hread : ∀ value ∈ rule.validation.values,
      Analysis.Readable rule.validation.operation type value)
    (hkind : (TargetKind.of rule.validation.operation type).category = .integer)
    (ht : Template.of rule.validation.operation type.category type.shape.kind = some t)
    (htest : t.test = .compare l.comparison) (hright : t.right = .targets)
    (hoperand : t.operand ≠ .lower)
    (hmeasure : ∀ rt env v, (fieldValue name type).eval rt env = some v →
      v.HasShape type.category type.shape →
      ∃ m, (subject t name type).eval rt env = some (.scalar (.number m)) ∧
        v.measure? rt = some m) :
    Means name type rule := by
  obtain ⟨literal, y, hl, hy, hcategory, htargets⟩ :=
    exists_target hvalues hread (by rw [hkind]; decide)
  have hsame : operandLiteral t.operand literal = literal := by
    cases hoperand' : t.operand with
    | lower => exact absurd hoperand' hoperand
    | value | len => rfl
  have hbuilds : Builds name type rule _ := builds_single ht htest hright hvalues hl
  rw [hsame] at hbuilds
  refine ⟨_, [y], hbuilds, htargets, fun rt env v hv hshaped => ?_⟩
  obtain ⟨m, hm, hmeasured⟩ := hmeasure rt env v hv hshaped
  obtain ⟨n, rfl⟩ := Scalar.exists_number (hcategory.trans hkind)
  refine (Expr.decides_compare hm (eval_literal hy) rfl (comparableBy_integer _)).congr ?_
  rw [holds_comparison_iff, hop]
  simp [Operation.Demands, hmeasured]

section Limits

variable {l : Limit} {value : String} (hop : rule.validation.operation = .limit l)
  (hvalues : rule.validation.values = [value])
  (hread : ∀ value ∈ rule.validation.values,
    Analysis.Readable rule.validation.operation type value)
include hop hvalues hread

theorem means_limit_of_isSized (hsized : type.shape.kind.isSized = true) :
    Means name type rule := by
  cases hshape : type.shape with
  | plain | fixedList => exact absurd hsized (by simp [hshape, Shape.kind, ShapeKind.isSized])
  | list | dict =>
    refine means_of_measure (t := .compared .len l.comparison .targets
      (Template.targetMessage (Template.countPhrase l) " elements")) hop hvalues hread ?_ ?_ rfl
      rfl Operand.noConfusion fun rt env v hv hshaped => ?_
    · rw [hop, TargetKind.of, FieldType.toClass, hshape]
      rfl
    · rw [hop, hshape]
      rfl
    · rw [hshape] at hshaped
      cases hshaped
      exact ⟨_, eval_len hv rfl, rfl⟩

theorem means_limit_of_string (hshape : type.shape = .plain) (hcategory : type.category = .string) :
    Means name type rule := by
  refine means_of_measure (t := .compared .len l.comparison .targets
    (Template.targetMessage (Template.lengthPhrase l) "")) hop hvalues hread ?_ ?_ rfl
    rfl Operand.noConfusion fun rt env v hv hshaped => ?_
  · rw [hop, TargetKind.of, FieldType.toClass, hshape, hcategory]
    rfl
  · rw [hop, hshape, hcategory]
    rfl
  · rw [hshape, hcategory] at hshaped
    obtain ⟨s, rfl⟩ := hshaped.exists_text
    exact ⟨_, eval_len hv rfl, rfl⟩

theorem means_limit_of_integer (hshape : type.shape = .plain)
    (hcategory : type.category = .integer) (hlen : l ≠ .len) : Means name type rule := by
  refine means_of_measure (t := .compared .value l.comparison .targets
    (Template.targetMessage (Template.comparisonPhrase l.comparison) "")) hop hvalues hread ?_ ?_
    rfl rfl Operand.noConfusion fun rt env v hv hshaped => ?_
  · rw [hop, TargetKind.of, FieldType.toClass, hshape, hcategory]
    simp only [Shape.kind, ShapeKind.isSized]
    exact (TargetKind.category_ofCategory (by simp [hcategory])).trans hcategory
  · rw [hop, hshape, hcategory]
    cases l with
    | min | max => rfl
    | len => exact absurd rfl hlen
  · rw [hshape, hcategory] at hshaped
    obtain ⟨n, rfl⟩ := hshaped.exists_number
    exact ⟨n, hv, rfl⟩

theorem means_limit (hlegal : (Operation.limit l).isLegalForType type = true)
    (hfloat : type.category ≠ .float) : Means name type rule := by
  rw [Operation.isLegalForType, FieldType.toClass] at hlegal
  cases hshape : type.shape with
  | list | dict =>
    exact means_limit_of_isSized hop hvalues hread (by simp [hshape, Shape.kind, ShapeKind.isSized])
  | fixedList n =>
    rw [hshape] at hlegal
    cases l <;> simp [Operation.isLegalFor, Shape.kind, ShapeKind.isSized] at hlegal
  | plain =>
    rw [hshape] at hlegal
    cases hcategory : type.category with
    | string => exact means_limit_of_string hop hvalues hread hshape hcategory
    | integer =>
      rw [hcategory] at hlegal
      refine means_limit_of_integer hop hvalues hread hshape hcategory ?_
      rintro rfl
      cases hlegal
    | float => exact absurd hcategory hfloat
    | bool | other =>
      rw [hcategory] at hlegal
      cases l <;> cases hlegal

end Limits

/-! ### Membership -/

/-- Compared with all targets, a value is one of them, or none. -/
theorem states_iff_isMember {negated : Bool} {targets : List Scalar} {x : Scalar} :
    (if negated then Connective.and else Connective.or).States
        (fun y => (if negated then Comparison.ne else Comparison.eq).Holds x y) targets ↔
      IsMember negated targets x := by
  cases negated <;> simp [Connective.States, Comparison.Holds, IsMember, List.forall_mem_ne]

/-- How an element is looked up among constants. -/
def elementTest (negated : Bool) (type : FieldType) (ls : List Literal) : Expr :=
  if negated then .not (.inSet (elementItem type) ls) else .inSet (elementItem type) ls

theorem decides_elementTest {negated : Bool} {ls : List Literal} {targets : List Scalar}
    {x : Scalar} (hx : x.category = type.category)
    (hscalars : List.Forall₂ (fun l y => l.scalar? = some y) ls targets) :
    (elementTest negated type ls).Decides rt { env with element := some x }
      (IsMember negated targets x) := by
  have hmember : (Expr.inSet (elementItem type) ls).Decides rt { env with element := some x }
      (x ∈ targets) := Expr.decides_inSet (eval_elementItem hx) hscalars
  cases negated with
  | false => exact hmember
  | true => exact hmember.not

section Membership

variable {negated : Bool} (hop : rule.validation.operation = .member negated)
  (hread : ∀ value ∈ rule.validation.values,
    Analysis.Readable rule.validation.operation type value)
  (hfloat : type.category ≠ .float) (hother : type.category ≠ .other)
include hop hread hfloat hother

/-- The targets of a membership have constants whose values are of the category of the field. -/
theorem exists_members :
    ∃ ls targets, Literals rule.validation.operation type rule.validation.values ls ∧
      List.Forall₂ (fun l y => l.scalar? = some y ∧ y.category = type.category) ls targets ∧
      rule.validation.targets? type = some targets := by
  have hkind : (TargetKind.of rule.validation.operation type).category = type.category := by
    rw [hop]
    exact TargetKind.category_ofCategory hother
  obtain ⟨ls, targets, hls, hscalars, htargets⟩ :=
    Validation.exists_targets hread (hkind ▸ hfloat)
  rw [hkind] at hscalars
  exact ⟨ls, targets, hls, hscalars, htargets⟩

/-- Outside collections, the value is compared with every target. -/
theorem means_member_of_plain (hvalues : rule.validation.values ≠ [])
    (hshape : type.shape = .plain) : Means name type rule := by
  obtain ⟨ls, targets, hls, hscalars, htargets⟩ := exists_members hop hread hfloat hother
  have ht : ∃ message, Template.of rule.validation.operation type.category type.shape.kind =
      some ⟨.value, .compare (if negated then .ne else .eq), .targets,
        some (if negated then .and else .or), message⟩ := by
    rw [hop, hshape]
    cases negated <;> exact ⟨_, rfl⟩
  obtain ⟨message, ht⟩ := ht
  refine ⟨_, targets, builds_joined ht rfl rfl rfl hvalues hls, htargets,
    fun rt env v hv hshaped => ?_⟩
  rw [hshape] at hshaped
  cases hshaped with
  | @plain x hx =>
    have hterms : List.Forall₂
        (fun e y => Expr.Decides rt env e
          ((if negated then Comparison.ne else Comparison.eq).Holds x y))
        (ls.map fun l => .compare (if negated then .ne else .eq) (fieldValue name type)
          (.literal l)) targets := by
      refine List.forall₂_map_left_iff.2 (hscalars.imp fun l y hy => ?_)
      refine Expr.decides_compare hv (eval_literal hy.1) (hy.2.trans hx.symm) ?_
      exact comparableBy_of_not_isOrder (by cases negated <;> rfl) (hx ▸ hother)
    rw [hop]
    exact (Expr.decides_join hterms).congr states_iff_isMember

/-- Of a collection, every element is looked up among the targets. -/
theorem means_member_of_collection (hshape : type.shape.kind ≠ .plain) : Means name type rule := by
  obtain ⟨ls, targets, hls, hscalars, htargets⟩ := exists_members hop hread hfloat hother
  have ht : ∃ message, Template.of rule.validation.operation type.category type.shape.kind =
      some ⟨.value, if negated then .noneIn else .allIn, .targets, none, message⟩ := by
    rw [hop]
    cases hkind : type.shape.kind with
    | plain => exact absurd hkind hshape
    | list | fixedList | dict => cases negated <;> exact ⟨_, rfl⟩
  obtain ⟨message, ht⟩ := ht
  have hbuilds : Builds name type rule (.every (fieldValue name type) (type.shape.kind == .dict)
      (elementTest negated type ls)) := by
    have hmap : ls.map (operandLiteral .value) = ls := List.map_id ls
    unfold elementTest
    cases negated with
    | false =>
      have hall : Builds name type rule _ := builds_allIn ht rfl rfl hls
      rwa [hmap] at hall
    | true =>
      have hnone : Builds name type rule _ := builds_noneIn ht rfl rfl hls
      rwa [hmap] at hnone
  refine ⟨_, targets, hbuilds, htargets, fun rt env v hv hshaped => ?_⟩
  have heach : ∀ x : Scalar, x.category = type.category →
      (elementTest negated type ls).Decides rt { env with element := some x }
        (IsMember negated targets x) := fun x hx =>
    decides_elementTest hx (hscalars.imp fun _ _ h => h.1)
  rw [hop]
  generalize type.shape = shape at hshaped hshape
  cases hshaped with
  | plain => exact absurd rfl hshape
  | list hxs | fixedList hxs | dict hxs =>
    exact Expr.decides_every hv rfl fun x hx => heach x (hxs x hx)

end Membership

/-! ### All operations -/

/-- Unless it compares fields or is about floating-point numbers, a rule that fits its field has a
check that decides what the operation demands. -/
theorem means_of_fits (name : String) (h : rule.Fits type)
    (hfields : rule.validation.operation.comparesFields = false) (hfloat : type.category ≠ .float)
    (hother : type.category ≠ .other) : Means name type rule := by
  cases h with
  | compared _ hcmp => exact absurd hcmp (by simp [hfields])
  | checked harity _ hlegal hread =>
    unfold Validation.HasArity at harity
    unfold Operation.isLegalForType at hlegal
    cases hop : rule.validation.operation with
    | required =>
      rw [hop] at harity
      exact means_required hop harity hfloat hother
    | email =>
      rw [hop] at harity hlegal
      obtain ⟨hcategory, hshape⟩ := Operation.isLegalFor_email_iff.1 hlegal
      exact means_email hop harity hcategory (Shape.kind_eq_plain_iff.1 hshape)
    | compare c =>
      rw [hop] at harity hlegal
      obtain ⟨value, hvalue⟩ := harity
      obtain ⟨hcomparable, hshape⟩ := Operation.isLegalFor_compare_iff.1 hlegal
      exact means_compare hop hvalue hread hcomparable (Shape.kind_eq_plain_iff.1 hshape) hfloat
        hother
    | sameText negated =>
      rw [hop] at harity hlegal
      obtain ⟨value, hvalue⟩ := harity
      obtain ⟨hcategory, hshape⟩ := Operation.isLegalFor_sameText_iff.1 hlegal
      exact means_sameText hop hvalue hcategory (Shape.kind_eq_plain_iff.1 hshape)
    | limit l =>
      rw [hop] at harity hlegal
      obtain ⟨value, hvalue⟩ := harity
      exact means_limit hop hvalue hread hlegal hfloat
    | member negated =>
      rw [hop] at harity
      by_cases hshape : type.shape = .plain
      · exact means_member_of_plain hop hread hfloat hother harity hshape
      · exact means_member_of_collection hop hread hfloat hother
          (mt Shape.kind_eq_plain_iff.1 hshape)
    | compareField c => exact absurd hfields (by simp [hop, Operation.comparesFields])

/-- Under its guard, a check decides of an optional value that it is set and what the check decides
of the content. -/
theorem decides_guarded {body : Expr} {P : Value → Prop} {v : Value}
    (hbody : ∀ env v, (fieldValue name type).eval rt env = some v →
      v.HasShape type.category type.shape → body.Decides rt env (P v))
    (hv : env.field [name] = some v) (htype : v.HasType type) :
    (guarded name type body).Decides rt env (v.SetAnd P) := by
  have hfield : (Expr.field [name]).eval rt env = some v := by
    rw [Expr.field, Expr.eval]
    exact hv
  unfold fieldValue at hbody
  unfold guarded
  cases htype with
  | bare hoptional hshape =>
    rw [hoptional] at hbody ⊢
    exact (hbody env v hfield hshape).congr hshape.setAnd_iff.symm
  | absent hoptional =>
    rw [hoptional]
    exact Expr.decides_someAnd_absent hfield
  | present hoptional hshape =>
    rw [hoptional] at hbody ⊢
    refine Expr.decides_someAnd_present hfield (hbody _ _ ?_ hshape)
    rw [if_pos rfl, Expr.eval]
    rfl

end Condition

/-- **A generated check means what its rule says.** The targets of the rule can be read, the rule
has a check, and the check has a truth value for every value that the field can have: it is true
exactly if the value is set and meets what the operation demands. -/
theorem exists_meaning_of_analyze {types analyzed : List Declaration}
    (h : analyze types = .ok analyzed) {d : Declaration} (hd : d ∈ analyzed) {field : Field}
    (hfield : field ∈ d.fields)
    (hcategory : field.fieldType.category ∈ [Category.string, .bool, .integer]) {rule : Rule}
    (hrule : rule ∈ field.rules)
    (hfields : rule.validation.operation.comparesFields = false) :
    ∃ condition e targets,
      Condition.build field.name field.fieldType rule = .ok condition ∧ condition.expr = .ok e ∧
        rule.validation.targets? field.fieldType = some targets ∧
        ∀ (rt : Runtime) (env : Env) (v : Value), env.field [field.name] = some v →
          v.HasType field.fieldType →
          ∃ b, e.eval rt env = some (.ofBool b) ∧
            (b = true ↔ v.SetAnd
              (rule.validation.operation.Demands rt field.fieldType.shape targets)) := by
  have hfloat : field.fieldType.category ≠ .float := by
    rintro hfloat
    simp [hfloat] at hcategory
  have hother : field.fieldType.category ≠ .other := by
    rintro hother
    simp [hother] at hcategory
  have hfits := fits_of_analyze h hd hfield (FieldType.isPrimitive_iff.2 hother) hrule
  obtain ⟨body, targets, ⟨condition, hbuild, hexpr⟩, htargets, hbody⟩ :=
    Condition.means_of_fits field.name hfits hfields hfloat hother
  refine ⟨condition, _, targets, hbuild, hexpr, htargets, fun rt env v hv htype => ?_⟩
  exact Condition.decides_guarded (hbody rt) hv htype

/-- A list with a forbidden element fails the check that forbids it. -/
theorem forbidden_element_fails :
    ∃ condition e,
      Condition.build "tags" (.ofSpelling "Option<Vec<String>>")
        ⟨⟨.member true, ["root", "admin"]⟩, none⟩ = .ok condition ∧ condition.expr = .ok e ∧
      ∀ rt : Runtime, e.eval rt
        ⟨fun _ => some (.present (.list [.text "ops", .text "root"])), none, none⟩ =
          some (.ofBool false) := by
  have haccepted : analyze [⟨"Profile", "", none,
      [⟨"tags", "Option<Vec<String>>", "nin='root' 'admin'", []⟩], false⟩] =
    .ok [⟨"Profile", "", none, [⟨"tags", "Option<Vec<String>>", "nin='root' 'admin'",
      [⟨⟨.member true, ["root", "admin"]⟩, none⟩]⟩], true⟩] := by
    decide +kernel
  obtain ⟨condition, e, targets, hbuild, hexpr, htargets, heval⟩ :=
    exists_meaning_of_analyze haccepted List.mem_cons_self List.mem_cons_self (by decide +kernel)
      List.mem_cons_self rfl
  refine ⟨condition, e, hbuild, hexpr, fun rt => ?_⟩
  have hread : targets = [.text "root", .text "admin"] := by
    have htexts : Validation.targets? ⟨.member true, ["root", "admin"]⟩
        (.ofSpelling "Option<Vec<String>>") = some [.text "root", .text "admin"] := by
      decide +kernel
    exact Option.some.inj (htargets.symm.trans htexts)
  have hlist : Value.HasShape .string .list (.list [.text "ops", .text "root"]) :=
    .list (by decide)
  obtain ⟨b, hb, hiff⟩ := heval rt
    ⟨fun _ => some (.present (.list [.text "ops", .text "root"])), none, none⟩ _ rfl
    (.present (by decide +kernel) hlist)
  cases b with
  | false => exact hb
  | true =>
    have hmeets := hiff.1 rfl
    rw [hread] at hmeets
    simp [Value.SetAnd, Operation.Demands, IsMember] at hmeets

end FieldRules
