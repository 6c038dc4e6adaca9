import FieldRules.Proofs.Condition.Build

/-!
# The constants of a membership

A membership compares the texts of a field, or of its elements, with constants: each by itself, or
all of them as a set. `Expr.constants` lists the constants of an expression in order, whichever of
the two it does. The constants of a membership are its targets, in order and without loss, each
without the blanks around it (`membership_constants`). The message shows the targets with their
blanks, so that the two agree exactly if no target has blanks at its ends.
-/

namespace FieldRules

namespace Expr

mutual

/-- The constants of an expression, from left to right. -/
def constants : Expr → List Literal
  | .const _ | .value _ => []
  | .literal l => [l]
  | .len e | .lower e | .asStr e | .widen _ e | .isEmail e | .not e => e.constants
  | .compare _ lhs rhs => lhs.constants ++ rhs.constants
  | .connect _ terms => constantsAll terms
  | .inSet item set => item.constants ++ set
  | .every collection _ body => collection.constants ++ body.constants
  | .someAnd option body => option.constants ++ body.constants

/-- The constants of some expressions, one after the other. -/
def constantsAll : List Expr → List Literal
  | [] => []
  | e :: es => e.constants ++ constantsAll es

end

theorem constantsAll_eq_flatMap (es : List Expr) : constantsAll es = es.flatMap constants := by
  induction es with
  | nil => rfl
  | cons e es ih => rw [constantsAll, ih, List.flatMap_cons]

@[simp] theorem constants_field (path : List String) : (field path).constants = [] := rfl

theorem constants_join (op : Connective) (terms : List Expr) :
    (join op terms).constants = terms.flatMap constants := by
  match terms with
  | [] => rfl
  | [term] => simp [join]
  | first :: second :: rest =>
    rw [join, constants, constantsAll_eq_flatMap]
    simp

end Expr

namespace Condition

variable {name : String} {type : FieldType} {rule : Rule} {negated : Bool}

/-- A guard has no constants. -/
theorem constants_guarded (body : Expr) : (guarded name type body).constants = body.constants := by
  unfold guarded
  split_ifs
  · rw [Expr.constants, Expr.constants_field, List.nil_append]
  · rfl

theorem constants_fieldValue : (fieldValue name type).constants = [] := by
  unfold fieldValue
  split_ifs <;> rfl

theorem constants_elementItem : (elementItem type).constants = [] := by
  unfold elementItem
  split_ifs <;> rfl

/-- Comparisons of a value without constants with some constants. -/
theorem constants_join_compare {c : Comparison} {connective : Connective} {e : Expr}
    (h : e.constants = []) (ls : List Literal) :
    (Expr.join connective (ls.map fun l => .compare c e (.literal l))).constants = ls := by
  rw [Expr.constants_join]
  induction ls with
  | nil => rfl
  | cons l ls ih => rw [List.map_cons, List.flatMap_cons, ih, Expr.constants, h]; rfl

/-- On texts, the targets of a membership are read without the blanks around them. -/
theorem literals_of_string (hstring : type.category = .string) (negated : Bool)
    (values : List String) :
    Literals (.member negated) type values (values.map fun value => .text (Text.trimmed value)) := by
  have hkind : TargetKind.of (.member negated) type = .text := by
    simp only [TargetKind.of, TargetKind.ofCategory, hstring]
  refine List.forall₂_map_right_iff.2 (List.forall₂_same.2 fun value _ => ?_)
  rw [hkind]
  rfl

/-- A membership looks at the value itself, and compares it with the targets. -/
theorem operand_right_member (negated : Bool) (shape : ShapeKind) :
    (Template.member negated shape).operand = .value ∧
      (Template.member negated shape).right = .targets := by
  cases negated <;> cases shape <;> exact ⟨rfl, rfl⟩

/-- The check of a membership has the constants that the targets are read as. -/
theorem exists_builds_member (name : String) (hop : rule.validation.operation = .member negated)
    (hne : rule.validation.values ≠ []) {ls : List Literal}
    (hls : Literals rule.validation.operation type rule.validation.values ls) :
    ∃ body, Builds name type rule body ∧ body.constants = ls := by
  have ht : Template.of rule.validation.operation type.category type.shape.kind =
      some (Template.member negated type.shape.kind) := by rw [hop]; rfl
  obtain ⟨hoperand, hright⟩ := operand_right_member negated type.shape.kind
  have hsubject : subject (Template.member negated type.shape.kind) name type =
      fieldValue name type := by rw [subject, hoperand]; rfl
  have hliteral : operandLiteral (Template.member negated type.shape.kind).operand = id := by
    rw [hoperand]; rfl
  have hrow : Template.Row (.member negated) (Template.member negated type.shape.kind) :=
    Template.row_of_member
  cases hrow with
  | joined _ _ htest hconnective _ =>
    refine ⟨_, builds_joined ht htest hconnective hright hne hls, ?_⟩
    rw [hsubject, hliteral]
    exact constants_join_compare constants_fieldValue ls
  | elements _ htest _ =>
    rcases htest with hall | hnone
    · refine ⟨_, builds_allIn ht hall hright hls, ?_⟩
      rw [hsubject, hliteral, List.map_id]
      simp [Expr.constants, constants_fieldValue, constants_elementItem]
    · refine ⟨_, builds_noneIn ht hnone hright hls, ?_⟩
      rw [hsubject, hliteral, List.map_id]
      simp [Expr.constants, constants_fieldValue, constants_elementItem]
  | constant _ hfixed => exact absurd (hright.symm.trans hfixed) (by simp)
  | alone _ hnothing => exact absurd (hright.symm.trans hnothing) (by simp)
  | single _ hone => cases hone
  | peer hfields => cases hfields

/-- The right sides of a membership are the constants that the targets are read as. -/
theorem rights_of_build_member (hop : rule.validation.operation = .member negated)
    {ls : List Literal} (hls : Literals rule.validation.operation type rule.validation.values ls)
    {condition : Condition} (h : build name type rule = .ok condition) :
    condition.rights = ls.map .literal := by
  have ht : Template.of rule.validation.operation type.category type.shape.kind =
      some (Template.member negated type.shape.kind) := by rw [hop]; rfl
  obtain ⟨hoperand, hright⟩ := operand_right_member negated type.shape.kind
  obtain rfl := Except.ok.inj (h.symm.trans (build_eq_ok ht (sides_of_targets hright hls)))
  simp only [ofTemplate, hoperand]
  rfl

end Condition

open Condition

/-- **The texts that a membership compares with** are its targets, in order and without loss, each
without the blanks around it. They are the targets as they were written, and as the message shows
them, exactly if no target has blanks at its ends. -/
theorem membership_constants {types analyzed : List Declaration}
    (h : analyze types = .ok analyzed) {d : Declaration} (hd : d ∈ analyzed) {field : Field}
    (hfield : field ∈ d.fields) (hstring : field.fieldType.category = .string) {rule : Rule}
    (hrule : rule ∈ field.rules) {negated : Bool}
    (hop : rule.validation.operation = .member negated) :
    (∃ es, Tag.entries field.tag = .ok es ∧
      ∃ e ∈ es, Validation.ofEntry e = .ok rule.validation) ∧
    ∃ condition check, build field.name field.fieldType rule = .ok condition ∧
      condition.expr = .ok check ∧
      condition.rights =
        rule.validation.values.map (fun value => .literal (.text (Text.trimmed value))) ∧
      check.constants = rule.validation.values.map (fun value => .text (Text.trimmed value)) ∧
      (check.constants = rule.validation.values.map .text ↔
        ∀ value ∈ rule.validation.values, Text.trimmed value = value) := by
  have hprim : field.fieldType.isPrimitive = true := FieldType.isPrimitive_iff.2 (by simp [hstring])
  have hne : rule.validation.values ≠ [] := by
    have harity := (fits_of_analyze h hd hfield hprim hrule).hasArity
    simpa only [Validation.HasArity, hop, Operation.arity] using harity
  have hls := literals_of_string hstring negated rule.validation.values
  rw [← hop] at hls
  obtain ⟨body, ⟨condition, hbuild, hexpr⟩, hconstants⟩ :=
    exists_builds_member field.name hop hne hls
  have hcheck : (guarded field.name field.fieldType body).constants = _ :=
    (constants_guarded body).trans hconstants
  refine ⟨exists_entry_of_analyze h hd hfield hrule, condition, _, hbuild, hexpr, ?_, hcheck, ?_⟩
  · rw [rights_of_build_member hop hls hbuild, List.map_map]
    rfl
  · rw [hcheck, List.map_inj_left]
    simp only [Literal.text.injEq]

/-- Keys of an optional dictionary. Blanks inside of a target are kept, and so is an empty target. -/
theorem keys_constants :
    ∃ analyzed d field rule condition check,
      analyze [⟨"Shop", "", none,
        [⟨"stock", "Option<HashMap<String, u8>>", "nin='a b' '', required", []⟩], false⟩] =
          .ok analyzed ∧ d ∈ analyzed ∧ field ∈ d.fields ∧ rule ∈ field.rules ∧
      rule.validation = ⟨.member true, ["a b", ""]⟩ ∧
      build field.name field.fieldType rule = .ok condition ∧ condition.expr = .ok check ∧
      check.constants = [.text "a b", .text ""] := by
  have hanalyzed : analyze [⟨"Shop", "", none,
      [⟨"stock", "Option<HashMap<String, u8>>", "nin='a b' '', required", []⟩], false⟩] =
    .ok [⟨"Shop", "", none, [⟨"stock", "Option<HashMap<String, u8>>", "nin='a b' '', required",
      [⟨⟨.member true, ["a b", ""]⟩, none⟩, ⟨⟨.required, []⟩, none⟩]⟩], true⟩] := by
    decide +kernel
  obtain ⟨-, condition, check, hbuild, hexpr, -, -, hexact⟩ := membership_constants hanalyzed
    List.mem_cons_self List.mem_cons_self (by decide +kernel) List.mem_cons_self rfl
  refine ⟨_, _, _, _, condition, check, hanalyzed, List.mem_cons_self, List.mem_cons_self,
    List.mem_cons_self, rfl, hbuild, hexpr, hexact.2 ?_⟩
  decide

/-- Blanks at the ends of a quoted target are shown in the message, and left out of the check. -/
theorem blank_ends_left_out :
    analyze [⟨"User", "", none, [⟨"role", "String", "in=' admin' 'user'", []⟩], false⟩] =
      .ok [⟨"User", "", none, [⟨"role", "String", "in=' admin' 'user'",
        [⟨⟨.member false, [" admin", "user"]⟩, none⟩]⟩], true⟩] ∧
    (FieldType.ofSpelling "String").category = .string ∧
    ∃ condition check,
      build "role" (.ofSpelling "String") ⟨⟨.member false, [" admin", "user"]⟩, none⟩ =
        .ok condition ∧
      condition.message = "role must be one of ' admin' 'user'" ∧
      condition.expr = .ok check ∧ check.constants = [.text "admin", .text "user"] ∧
      check.constants ≠ [.text " admin", .text "user"] := by
  have htype : FieldType.ofSpelling "String" = ⟨.string, .plain, false, "String"⟩ := by
    decide +kernel
  refine ⟨by decide +kernel, by decide +kernel, ?_⟩
  rw [htype]
  exact ⟨_, _, rfl, by decide +kernel, rfl, rfl, by decide⟩

end FieldRules
