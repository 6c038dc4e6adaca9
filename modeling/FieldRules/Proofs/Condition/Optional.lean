import FieldRules.Proofs.Condition.Build

/-!
# Optional fields

An optional field is checked like the field inside, under a guard. `Expr.withBound` is a check with
the content of the guard in place of the field, and `Condition.underGuard` a condition that looks at
that content. The theorem on optional types, `build_optional`, says that making a type optional
changes nothing else about the condition of a rule, and about its expression. What it rests on is
that nothing but the left side of a condition reads the field: its right sides are constants, and an
element is bound by its collection.

A comparison with another field is left out, as its right side reads a field too.
-/

namespace FieldRules

namespace Expr

mutual

/-- The expression with the field at `path` replaced by what a guard binds. -/
def withBound (path : List String) : Expr → Expr
  | .const b => .const b
  | .value place => .value (if place = .field path then .bound else place)
  | .literal l => .literal l
  | .len e => .len (e.withBound path)
  | .lower e => .lower (e.withBound path)
  | .asStr e => .asStr (e.withBound path)
  | .widen w e => .widen w (e.withBound path)
  | .isEmail e => .isEmail (e.withBound path)
  | .compare c lhs rhs => .compare c (lhs.withBound path) (rhs.withBound path)
  | .not e => .not (e.withBound path)
  | .connect op terms => .connect op (withBoundAll path terms)
  | .inSet item set => .inSet (item.withBound path) set
  | .every collection keys body => .every (collection.withBound path) keys (body.withBound path)
  | .someAnd option body => .someAnd (option.withBound path) (body.withBound path)

/-- Some expressions, each with the field replaced. -/
def withBoundAll (path : List String) : List Expr → List Expr
  | [] => []
  | e :: es => e.withBound path :: withBoundAll path es

end

variable {path : List String}

theorem withBoundAll_eq_map (es : List Expr) : withBoundAll path es = es.map (withBound path) := by
  induction es with
  | nil => rfl
  | cons e es ih => rw [withBoundAll, ih, List.map_cons]

@[simp] theorem withBound_field : (field path).withBound path = .value .bound := by
  simp [field, withBound]

@[simp] theorem withBound_element : (value .element).withBound path = .value .element := by
  simp [withBound]

theorem withBound_join (op : Connective) (terms : List Expr) :
    (join op terms).withBound path = join op (terms.map (withBound path)) := by
  match terms with
  | [] => rfl
  | [term] => rfl
  | first :: second :: rest =>
    rw [join, withBound, withBoundAll_eq_map]
    · rfl
    · simp

end Expr

namespace Condition

/-- The condition on what a guard of the field binds. -/
def underGuard (name : String) (condition : Condition) : Condition :=
  { condition with
    left := condition.left.withBound [name]
    guard := some (.field [name]) }

variable {name : String} {type : FieldType} {rule : Rule} {t : Template}

/-! ### The sides -/

/-- Without a peer, what is looked at is the left side. The right sides are constants, which the
optionality of the type makes no difference to. -/
theorem sides_optional {left l : Expr} {rights : List Expr} (left' : Expr) (b : Bool)
    (hright : t.right ≠ .peer) (h : sides t type rule left = .ok (l, rights)) :
    l = left ∧ sides t { type with optional := b } rule left' = .ok (left', rights) ∧
      ∀ r ∈ rights, ∃ c, r = .literal c := by
  unfold sides at h ⊢
  simp only at h ⊢
  cases hr : t.right with
  | fixed c =>
    simp only [hr] at h ⊢
    cases h
    exact ⟨rfl, rfl, List.forall_mem_singleton.2 ⟨c, rfl⟩⟩
  | nothing =>
    simp only [hr] at h ⊢
    cases h
    exact ⟨rfl, rfl, List.forall_mem_nil _⟩
  | peer => exact absurd hr hright
  | targets =>
    simp only [hr] at h ⊢
    obtain ⟨rights', hmap, heq⟩ := map_eq_ok_iff.1 h
    cases heq
    refine ⟨rfl, map_eq_ok_iff.2 ⟨rights, hmap, rfl⟩, fun r hr => ?_⟩
    obtain ⟨value, -, hvalue⟩ := forall₂_mem_right (mapM_eq_ok_iff.1 hmap) hr
    unfold targetLiteral at hvalue
    split at hvalue
    · cases hvalue
      exact ⟨_, rfl⟩
    · cases hvalue

/-! ### The check -/

theorem withBound_elementItem {path : List String} :
    (elementItem type).withBound path = elementItem type := by
  unfold elementItem
  split_ifs
  · rw [Expr.withBound, Expr.withBound_element]
  · exact Expr.withBound_element

/-- Tests are joined in the same way on both sides of a guard. -/
theorem joinTests_underGuard (condition : Condition) (tests : List Expr) :
    (condition.underGuard name).joinTests (tests.map (Expr.withBound [name])) =
      (condition.joinTests tests).map (Expr.withBound [name]) := by
  match tests with
  | [] => rfl
  | [test] => rfl
  | first :: second :: rest =>
    cases hc : condition.connective with
    | none => simp [joinTests, underGuard, hc, Except.map]
    | some op =>
      simp only [joinTests, underGuard, hc, List.map_cons, Except.map]
      exact congrArg _ (Expr.withBound_join op (first :: second :: rest)).symm

/-- The body of a condition reads the field on its left side only. -/
theorem body_underGuard {left : Expr} {rights : List Expr}
    (hrights : ∀ r ∈ rights, ∃ l, r = .literal l) :
    ((ofTemplate t name type rule left rights).underGuard name).body =
      (ofTemplate t name type rule left rights).body.map (Expr.withBound [name]) := by
  cases htest : t.test with
  | compare c =>
    have htests : rights.map (.compare c (left.withBound [name])) =
        (rights.map (.compare c left)).map (Expr.withBound [name]) := by
      rw [List.map_map]
      refine List.map_congr_left fun r hr => ?_
      obtain ⟨l, rfl⟩ := hrights r hr
      rfl
    simp only [body, underGuard, ofTemplate, operatorOf, htest, htests]
    exact joinTests_underGuard (ofTemplate t name type rule left rights) _
  | email => simp only [body, underGuard, ofTemplate, operatorOf, htest, Except.map, Expr.withBound]
  | allIn | noneIn =>
    simp only [body, underGuard, ofTemplate, operatorOf, htest, Except.map, Expr.withBound,
      withBound_elementItem]
  | always => simp only [body, underGuard, ofTemplate, operatorOf, htest, Except.map, Expr.withBound]

/-- Under a guard, the expression of a condition is what a guard makes of it. -/
theorem expr_underGuard {condition : Condition} (hguard : condition.guard = none)
    (hbody : (condition.underGuard name).body = condition.body.map (Expr.withBound [name])) :
    (condition.underGuard name).expr =
      condition.expr.map fun e => .someAnd (.field [name]) (e.withBound [name]) := by
  have hexpr : condition.expr = condition.body := by
    unfold expr
    rw [hguard]
    cases condition.body <;> rfl
  rw [hexpr, expr, hbody]
  cases condition.body <;> rfl

/-! ### Optional types -/

theorem fieldValue_of_optional (h : type.optional = true) : fieldValue name type = .value .bound :=
  if_pos h

theorem fieldValue_of_not_optional (h : type.optional = false) :
    fieldValue name type = .field [name] := by
  rw [fieldValue, h, if_neg Bool.false_ne_true]

theorem operandExpr_withBound (operand : Operand) {path : List String} :
    (operandExpr operand (.field path)).withBound path = operandExpr operand (.value .bound) := by
  cases operand <;> simp [operandExpr, Expr.withBound]

/-- For an optional type the template gives the condition of the type inside, under a guard. -/
theorem ofTemplate_optional (hbare : type.optional = false) {rights : List Expr} :
    ofTemplate t name { type with optional := true } rule
        (subject t name { type with optional := true }) rights =
      (ofTemplate t name type rule (subject t name type) rights).underGuard name := by
  have hleft : subject t name { type with optional := true } =
      (subject t name type).withBound [name] := by
    rw [subject, subject, fieldValue_of_optional rfl, fieldValue_of_not_optional hbare,
      operandExpr_withBound]
  rw [hleft]
  rfl

/-- No other row than that of a comparison of fields has a peer. -/
theorem right_ne_peer (hcmp : rule.validation.operation.comparesFields = false)
    (ht : Template.of rule.validation.operation type.category type.shape.kind = some t) :
    t.right ≠ .peer := by
  cases Template.row_of_eq_some ht with
  | peer hfields => exact absurd hfields (by simp [hcmp])
  | constant _ hright => simp [hright]
  | alone _ hright => simp [hright]
  | single _ _ _ hright => simp [hright]
  | joined _ _ _ _ hright => simp [hright]
  | elements _ _ hright => simp [hright]

/-- **An optional type is a wrapper.** -/
theorem build_optional_eq_ok_iff (hbare : type.optional = false)
    (hcmp : rule.validation.operation.comparesFields = false) {guarded : Condition} :
    build name { type with optional := true } rule = .ok guarded ↔
      ∃ condition, build name type rule = .ok condition ∧ guarded = condition.underGuard name := by
  simp only [build_eq_ok_iff]
  constructor
  · rintro ⟨t, left, rights, ht, hsides, rfl⟩
    obtain ⟨rfl, hsides', -⟩ := sides_optional (subject t name type) type.optional
      (right_ne_peer hcmp ht) hsides
    exact ⟨_, ⟨t, _, rights, ht, hsides', rfl⟩, ofTemplate_optional hbare⟩
  · rintro ⟨_, ⟨t, left, rights, ht, hsides, rfl⟩, rfl⟩
    obtain ⟨rfl, hsides', -⟩ := sides_optional (subject t name { type with optional := true }) true
      (right_ne_peer hcmp ht) hsides
    exact ⟨t, _, rights, ht, hsides', (ofTemplate_optional hbare).symm⟩

/-- A condition that is built reads its field on the left side only. -/
theorem body_underGuard_of_build (hcmp : rule.validation.operation.comparesFields = false)
    {condition : Condition} (h : build name type rule = .ok condition) :
    (condition.underGuard name).body = condition.body.map (Expr.withBound [name]) := by
  obtain ⟨t, left, rights, ht, hsides, rfl⟩ := build_eq_ok_iff.1 h
  obtain ⟨-, -, hrights⟩ := sides_optional left type.optional (right_ne_peer hcmp ht) hsides
  exact body_underGuard hrights

/-- A condition for a type that is not optional has no guard. -/
theorem guard_of_build (hbare : type.optional = false) {condition : Condition}
    (h : build name type rule = .ok condition) : condition.guard = none := by
  obtain ⟨t, left, rights, -, -, rfl⟩ := build_eq_ok_iff.1 h
  simp [ofTemplate, hbare]

end Condition

open Condition

/-- **An optional type is a pure wrapper.** A rule has a condition for a type exactly if it has one
for the optional type. The two differ in what they look at, the field itself or what its guard
binds, and in the guard; and the check of the optional field is that of the field inside, read
through the guard. -/
theorem optional_wraps (name : String) {type : FieldType} {rule : Rule}
    (hbare : type.optional = false)
    (hcmp : rule.validation.operation.comparesFields = false) :
    ((∃ condition, build name type rule = .ok condition) ↔
      ∃ guarded, build name { type with optional := true } rule = .ok guarded) ∧
    ∀ condition guarded, build name type rule = .ok condition →
      build name { type with optional := true } rule = .ok guarded →
      (guarded.operator = condition.operator ∧ guarded.rights = condition.rights ∧
        guarded.connective = condition.connective ∧ guarded.message = condition.message) ∧
      guarded.left = condition.left.withBound [name] ∧
      (condition.guard = none ∧ guarded.guard = some (.field [name])) ∧
      ((∃ check, condition.expr = .ok check) ↔ ∃ check, guarded.expr = .ok check) ∧
      ∀ check, condition.expr = .ok check →
        guarded.expr = .ok (.someAnd (.field [name]) (check.withBound [name])) := by
  constructor
  · simp only [build_optional_eq_ok_iff hbare hcmp]
    constructor
    · rintro ⟨condition, h⟩
      exact ⟨_, condition, h, rfl⟩
    · rintro ⟨_, condition, h, -⟩
      exact ⟨condition, h⟩
  · intro condition guarded h hguarded
    obtain ⟨condition', h', rfl⟩ := (build_optional_eq_ok_iff hbare hcmp).1 hguarded
    obtain rfl : condition = condition' := Except.ok.inj (h.symm.trans h')
    have hguard := guard_of_build hbare h
    have hexpr := expr_underGuard hguard (body_underGuard_of_build hcmp h)
    refine ⟨⟨rfl, rfl, rfl, rfl⟩, rfl, ⟨hguard, rfl⟩, ?_, fun check hcheck => ?_⟩
    · rw [hexpr]
      cases condition.expr <;> simp [Except.map]
    · rw [hexpr, hcheck]
      rfl

/-- Members of an optional list that are forbidden. -/
theorem tags_optional_wraps :
    ∃ condition guarded,
      build "tags" ⟨.string, .list, false, "String"⟩ ⟨⟨.member true, ["a", " b"]⟩, none⟩ =
        .ok condition ∧
      build "tags" ⟨.string, .list, true, "String"⟩ ⟨⟨.member true, ["a", " b"]⟩, none⟩ =
        .ok guarded ∧
      guarded.message = condition.message ∧
      guarded.expr = .ok (.someAnd (.field ["tags"]) (.every (.value .bound) false
        (.not (.inSet (.asStr (.value .element)) [.text "a", .text "b"])))) := by
  obtain ⟨-, hall⟩ := @optional_wraps "tags" ⟨.string, .list, false, "String"⟩
    ⟨⟨.member true, ["a", " b"]⟩, none⟩ rfl rfl
  obtain ⟨⟨-, -, -, hmessage⟩, -, -, -, hexpr⟩ := hall _ _ rfl rfl
  exact ⟨_, _, rfl, rfl, hmessage, hexpr _ rfl⟩

end FieldRules
