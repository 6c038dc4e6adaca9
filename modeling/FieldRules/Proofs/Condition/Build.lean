import FieldRules.Condition
import FieldRules.Proofs.Analysis.Attached

/-!
# Building conditions

A condition is built from three tables: the classes that an operation is legal for, the kinds of
literal that its targets are read as, and the templates of checks. `Template.Row` says which rows
the last table has, and `Template.exists_of_isLegalFor` that there is a row wherever the first table
allows the operation. `build_eq_ok` and `expr_eq_ok` describe what is built, and
`exists_build_expr_of_fits` is the main result: every rule that fits its field has a condition, and
the condition has an expression.
-/

namespace FieldRules

/-! ### Legal operations -/

theorem Shape.kind_eq_plain_iff {shape : Shape} : shape.kind = .plain ↔ shape = .plain := by
  cases shape <;> simp [kind]

namespace Operation

variable {c : TypeClass}

theorem isLegalFor_compare_iff {r : Comparison} :
    (compare r).isLegalFor c = true ↔ comparableBy r c.category = true ∧ c.shape = .plain := by
  rw [isLegalFor, Bool.and_eq_true, beq_iff_eq]

theorem isLegalFor_compareField_iff {r : Comparison} :
    (compareField r).isLegalFor c = true ↔
      (comparableBy r c.category = true ∧ c.shape = .plain) ∧ c.optional = false := by
  rw [isLegalFor, Bool.and_eq_true, Bool.and_eq_true, beq_iff_eq, Bool.not_eq_true']

theorem isLegalFor_sameText_iff {negated : Bool} :
    (sameText negated).isLegalFor c = true ↔ c.category = .string ∧ c.shape = .plain := by
  rw [isLegalFor, Bool.and_eq_true, beq_iff_eq, beq_iff_eq]

theorem isLegalFor_email_iff :
    email.isLegalFor c = true ↔ c.category = .string ∧ c.shape = .plain := by
  rw [isLegalFor, Bool.and_eq_true, beq_iff_eq, beq_iff_eq]

end Operation

/-! ### The rows of the table -/

namespace Template

/-- The kinds of row: what a template tests, and what it takes the right sides from. -/
inductive Row (op : Operation) (t : Template) : Prop where
  /-- A comparison with a constant. -/
  | constant {c : Comparison} {l : Literal} : t.test = .compare c → t.right = .fixed l → Row op t
  /-- No right side, as the test needs none. -/
  | alone : t.test = .email ∨ t.test = .always → t.right = .nothing → Row op t
  /-- A comparison with the only target. -/
  | single {c : Comparison} : op.comparesFields = false → op.arity = .one →
      t.test = .compare c → t.right = .targets → Row op t
  /-- A comparison with every target, joined. -/
  | joined {c : Comparison} {connective : Connective} : op.comparesFields = false →
      op.arity = .many → t.test = .compare c → t.connective = some connective →
      t.right = .targets → Row op t
  /-- A statement about all elements and the targets. -/
  | elements : op.comparesFields = false → t.test = .allIn ∨ t.test = .noneIn →
      t.right = .targets → Row op t
  /-- A comparison with the peer. -/
  | peer {c : Comparison} : op.comparesFields = true → t.test = .compare c → t.right = .peer →
      Row op t

theorem row_of_required {category : Category} {shape : ShapeKind} {t : Template}
    (h : required category shape = some t) : Row .required t := by
  cases shape with
  | plain =>
    obtain ⟨l, -, rfl⟩ := Option.map_eq_some_iff.1 h
    exact .constant rfl rfl
  | list | dict =>
    cases h
    exact .constant rfl rfl
  | fixedList =>
    cases h
    exact .alone (.inr rfl) rfl

theorem row_of_limit {l : Limit} {category : Category} {shape : ShapeKind} {t : Template}
    (h : limit l category shape = some t) : Row (.limit l) t := by
  cases shape with
  | list | dict =>
    cases h
    exact .single rfl rfl rfl rfl
  | fixedList => cases h
  | plain =>
    unfold limit at h
    simp only at h
    split_ifs at h
    · cases h
      exact .single rfl rfl rfl rfl
    · cases h
      exact .single rfl rfl rfl rfl

theorem row_of_member {negated : Bool} {shape : ShapeKind} :
    Row (.member negated) (member negated shape) := by
  cases negated <;> cases shape
  case false.plain | true.plain => exact .joined rfl rfl rfl rfl rfl
  case false.list | false.fixedList | false.dict => exact .elements rfl (.inl rfl) rfl
  case true.list | true.fixedList | true.dict => exact .elements rfl (.inr rfl) rfl

/-- Every row of the table is of one of these kinds. -/
theorem row_of_eq_some {op : Operation} {category : Category} {shape : ShapeKind} {t : Template}
    (h : of op category shape = some t) : Row op t := by
  cases op with
  | required => exact row_of_required h
  | compare c =>
    obtain ⟨-, h⟩ := Option.ite_none_right_eq_some.1 h
    cases h
    exact .single rfl rfl rfl rfl
  | sameText negated =>
    obtain ⟨-, h⟩ := Option.ite_none_right_eq_some.1 h
    cases h
    exact .single rfl rfl rfl rfl
  | limit l => exact row_of_limit h
  | member negated =>
    cases h
    exact row_of_member
  | email =>
    obtain ⟨-, h⟩ := Option.ite_none_right_eq_some.1 h
    cases h
    exact .alone (.inl rfl) rfl
  | compareField c =>
    obtain ⟨-, h⟩ := Option.ite_none_right_eq_some.1 h
    cases h
    exact .peer rfl rfl rfl

/-- What is comparable has a row for the comparison. -/
theorem comparison_of_comparableBy {c : Comparison} {right : RightSide} {category : Category}
    (h : Operation.comparableBy c category = true) :
    comparison c right category .plain =
      some (compared .value c right (targetMessage (comparisonPhrase c) "")) := by
  refine if_pos ⟨rfl, ?_⟩
  unfold Operation.comparableBy at h
  split_ifs at h with horder
  · exact .inr h
  · exact .inl (by simpa using horder)

theorem exists_limit_of_isLegalFor {l : Limit} {c : TypeClass}
    (h : (Operation.limit l).isLegalFor c = true) : ∃ t, limit l c.category c.shape = some t := by
  obtain ⟨category, shape, optional⟩ := c
  cases shape with
  | list | dict => exact ⟨_, rfl⟩
  | fixedList => cases l <;> cases category <;> cases h
  | plain => cases l <;> cases category <;> first | exact ⟨_, rfl⟩ | cases h

/-- There is a row for every class that an operation is legal for. -/
theorem exists_of_isLegalFor {op : Operation} {c : TypeClass} (h : op.isLegalFor c = true) :
    ∃ t, of op c.category c.shape = some t := by
  cases op with
  | required =>
    obtain ⟨category, shape, optional⟩ := c
    cases shape with
    | list | dict | fixedList => exact ⟨_, rfl⟩
    | plain => cases category <;> first | exact ⟨_, rfl⟩ | cases h
  | compare r =>
    obtain ⟨hcomparable, hshape⟩ := Operation.isLegalFor_compare_iff.1 h
    exact ⟨_, hshape ▸ comparison_of_comparableBy hcomparable⟩
  | sameText negated => exact ⟨_, if_pos (Operation.isLegalFor_sameText_iff.1 h)⟩
  | limit l => exact exists_limit_of_isLegalFor h
  | member negated => exact ⟨_, rfl⟩
  | email => exact ⟨_, if_pos (Operation.isLegalFor_email_iff.1 h)⟩
  | compareField r =>
    obtain ⟨⟨hcomparable, hshape⟩, -⟩ := Operation.isLegalFor_compareField_iff.1 h
    exact ⟨_, hshape ▸ comparison_of_comparableBy hcomparable⟩

end Template

namespace Condition

/-! ### What is built -/

/-- The value of a field inside its guard. -/
def fieldValue (name : String) (type : FieldType) : Expr :=
  if type.optional then .value .bound else .field [name]

/-- A check under the guard of its field. -/
def guarded (name : String) (type : FieldType) (body : Expr) : Expr :=
  if type.optional then .someAnd (.field [name]) body else body

/-- The condition that a template gives for some sides. -/
def ofTemplate (t : Template) (name : String) (type : FieldType) (rule : Rule) (left : Expr)
    (rights : List Expr) : Condition where
  operation := rule.validation.operation
  left := left
  operator := operatorOf t.test type
  rights := rights
  connective := t.connective
  guard := if type.optional then some (.field [name]) else none
  message := messageOf t name type rule

variable {name : String} {type : FieldType} {rule : Rule} {t : Template}

/-- A condition is built if there is a template and it has its sides. -/
theorem build_eq_ok {left : Expr} {rights : List Expr}
    (ht : Template.of rule.validation.operation type.category type.shape.kind = some t)
    (hsides : sides t type rule (operandExpr t.operand (fieldValue name type)) =
      .ok (left, rights)) :
    build name type rule = .ok (ofTemplate t name type rule left rights) := by
  unfold fieldValue at hsides
  simp only [build, ht, hsides, ofTemplate]

/-- There is no other way to build a condition. -/
theorem build_eq_ok_iff {condition : Condition} :
    build name type rule = .ok condition ↔
      ∃ t left rights,
        Template.of rule.validation.operation type.category type.shape.kind = some t ∧
          sides t type rule (operandExpr t.operand (fieldValue name type)) = .ok (left, rights) ∧
          condition = ofTemplate t name type rule left rights := by
  constructor
  · intro h
    unfold build at h
    simp only at h
    split at h
    case h_1 => cases h
    case h_2 t ht =>
      split at h
      case h_1 => cases h
      case h_2 left rights hsides =>
        cases h
        exact ⟨t, left, rights, ht, hsides, rfl⟩
  · rintro ⟨t, left, rights, ht, hsides, rfl⟩
    exact build_eq_ok ht hsides

/-- The expression of a condition is its body under the guard of the field. -/
theorem expr_eq_ok {left body : Expr} {rights : List Expr}
    (h : (ofTemplate t name type rule left rights).body = .ok body) :
    (ofTemplate t name type rule left rights).expr = .ok (guarded name type body) := by
  refine map_eq_ok_iff.2 ⟨body, h, ?_⟩
  unfold ofTemplate guarded
  cases type.optional <;> rfl

/-! ### The sides -/

/-- The literals that targets are read as, one by one. -/
def Literals (op : Operation) (type : FieldType) : List String → List Literal → Prop :=
  List.Forall₂ fun value l => (TargetKind.of op type).read value = some l

/-- Targets that can be read have their literals. -/
theorem exists_literals {op : Operation} {values : List String}
    (h : ∀ value ∈ values, Analysis.Readable op type value) : ∃ ls, Literals op type values ls :=
  exists_forall₂_iff.2 h

/-- Against targets, the right sides are their literals. -/
theorem sides_of_targets {left : Expr} {ls : List Literal} (hright : t.right = .targets)
    (h : Literals rule.validation.operation type rule.validation.values ls) :
    sides t type rule left =
      .ok (left, ls.map fun l => .literal (operandLiteral t.operand l)) := by
  have hmap : rule.validation.values.mapM
      (targetLiteral rule.validation.operation t.operand
        (TargetKind.of rule.validation.operation type)) =
        .ok (ls.map fun l => .literal (operandLiteral t.operand l)) := by
    refine mapM_eq_ok_iff.2 (List.forall₂_map_right_iff.2 (h.imp fun value l hread => ?_))
    simp only [targetLiteral, hread]
  simp only [sides, hright, hmap, Except.map]

/-- Fields that can be compared have a type in which they are. -/
theorem exists_peerWidening (op : Operation) {peer : FieldType} (h : ComparesWith type peer) :
    ∃ w, peerWidening op type peer = .ok w := by
  unfold peerWidening
  split_ifs with hbase
  · exact ⟨_, rfl⟩
  · cases hcategory : type.category with
    | integer =>
      rcases h.common hcategory with hsame | ⟨w, hw⟩
      · exact absurd hsame.symm hbase
      · exact ⟨some w, by simp only [hw]⟩
    | string | bool | float | other => exact ⟨_, rfl⟩

/-! ### One lemma for each kind of row -/

/-- With a connective, any tests can be joined; a single one is left as it is. -/
theorem joinTests_eq_ok {condition : Condition} {connective : Connective} {tests : List Expr}
    (h : condition.connective = some connective) (hne : tests ≠ []) :
    condition.joinTests tests = .ok (.join connective tests) := by
  cases tests with
  | nil => exact absurd rfl hne
  | cons _ rest =>
    cases rest with
    | nil => rfl
    | cons => simp only [joinTests, h]

theorem literalsOf_map_literal (ls : List Literal) : literalsOf (ls.map .literal) = ls := by
  simp [literalsOf, List.filterMap_map]

/-- The rule has a condition, and its expression is the body under the guard of the field. -/
def Builds (name : String) (type : FieldType) (rule : Rule) (body : Expr) : Prop :=
  ∃ condition, build name type rule = .ok condition ∧
    condition.expr = .ok (guarded name type body)

/-- What the test of a template looks at. -/
def subject (t : Template) (name : String) (type : FieldType) : Expr :=
  operandExpr t.operand (fieldValue name type)

section Rows

variable (ht : Template.of rule.validation.operation type.category type.shape.kind = some t)
include ht

theorem builds_of_body {left body : Expr} {rights : List Expr}
    (hsides : sides t type rule (subject t name type) = .ok (left, rights))
    (hbody : (ofTemplate t name type rule left rights).body = .ok body) :
    Builds name type rule body :=
  ⟨_, build_eq_ok ht hsides, expr_eq_ok hbody⟩

theorem builds_constant {c : Comparison} {l : Literal} (htest : t.test = .compare c)
    (hright : t.right = .fixed l) :
    Builds name type rule (.compare c (subject t name type) (.literal l)) := by
  have hsides : sides t type rule (subject t name type) =
      .ok (subject t name type, [.literal l]) := by simp only [sides, hright]
  refine builds_of_body ht hsides ?_
  simp only [body, ofTemplate, operatorOf, htest]
  rfl

theorem builds_email (htest : t.test = .email) (hright : t.right = .nothing) :
    Builds name type rule (.isEmail (subject t name type)) := by
  have hsides : sides t type rule (subject t name type) = .ok (subject t name type, []) := by
    simp only [sides, hright]
  refine builds_of_body ht hsides ?_
  simp only [body, ofTemplate, operatorOf, htest]

theorem builds_always (htest : t.test = .always) (hright : t.right = .nothing) :
    Builds name type rule (.const true) := by
  have hsides : sides t type rule (subject t name type) = .ok (subject t name type, []) := by
    simp only [sides, hright]
  refine builds_of_body ht hsides ?_
  simp only [body, ofTemplate, operatorOf, htest]

/-- The comparison with the only target. -/
theorem builds_single {c : Comparison} {value : String} {l : Literal}
    (htest : t.test = .compare c) (hright : t.right = .targets)
    (hvalues : rule.validation.values = [value])
    (hl : (TargetKind.of rule.validation.operation type).read value = some l) :
    Builds name type rule
      (.compare c (subject t name type) (.literal (operandLiteral t.operand l))) := by
  have hls : Literals rule.validation.operation type rule.validation.values [l] := by
    rw [hvalues]
    exact .cons hl .nil
  refine builds_of_body ht (sides_of_targets hright hls) ?_
  simp only [body, ofTemplate, operatorOf, htest]
  rfl

/-- The comparisons with all targets, joined. -/
theorem builds_joined {c : Comparison} {connective : Connective} {ls : List Literal}
    (htest : t.test = .compare c) (hconnective : t.connective = some connective)
    (hright : t.right = .targets) (hne : rule.validation.values ≠ [])
    (hls : Literals rule.validation.operation type rule.validation.values ls) :
    Builds name type rule (.join connective (ls.map fun l =>
      .compare c (subject t name type) (.literal (operandLiteral t.operand l)))) := by
  refine builds_of_body ht (sides_of_targets hright hls) ?_
  simp only [body, ofTemplate, operatorOf, htest, List.map_map]
  refine joinTests_eq_ok hconnective fun hnil => hne ?_
  have hls' := List.map_eq_nil_iff.1 hnil
  rw [hls'] at hls
  exact List.forall₂_nil_right_iff.1 hls

theorem builds_allIn {ls : List Literal} (htest : t.test = .allIn) (hright : t.right = .targets)
    (hls : Literals rule.validation.operation type rule.validation.values ls) :
    Builds name type rule (.every (subject t name type) (type.shape.kind == .dict)
      (.inSet (elementItem type) (ls.map (operandLiteral t.operand)))) := by
  refine builds_of_body ht (sides_of_targets hright hls) ?_
  have hmap := literalsOf_map_literal (ls.map (operandLiteral t.operand))
  rw [List.map_map] at hmap
  simp only [body, ofTemplate, operatorOf, htest]
  exact congrArg _ (congrArg _ (congrArg _ hmap))

theorem builds_noneIn {ls : List Literal} (htest : t.test = .noneIn)
    (hright : t.right = .targets)
    (hls : Literals rule.validation.operation type rule.validation.values ls) :
    Builds name type rule (.every (subject t name type) (type.shape.kind == .dict)
      (.not (.inSet (elementItem type) (ls.map (operandLiteral t.operand))))) := by
  refine builds_of_body ht (sides_of_targets hright hls) ?_
  have hmap := literalsOf_map_literal (ls.map (operandLiteral t.operand))
  rw [List.map_map] at hmap
  simp only [body, ofTemplate, operatorOf, htest]
  exact congrArg _ (congrArg _ (congrArg _ (congrArg _ hmap)))

/-- The comparison with the peer, in the type in which the fields are compared. -/
theorem builds_peer {c : Comparison} {peer : Peer} (htest : t.test = .compare c)
    (hright : t.right = .peer) (hpeer : rule.peer = some peer)
    (h : ComparesWith type peer.type) :
    ∃ w, peerWidening rule.validation.operation type peer.type = .ok w ∧
      Builds name type rule
        (.compare c (widened w (subject t name type)) (widened w (.field peer.path))) := by
  obtain ⟨w, hw⟩ := exists_peerWidening rule.validation.operation h
  have hsides : sides t type rule (subject t name type) =
      .ok (widened w (subject t name type), [widened w (.field peer.path)]) := by
    simp only [sides, hright, hpeer, hw, Except.map]
  refine ⟨w, hw, builds_of_body ht hsides ?_⟩
  simp only [body, ofTemplate, operatorOf, htest]
  rfl

end Rows

/-! ### Every rule that fits has an expression -/

/-- **A rule that fits its field has a condition, and the condition has an expression.** -/
theorem exists_builds_of_fits (name : String) (h : rule.Fits type) :
    ∃ body, Builds name type rule body := by
  cases h with
  | checked harity hcmp hlegal hread hpeer =>
    obtain ⟨t, ht⟩ := Template.exists_of_isLegalFor hlegal
    obtain ⟨ls, hls⟩ := exists_literals hread
    cases Template.row_of_eq_some ht with
    | constant htest hright => exact ⟨_, builds_constant ht htest hright⟩
    | alone htest hright =>
      rcases htest with hemail | halways
      · exact ⟨_, builds_email ht hemail hright⟩
      · exact ⟨_, builds_always ht halways hright⟩
    | single _ hone htest hright =>
      simp only [Validation.HasArity, hone] at harity
      obtain ⟨value, hvalue⟩ := harity
      obtain ⟨l, hl⟩ := hread value (hvalue ▸ List.mem_singleton_self value)
      exact ⟨_, builds_single ht htest hright hvalue hl⟩
    | joined _ hmany htest hconnective hright =>
      simp only [Validation.HasArity, hmany] at harity
      exact ⟨_, builds_joined ht htest hconnective hright harity hls⟩
    | elements _ htest hright =>
      rcases htest with hall | hnone
      · exact ⟨_, builds_allIn ht hall hright hls⟩
      · exact ⟨_, builds_noneIn ht hnone hright hls⟩
    | peer hfields => exact absurd hfields (by simp [hcmp])
  | compared harity hcmp hlegal hpeer hcompares =>
    obtain ⟨t, ht⟩ := Template.exists_of_isLegalFor hlegal
    cases Template.row_of_eq_some ht with
    | constant htest hright => exact ⟨_, builds_constant ht htest hright⟩
    | alone htest hright =>
      rcases htest with hemail | halways
      · exact ⟨_, builds_email ht hemail hright⟩
      · exact ⟨_, builds_always ht halways hright⟩
    | single hfields | joined hfields | elements hfields =>
      exact absurd hcmp (by simp [hfields])
    | peer _ htest hright =>
      obtain ⟨w, -, hbuilds⟩ := builds_peer ht htest hright hpeer hcompares
      exact ⟨_, hbuilds⟩

end Condition

end FieldRules
