import FieldRules.Proofs.Condition.Build
import FieldRules.Proofs.Expr.Typing

/-!
# Conditions are well-typed

The tables of templates, of legal operations and of targets agree on types as well: on every class
that an operation is legal for, what its template looks at and what it is compared with are of one
type (`Template.fitsTypes_of_isLegalFor`, a check of all rows). From this,
`exists_hasType_of_fits` builds a well-typed expression for every rule that fits its field. It goes
by the kind of row, as the building of conditions does.
-/

namespace FieldRules

/-! ### The types of targets -/

/-- The type of the constants that targets of a kind are read as. -/
def TargetKind.exprType : TargetKind → ExprType
  | .text => .value .string .plain
  | .integer .. => .value .integer .plain
  | .float _ => .value .float .plain
  | .bool => .value .bool .plain
  | .size => .size

/-- A constant that is read has the type of its kind. -/
theorem TargetKind.exprType_of_read {kind : TargetKind} {value : String} {l : Literal}
    (h : kind.read value = some l) : l.exprType = kind.exprType := by
  unfold read at h
  generalize Text.trim value.toList = cs at h
  cases kind with
  | text =>
    cases h
    rfl
  | integer min max =>
    simp only [readTrimmed] at h
    split at h
    · split_ifs at h
      cases h
      unfold integerLiteral
      split_ifs <;> rfl
    · cases h
  | float single =>
    simp only [readTrimmed] at h
    split at h
    · split_ifs at h
      cases h
      rfl
    · cases h
  | bool =>
    simp only [readTrimmed] at h
    split_ifs at h <;> cases h <;> rfl
  | size =>
    simp only [readTrimmed] at h
    split at h
    · split_ifs at h
      cases h
      rfl
    · cases h

/-- The type of the constants that an operation compares with on fields of a class. -/
def Operation.targetType (op : Operation) (c : TypeClass) : ExprType :=
  match op with
  | .limit _ =>
    if c.shape.isSized || c.category == .string then .size else .value c.category .plain
  | .sameText _ => .value .string .plain
  | _ => .value c.category .plain

/-- The kind of target has the type that the class asks for. -/
theorem TargetKind.exprType_of {op : Operation} {type : FieldType} (h : type.category ≠ .other) :
    (TargetKind.of op type).exprType = op.targetType type.toClass := by
  have hcategory : (ofCategory type).exprType = .value type.category .plain := by
    unfold ofCategory
    cases hcategory : type.category with
    | other => exact absurd hcategory h
    | string | bool | integer | float => rfl
  cases op with
  | limit l =>
    by_cases hsized : (type.shape.kind.isSized || type.category == .string) = true
    · exact (congrArg exprType (if_pos hsized)).trans (if_pos hsized).symm
    · exact (congrArg exprType (if_neg hsized)).trans (hcategory.trans (if_neg hsized).symm)
  | sameText negated => rfl
  | required | compare c | member negated | email | compareField c => exact hcategory

/-! ### The types of rows -/

/-- The type of what a check looks at, on a value of the type. -/
def Operand.typeOn : Operand → ExprType → Option ExprType
  | .value, t => some t
  | .len, .value category shape =>
    if shape.isSized = true ∨ category = .string ∧ shape = .plain then some .size else none
  | .lower, .value .string .plain => some (.value .string .plain)
  | _, _ => none

/-- Only texts outside containers have a lower case. -/
theorem Operand.eq_of_typeOn_lower {t s : ExprType} (h : lower.typeOn t = some s) :
    t = .value .string .plain ∧ s = .value .string .plain := by
  unfold typeOn at h
  split at h
  all_goals simp_all

/-- The parts of a template fit together on fields of a class. -/
def Template.fitsTypes (t : Template) (op : Operation) (c : TypeClass) : Bool :=
  match t.operand.typeOn (.value c.category c.shape), t.test, t.right with
  | some s, .compare _, .fixed l => s.IsComparable && l.exprType == s
  | some s, .compare _, .targets => s.IsComparable && op.targetType c == s
  | some s, .compare _, .peer => s.IsComparable && s == .value c.category .plain
  | some s, .email, .nothing => s == .value .string .plain
  | some s, .allIn, .targets | some s, .noneIn, .targets =>
    s == .value c.category c.shape && c.shape != .plain &&
      op.targetType c == .value c.category .plain
  | some _, .always, .nothing => true
  | _, _, _ => false

theorem Template.exists_typeOn_of_fitsTypes {t : Template} {op : Operation} {c : TypeClass}
    (h : t.fitsTypes op c = true) :
    ∃ s, t.operand.typeOn (.value c.category c.shape) = some s := by
  unfold fitsTypes at h
  cases hs : t.operand.typeOn (.value c.category c.shape) with
  | none => simp [hs] at h
  | some s => exact ⟨s, rfl⟩

/-- They do so on every class that the operation is legal for. -/
theorem Template.fitsTypes_of_isLegalFor {op : Operation} {c : TypeClass} {t : Template}
    (h : op.isLegalFor c = true) (ht : Template.of op c.category c.shape = some t) :
    t.fitsTypes op c = true := by
  have hall : ∀ op ∈ Operation.all, ∀ c ∈ TypeClass.all, op.isLegalFor c = true →
      ∀ t ∈ Template.of op c.category c.shape, t.fitsTypes op c = true := by decide +kernel
  exact hall op (Operation.mem_all op) c (TypeClass.mem_all c) h t ht

/-! ### The types of what is built -/

/-- The context inside the guard of a field of the type. -/
def Context.guardedBy (Γ : Context) (type : FieldType) : Context :=
  if type.optional then { Γ with bound := some type.exprType } else Γ

namespace Condition

variable {Γ : Context} {name : String} {type : FieldType} {rule : Rule} {t : Template}
  {s : ExprType}

/-- Inside its guard, a field can be read. -/
theorem hasType_fieldValue (h : Γ.field [name] type) :
    (fieldValue name type).HasType (Γ.guardedBy type) type.exprType := by
  unfold fieldValue Context.guardedBy
  cases hoptional : type.optional with
  | true => exact .bound rfl
  | false => exact .field h hoptional

/-- A check of what the field holds, under the guard of the field, is a check. -/
theorem hasType_guarded {body : Expr} (h : Γ.field [name] type)
    (hbody : body.HasType (Γ.guardedBy type) .check) :
    (guarded name type body).HasType Γ .check := by
  unfold Context.guardedBy at hbody
  unfold guarded
  cases hoptional : type.optional with
  | true =>
    rw [hoptional] at hbody
    exact .someAnd h hoptional hbody
  | false =>
    rw [hoptional] at hbody
    exact hbody

theorem hasType_subject (hvalue : (fieldValue name type).HasType Γ type.exprType)
    (h : t.operand.typeOn type.exprType = some s) : (subject t name type).HasType Γ s := by
  unfold subject
  cases hoperand : t.operand with
  | value =>
    rw [hoperand] at h
    cases h
    exact hvalue
  | len =>
    rw [hoperand, FieldType.exprType, Operand.typeOn] at h
    obtain ⟨hsized, h⟩ := Option.ite_none_right_eq_some.1 h
    cases h
    exact .len hvalue hsized
  | lower =>
    rw [hoperand] at h
    obtain ⟨htype, rfl⟩ := Operand.eq_of_typeOn_lower h
    exact .lower (htype ▸ hvalue)

/-- The constant that a target is compared as has the type that the class asks for. Lower case does
not change it. -/
theorem exprType_of_read {op : Operation} {value : String} {l : Literal}
    (hprim : type.category ≠ .other) (operand : Operand)
    (h : (TargetKind.of op type).read value = some l) :
    (operandLiteral operand l).exprType = op.targetType type.toClass := by
  have hlower : (operandLiteral operand l).exprType = l.exprType := by
    cases operand <;> cases l <;> rfl
  rw [hlower, TargetKind.exprType_of_read h, TargetKind.exprType_of hprim]

/-- An element is compared as a value of the base type. -/
theorem hasType_elementItem (h : Γ.element = some (.value type.category .plain)) :
    (elementItem type).HasType Γ (.value type.category .plain) := by
  unfold elementItem
  split_ifs with howned
  · rw [howned.1] at h ⊢
    exact .asStr (.element h)
  · exact .element h

/-- Integers are compared as integers. -/
theorem Widening.ne_float_of_commonInteger {left right : String} {w : Widening}
    (h : Widening.commonInteger left right = some w) : w ≠ .float := by
  unfold Widening.commonInteger at h
  dsimp only at h
  split_ifs at h <;> cases h <;> decide

/-- What is widened is a number, and stays one of its category. -/
theorem hasType_widened {op : Operation} {peer : FieldType} {w : Option Widening} {e : Expr}
    (hw : peerWidening op type peer = .ok w) (he : e.HasType Γ (.value type.category .plain)) :
    (widened w e).HasType Γ (.value type.category .plain) := by
  unfold peerWidening at hw
  split_ifs at hw
  · cases hw
    exact he
  · split at hw
    case h_1 hcategory =>
      cases hw
      rw [hcategory] at he ⊢
      exact .widenFloat he
    case h_2 hcategory =>
      split at hw
      · rename_i w' hcommon
        cases hw
        rw [hcategory] at he ⊢
        exact .widenInteger (Widening.ne_float_of_commonInteger hcommon) he
      · cases hw
    case h_3 =>
      cases hw
      exact he

/-! ### Every rule that fits is well-typed -/

/-- A rule that fits its field has a well-typed body where the field and its peer can be read. -/
theorem exists_body_of_fits (h : rule.Fits type) (hprim : type.category ≠ .other)
    (hvalue : (fieldValue name type).HasType Γ type.exprType)
    (hpeer : ∀ peer, rule.peer = some peer →
      (Expr.field peer.path).HasType Γ (.value type.category .plain)) :
    ∃ body, Builds name type rule body ∧ body.HasType Γ .check := by
  obtain ⟨t, ht⟩ := Template.exists_of_isLegalFor h.isLegalForType
  have hfits := Template.fitsTypes_of_isLegalFor h.isLegalForType ht
  obtain ⟨s, hs⟩ := Template.exists_typeOn_of_fitsTypes hfits
  have hsubject : (subject t name type).HasType Γ s := hasType_subject hvalue hs
  cases Template.row_of_eq_some ht with
  | constant htest hright =>
    obtain ⟨hcomparable, hl⟩ : s.IsComparable ∧ _ = s := by
      simpa [Template.fitsTypes, hs, htest, hright] using hfits
    exact ⟨_, builds_constant ht htest hright, .compare hcomparable hsubject (hl ▸ .literal)⟩
  | alone htest hright =>
    rcases htest with hemail | halways
    · obtain rfl : s = .value .string .plain := by
        simpa [Template.fitsTypes, hs, hemail, hright] using hfits
      exact ⟨_, builds_email ht hemail hright, .isEmail hsubject⟩
    · exact ⟨_, builds_always ht halways hright, .const⟩
  | single hcmp hone htest hright =>
    obtain ⟨hcomparable, htarget⟩ : s.IsComparable ∧ _ = s := by
      simpa [Template.fitsTypes, hs, htest, hright] using hfits
    have harity := h.hasArity
    simp only [Validation.HasArity, hone] at harity
    obtain ⟨value, hvalues⟩ := harity
    obtain ⟨l, hl⟩ := h.readable hcmp value (hvalues ▸ List.mem_singleton_self value)
    have htype := (exprType_of_read hprim t.operand hl).trans htarget
    exact ⟨_, builds_single ht htest hright hvalues hl,
      .compare hcomparable hsubject (htype ▸ .literal)⟩
  | joined hcmp hmany htest hconnective hright =>
    obtain ⟨hcomparable, htarget⟩ : s.IsComparable ∧ _ = s := by
      simpa [Template.fitsTypes, hs, htest, hright] using hfits
    have harity := h.hasArity
    simp only [Validation.HasArity, hmany] at harity
    obtain ⟨ls, hls⟩ := exists_literals (h.readable hcmp)
    refine ⟨_, builds_joined ht htest hconnective hright harity hls, Expr.hasType_join ?_⟩
    refine List.forall_mem_map.2 fun l hl => .compare hcomparable hsubject ?_
    obtain ⟨value, -, hread⟩ := forall₂_mem_right hls hl
    exact (exprType_of_read hprim t.operand hread).trans htarget ▸ .literal
  | elements hcmp htest hright =>
    obtain ⟨⟨rfl, hshape⟩, htarget⟩ :
        (s = .value type.toClass.category type.toClass.shape ∧ type.toClass.shape ≠ .plain) ∧
          _ = ExprType.value type.toClass.category .plain := by
      rcases htest with hall | hnone
      · simpa [Template.fitsTypes, hs, hall, hright] using hfits
      · simpa [Template.fitsTypes, hs, hnone, hright] using hfits
    obtain ⟨ls, hls⟩ := exists_literals (h.readable hcmp)
    have hset : ∀ l ∈ ls.map (operandLiteral t.operand),
        l.exprType = .value type.category .plain := by
      refine List.forall_mem_map.2 fun l hl => ?_
      obtain ⟨value, -, hread⟩ := forall₂_mem_right hls hl
      exact (exprType_of_read hprim t.operand hread).trans htarget
    have hcomparable : (ExprType.value type.category .plain).IsComparable := ⟨hprim, rfl⟩
    have hitem : (elementItem type).HasType
        { Γ with element := some (.value type.category .plain) } (.value type.category .plain) :=
      hasType_elementItem rfl
    have hinSet := Expr.HasType.inSet hcomparable hitem hset
    rcases htest with hall | hnone
    · exact ⟨_, builds_allIn ht hall hright hls, .every hshape hsubject hinSet⟩
    · exact ⟨_, builds_noneIn ht hnone hright hls, .every hshape hsubject (.not hinSet)⟩
  | peer hcmp htest hright =>
    obtain ⟨hcomparable, rfl⟩ : s.IsComparable ∧ s = .value type.toClass.category .plain := by
      simpa [Template.fitsTypes, hs, htest, hright] using hfits
    obtain ⟨peer, hrule, hcompares⟩ := h.exists_peer hcmp
    obtain ⟨w, hw, hbuilds⟩ := builds_peer ht htest hright hrule hcompares
    exact ⟨_, hbuilds,
      .compare hcomparable (hasType_widened hw hsubject) (hasType_widened hw (hpeer peer hrule))⟩

/-- **A rule that fits its field has a well-typed check**, in any context in which the paths of the
field and of its peer lead to fields of their types. -/
theorem exists_hasType_of_fits (h : rule.Fits type) (hprim : type.category ≠ .other)
    (hfield : Γ.field [name] type)
    (hpeer : ∀ peer, rule.peer = some peer → Γ.field peer.path peer.type ∧
      peer.type.shape = .plain ∧ peer.type.optional = false ∧ ComparesWith type peer.type) :
    ∃ condition e, build name type rule = .ok condition ∧ condition.expr = .ok e ∧
      e.HasType Γ .check := by
  have hguarded : (Γ.guardedBy type).field = Γ.field := by
    unfold Context.guardedBy
    split_ifs <;> rfl
  obtain ⟨body, ⟨condition, hbuild, hexpr⟩, hbody⟩ :=
    exists_body_of_fits h hprim (hasType_fieldValue hfield) fun peer hrule => by
      obtain ⟨hpath, hshape, hoptional, hcompares⟩ := hpeer peer hrule
      have htyped := Expr.HasType.field (hguarded ▸ hpath) hoptional
      rwa [FieldType.exprType, hshape, hcompares.category] at htyped
  exact ⟨condition, _, hbuild, hexpr, hasType_guarded hfield hbody⟩

end Condition

end FieldRules
