import FieldRules.Proofs.Analysis.Paths
import FieldRules.Proofs.Condition.Typing
import FieldRules.Proofs.Source.Forms
import FieldRules.Proofs.Source.Literals

/-!
# Checks of rules are written unambiguously

The checks of accepted rules are of the forms whose source is unambiguous, as long as no constant is
a floating-point number and names are names of source. So two rules on fields of texts, truth values
or integers have the same source only if they have the same check, up to the kinds of its integer
constants (`check_source_unambiguous`).
-/

namespace FieldRules

open Source

/-- What a template tests has a form that is read back: another comparison than with constants looks
at the value itself, a membership has constants, and none of them is a floating-point number but on
fields of such numbers. -/
def Template.isReadBack (t : Template) (op : Operation) (category : Category) : Bool :=
  match t.test, t.right with
  | .compare _, .fixed l => category == .float || l.exprType != .value .float .plain
  | .compare _, .targets | .always, .nothing => true
  | .compare _, .peer | .email, .nothing => t.operand == .value
  | .allIn, .targets | .noneIn, .targets => t.operand == .value && op.arity == .many
  | _, _ => false

/-- All rows of the table do. -/
theorem Template.isReadBack_of_eq_some {op : Operation} {c : TypeClass} {t : Template}
    (ht : Template.of op c.category c.shape = some t) : t.isReadBack op c.category = true := by
  have hall : ∀ op ∈ Operation.all, ∀ c ∈ TypeClass.all,
      ∀ t ∈ Template.of op c.category c.shape, t.isReadBack op c.category = true := by
    decide +kernel
  exact hall op (Operation.mem_all op) c (TypeClass.mem_all c) t ht

theorem Source.isExact_of_exprType {l : Literal} (h : l.exprType ≠ .value .float .plain) :
    IsExact l := by
  cases l with
  | float => exact absurd rfl h
  | text | int | unsigned | bool | size => trivial

namespace Condition

variable {name : String} {type : FieldType} {rule : Rule} {t : Template}

theorem subject_fieldValue (hname : IsName name) : Subject (fieldValue name type) := by
  unfold fieldValue
  split_ifs
  · exact .bound
  · exact .field hname

theorem leftOperand_subject (hname : IsName name) (t : Template) :
    LeftOperand (subject t name type) := by
  have hvalue := @subject_fieldValue name type hname
  unfold subject
  cases t.operand with
  | value => exact .value hvalue
  | len => exact .len hvalue
  | lower => exact .lower hvalue

theorem subject_of_operand (hname : IsName name) (h : t.operand = .value) :
    Subject (subject t name type) := by
  rw [subject, h]
  exact subject_fieldValue hname

theorem item_elementItem : Item (elementItem type) := by
  unfold elementItem
  split_ifs
  · exact .borrowed
  · exact .element

/-- A field that is not floating-point is compared with exact constants. -/
theorem isExact_of_read {op : Operation} {value : String} {l : Literal}
    (hprim : type.category ≠ .other) (hfloat : type.category ≠ .float) (operand : Operand)
    (h : (TargetKind.of op type).read value = some l) : IsExact (operandLiteral operand l) := by
  refine isExact_of_exprType ?_
  rw [exprType_of_read hprim operand h]
  have hvalue : ExprType.value type.category .plain ≠ .value .float .plain := by
    simpa using hfloat
  unfold Operation.targetType
  split
  · split_ifs
    · exact nofun
    · exact hvalue
  · exact nofun
  · exact hvalue

/-- Targets are read as as many exact constants. -/
theorem exists_exact_literals {op : Operation} {values : List String}
    (hprim : type.category ≠ .other) (hfloat : type.category ≠ .float) (operand : Operand) (hne : values ≠ [])
    (hread : ∀ value ∈ values, Analysis.Readable op type value) :
    ∃ ls, Literals op type values ls ∧ (∀ l ∈ ls.map (operandLiteral operand), IsExact l) ∧
      ls.map (operandLiteral operand) ≠ [] := by
  obtain ⟨ls, hls⟩ := exists_literals hread
  refine ⟨ls, hls, List.forall_mem_map.2 fun l hl => ?_, fun hnil => hne ?_⟩
  · obtain ⟨value, -, hvalue⟩ := forall₂_mem_right hls hl
    exact isExact_of_read hprim hfloat operand hvalue
  · rw [List.map_eq_nil_iff.1 hnil] at hls
    exact List.forall₂_nil_right_iff.1 hls

/-- The comparisons of one left side with some constants, joined. -/
theorem body_join {op : Connective} {c : Comparison} {L : Expr} {ls : List Literal}
    (hL : LeftOperand L) (hls : ∀ l ∈ ls, IsExact l) (hne : ls ≠ []) :
    Body (.join op (ls.map fun l => .compare c L (.literal l))) := by
  match ls with
  | [] => exact absurd rfl hne
  | [l] => exact .comparison hL (.constant (hls l List.mem_cons_self))
  | _ :: _ :: _ => exact .connection hL hls (by simp)

theorem rightOperand_widened {path : List String} (hne : path ≠ [])
    (hpath : ∀ name ∈ path, IsName name) (w : Option Widening) :
    RightOperand (widened w (.field path)) := by
  cases w with
  | none => exact .field hne hpath
  | some w => exact .widen hne hpath

theorem leftOperand_widened {V : Expr} (hV : Subject V) (w : Option Widening) :
    LeftOperand (widened w V) := by
  cases w with
  | none => exact .value hV
  | some w => exact .widen hV

/-- A rule that fits its field has a check of one of the forms. -/
theorem exists_form_of_fits (h : rule.Fits type) (hname : IsName name)
    (hprim : type.category ≠ .other) (hfloat : type.category ≠ .float)
    (hpeer : ∀ peer, rule.peer = some peer → peer.path ≠ [] ∧ ∀ name ∈ peer.path, IsName name) :
    ∃ body, Builds name type rule body ∧ Body body := by
  obtain ⟨t, ht⟩ := Template.exists_of_isLegalFor h.isLegalForType
  have hform := @Template.isReadBack_of_eq_some _ type.toClass _ ht
  have hleft := @leftOperand_subject name type hname t
  have harity := h.hasArity
  cases Template.row_of_eq_some ht with
  | @constant c l htest hright =>
    have hl : type.category = .float ∨ l.exprType ≠ .value .float .plain := by
      simpa [Template.isReadBack, htest, hright, FieldType.toClass] using hform
    exact ⟨_, builds_constant ht htest hright,
      .comparison hleft (.constant (isExact_of_exprType (hl.resolve_left hfloat)))⟩
  | alone htest hright =>
    rcases htest with hemail | halways
    · have hoperand : t.operand = .value := by
        simpa [Template.isReadBack, hemail, hright] using hform
      exact ⟨_, builds_email ht hemail hright, .email (subject_of_operand hname hoperand)⟩
    · exact ⟨_, builds_always ht halways hright, .presence⟩
  | single hcmp hone htest hright =>
    simp only [Validation.HasArity, hone] at harity
    obtain ⟨value, hvalues⟩ := harity
    obtain ⟨l, hl⟩ := h.readable hcmp value (hvalues ▸ List.mem_singleton_self value)
    exact ⟨_, builds_single ht htest hright hvalues hl,
      .comparison hleft (.constant (isExact_of_read hprim hfloat t.operand hl))⟩
  | @joined c connective hcmp hmany htest hconnective hright =>
    simp only [Validation.HasArity, hmany] at harity
    obtain ⟨ls, hls, hexact, hne⟩ :=
      exists_exact_literals hprim hfloat t.operand harity (h.readable hcmp)
    have hbody := @body_join connective c _ _ hleft hexact hne
    rw [List.map_map] at hbody
    exact ⟨_, builds_joined ht htest hconnective hright harity hls, hbody⟩
  | elements hcmp htest hright =>
    obtain ⟨hoperand, hmany⟩ :
        t.operand = .value ∧ rule.validation.operation.arity = .many := by
      rcases htest with hall | hnone
      · simpa [Template.isReadBack, hall, hright] using hform
      · simpa [Template.isReadBack, hnone, hright] using hform
    simp only [Validation.HasArity, hmany] at harity
    obtain ⟨ls, hls, hexact, hne⟩ :=
      exists_exact_literals hprim hfloat t.operand harity (h.readable hcmp)
    have hV := @subject_of_operand name type t hname hoperand
    rcases htest with hall | hnone
    · exact ⟨_, builds_allIn ht hall hright hls,
        @Body.statement _ _ _ false _ hV item_elementItem hexact hne⟩
    · exact ⟨_, builds_noneIn ht hnone hright hls,
        @Body.statement _ _ _ true _ hV item_elementItem hexact hne⟩
  | peer hcmp htest hright =>
    have hoperand : t.operand = .value := by
      simpa [Template.isReadBack, htest, hright] using hform
    obtain ⟨peer, hrule, hcompares⟩ := h.exists_peer hcmp
    obtain ⟨hne, hpath⟩ := hpeer peer hrule
    obtain ⟨w, -, hbuilds⟩ := builds_peer ht htest hright hrule hcompares
    exact ⟨_, hbuilds, .comparison (leftOperand_widened (subject_of_operand hname hoperand) w)
      (rightOperand_widened hne hpath w)⟩

theorem check_guarded (hname : IsName name) {body : Expr} (h : Body body) :
    Check (guarded name type body) := by
  unfold guarded
  split_ifs
  · exact .guarded hname h
  · exact .bare h

end Condition

open Condition

variable {types analyzed : List Declaration}

/-- The check of an accepted rule is of one of the forms. -/
theorem exists_check_of_analyze (h : analyze types = .ok analyzed) {d : Declaration}
    (hd : d ∈ analyzed) {field : Field} (hfield : field ∈ d.fields) {rule : Rule}
    (hrule : rule ∈ field.rules)
    (hcategory : field.fieldType.category ∈ [Category.string, .bool, .integer])
    (hname : IsName field.name)
    (hpeer : ∀ peer, rule.peer = some peer → ∀ name ∈ peer.path, IsName name) :
    ∃ condition e, build field.name field.fieldType rule = .ok condition ∧
      condition.expr = .ok e ∧ Check e := by
  have hprim : field.fieldType.category ≠ .other ∧ field.fieldType.category ≠ .float := by
    constructor <;> intro heq <;> rw [heq] at hcategory <;> exact absurd hcategory (by decide)
  have hfits := fits_of_analyze h hd hfield (FieldType.isPrimitive_iff.2 hprim.1) hrule
  obtain ⟨body, ⟨condition, hbuild, hexpr⟩, hbody⟩ :=
    exists_form_of_fits hfits hname hprim.1 hprim.2 fun peer hsome => by
      obtain ⟨target, hleads, -⟩ := leadsTo_of_analyze h hd hfield hrule hsome
      exact ⟨hleads.ne_nil, hpeer peer hsome⟩
  exact ⟨condition, _, hbuild, hexpr, check_guarded hname hbody⟩

/-- **Checks are written unambiguously.** Two accepted rules on fields of texts, truth values or
integers, whose names and peers are names of source, have a check each. The checks have the same
source exactly if they differ at most in the kinds of their integer constants. -/
theorem check_source_unambiguous {types types' analyzed analyzed' : List Declaration}
    (h : analyze types = .ok analyzed) (h' : analyze types' = .ok analyzed') {d d' : Declaration}
    (hd : d ∈ analyzed) (hd' : d' ∈ analyzed') {field field' : Field} (hfield : field ∈ d.fields)
    (hfield' : field' ∈ d'.fields) {rule rule' : Rule} (hrule : rule ∈ field.rules)
    (hrule' : rule' ∈ field'.rules)
    (hcategory : field.fieldType.category ∈ [Category.string, .bool, .integer])
    (hcategory' : field'.fieldType.category ∈ [Category.string, .bool, .integer])
    (hname : IsName field.name) (hname' : IsName field'.name)
    (hpeer : ∀ peer, rule.peer = some peer → ∀ name ∈ peer.path, IsName name)
    (hpeer' : ∀ peer, rule'.peer = some peer → ∀ name ∈ peer.path, IsName name)
    {support : String} (hsupport : IsPath support) :
    ∃ condition e condition' e', build field.name field.fieldType rule = .ok condition ∧
      condition.expr = .ok e ∧ build field'.name field'.fieldType rule' = .ok condition' ∧
      condition'.expr = .ok e' ∧
      (e.source support = e'.source support ↔ e.unkinded = e'.unkinded) := by
  obtain ⟨condition, e, hbuild, hexpr, he⟩ :=
    exists_check_of_analyze h hd hfield hrule hcategory hname hpeer
  obtain ⟨condition', e', hbuild', hexpr', he'⟩ :=
    exists_check_of_analyze h' hd' hfield' hrule' hcategory' hname' hpeer'
  exact ⟨condition, e, condition', e', hbuild, hexpr, hbuild', hexpr',
    he.source_eq_iff hsupport he'⟩

/-- Two tags, and one tag that looks like the two of them in source. -/
theorem quoted_separator_unambiguous :
    ∃ analyzed d d' field field' rule rule' condition e condition' e',
      analyze [⟨"Post", "", none, [⟨"tags", "Vec<String>", "in=a b", []⟩], false⟩,
        ⟨"Note", "", none, [⟨"tags", "Vec<String>", "in='a\", \"b'", []⟩], false⟩] = .ok analyzed ∧
      d ∈ analyzed ∧ d' ∈ analyzed ∧ field ∈ d.fields ∧ field' ∈ d'.fields ∧
      rule ∈ field.rules ∧ rule' ∈ field'.rules ∧ rule.validation.values = ["a", "b"] ∧
      rule'.validation.values = ["a\", \"b"] ∧
      build field.name field.fieldType rule = .ok condition ∧ condition.expr = .ok e ∧
      build field'.name field'.fieldType rule' = .ok condition' ∧ condition'.expr = .ok e' ∧
      e.source "crate::support" ≠ e'.source "crate::support" := by
  have hanalyzed : analyze [⟨"Post", "", none, [⟨"tags", "Vec<String>", "in=a b", []⟩], false⟩,
      ⟨"Note", "", none, [⟨"tags", "Vec<String>", "in='a\", \"b'", []⟩], false⟩] =
    .ok [⟨"Post", "", none, [⟨"tags", "Vec<String>", "in=a b",
        [⟨⟨.member false, ["a", "b"]⟩, none⟩]⟩], true⟩,
      ⟨"Note", "", none, [⟨"tags", "Vec<String>", "in='a\", \"b'",
        [⟨⟨.member false, ["a\", \"b"]⟩, none⟩]⟩], true⟩] := by
    decide +kernel
  have htype : FieldType.ofSpelling "Vec<String>" = ⟨.string, .list, false, "String"⟩ := by
    decide +kernel
  obtain ⟨condition, e, condition', e', hbuild, hexpr, hbuild', hexpr', hsame⟩ :=
    @check_source_unambiguous _ _ _ _ hanalyzed hanalyzed _ _ List.mem_cons_self
      (List.mem_cons_of_mem _ List.mem_cons_self) _ _ List.mem_cons_self List.mem_cons_self _ _
      List.mem_cons_self List.mem_cons_self (by decide +kernel) (by decide +kernel) (by decide)
      (by decide) nofun nofun "crate::support" (by decide)
  refine ⟨_, _, _, _, _, _, _, condition, e, condition', e', hanalyzed, List.mem_cons_self,
    List.mem_cons_of_mem _ List.mem_cons_self, List.mem_cons_self, List.mem_cons_self,
    List.mem_cons_self, List.mem_cons_self, rfl, rfl, hbuild, hexpr, hbuild', hexpr', ?_⟩
  rw [Ne, hsame]
  rw [Field.fieldType, htype] at hbuild hbuild'
  cases hbuild
  cases hbuild'
  cases hexpr
  cases hexpr'
  exact fun hunkinded => absurd (congrArg Expr.texts hunkinded) (by decide +kernel)

end FieldRules
