import FieldRules.Proofs.Condition.Widening
import FieldRules.Proofs.Tag.Canonical

/-!
# Comparisons from either side

That one field is greater than another can be written in the tag of either field: as greater in the
one, as less in the other. The two are checked in different ways, since only the field with the tag
has to be of a class that the operation is legal for, while its peer has to be of the same category,
bare, and of a type with a common one. `FieldType.Compares` collects what is asked of both, and
`FieldType.Compares.mirror` says that it is the same from the other side.

So a comparison is accepted exactly if its mirror image is, and what is built for the one is what is
built for the other with the sides exchanged (`comparisons_dual`).
-/

namespace FieldRules

open Text

/-! ### Exchanging the sides -/

@[simp] theorem Comparison.mirror_mirror (c : Comparison) : c.mirror.mirror = c := by
  cases c <;> rfl

theorem Operation.comparableBy_mirror (c : Comparison) (category : Category) :
    comparableBy c.mirror category = comparableBy c category := by
  cases c <;> rfl

theorem Widening.commonInteger_comm (left right : String) :
    commonInteger left right = commonInteger right left := by
  simp only [commonInteger, and_comm, Bool.and_comm]

variable {c : Comparison} {source target : FieldType}

theorem ComparesWith.symm (h : ComparesWith source target) : ComparesWith target source where
  category := h.category.symm
  common hinteger := by
    rw [eq_comm, Widening.commonInteger_comm]
    exact h.common (h.category.symm.trans hinteger)

/-- A field of the one type can have a tag that compares it with a field of the other. -/
structure FieldType.Compares (c : Comparison) (source target : FieldType) : Prop where
  /-- The operation is legal for the field with the tag. -/
  legal : (Operation.compareField c).isLegalForType source = true
  /-- Values of the two types can be compared, -/
  common : ComparesWith source target
  /-- and the peer is no container, -/
  plain : target.shape = .plain
  /-- and there is always one. -/
  present : target.optional = false

/-- The other field can then have the tag that compares it with this one. -/
theorem FieldType.Compares.mirror (h : Compares c source target) :
    Compares c.mirror target source := by
  obtain ⟨⟨hcomparable, hplain⟩, hpresent⟩ := Operation.isLegalFor_compareField_iff.1 h.legal
  have hcomparable' : Operation.comparableBy c.mirror target.category = true := by
    rw [Operation.comparableBy_mirror, h.common.category]
    exact hcomparable
  have hplain' : target.shape.kind = .plain := Shape.kind_eq_plain_iff.2 h.plain
  exact {
    legal := Operation.isLegalFor_compareField_iff.2 ⟨⟨hcomparable', hplain'⟩, h.present⟩
    common := h.common.symm
    plain := Shape.kind_eq_plain_iff.1 hplain
    present := hpresent }

theorem FieldType.compares_mirror_iff :
    Compares c.mirror target source ↔ Compares c source target := by
  constructor
  · intro h
    simpa using h.mirror
  · exact FieldType.Compares.mirror

/-- Only primitive types have values to compare. -/
theorem FieldType.Compares.category_ne_other (h : Compares c source target) :
    source.category ≠ .other := by
  intro hother
  have hcomparable := (Operation.isLegalFor_compareField_iff.1 h.legal).1.1
  have hcategory : source.toClass.category = .other := hother
  rw [hcategory] at hcomparable
  cases c <;> cases hcomparable

/-- The two sides are compared in the same type from either side. -/
theorem Condition.peerWidening_symm {op op' : Operation} {w : Option Widening}
    (hcategory : target.category = source.category) (h : peerWidening op source target = .ok w) :
    peerWidening op' target source = .ok w := by
  unfold peerWidening at h ⊢
  rw [Widening.commonInteger_comm, hcategory]
  by_cases hbase : trimmed target.base = trimmed source.base
  · rw [if_pos hbase] at h
    rw [if_pos hbase.symm, h]
  · rw [if_neg hbase] at h
    rw [if_neg (Ne.symm hbase)]
    cases hsource : source.category with
    | integer =>
      rw [hsource] at h
      cases hcommon : Widening.commonInteger source.base target.base with
      | none =>
        rw [hcommon] at h
        cases h
      | some wide =>
        rw [hcommon] at h
        exact h
    | float | string | bool | other =>
      rw [hsource] at h
      exact h

/-! ### A comparison in a tag -/

/-- The tag that compares a field with the field of the given name. -/
def comparisonTag (c : Comparison) (peer : String) : String :=
  (Operation.compareField c).name ++ "=" ++ peer

/-- The name can be written in a tag as it is, and is no path: it is not empty, and has neither
blanks nor separators. Every identifier is such a name. -/
structure IsFieldName (name : String) : Prop where
  ne_empty : name ≠ ""
  plain : ∀ c ∈ name.toList, isBlank c = false ∧ c ∉ [',', '\'', '=', '.']

namespace IsFieldName

variable {name : String}

theorem trim_eq (h : IsFieldName name) : trim name.toList = name.toList :=
  trim_eq_self fun c hc => (h.plain c hc).1

theorem not_mem (h : IsFieldName name) {c : Char} (hc : c ∈ [',', '\'', '=', '.']) :
    c ∉ name.toList :=
  fun hmem => (h.plain c hmem).2 hc

/-- The tag states the comparison and nothing else. -/
theorem validations_comparisonTag (h : IsFieldName name) (c : Comparison) :
    Tag.validations (comparisonTag c name) = .ok [⟨.compareField c, [name]⟩] := by
  have hv : Validation.Representable ⟨.compareField c, [name]⟩ :=
    .one rfl rfl h.ne_empty h.trim_eq (h.not_mem (by decide))
  have htext : Validation.text ⟨.compareField c, [name]⟩ = comparisonTag c name := by
    simp [Validation.text, Operation.arity, comparisonTag, String.join]
  have hpiece : Tag.IsPiece false none (comparisonTag c name).toList := by
    obtain ⟨hcomma, hquote, -⟩ := (Operation.compareField c).name_plain
    refine Tag.isPiece_plain ?_ ?_
    · simp [comparisonTag, hcomma, h.not_mem]
    · simp [comparisonTag, hquote, h.not_mem]
  obtain ⟨htrim, hne⟩ := Validation.trim_text hv
  have hread := Validation.ofEntry_text hv
  rw [htext] at htrim hne hread
  exact Tag.validations_eq_ok_iff.2 ⟨_, Tag.entries_of_isPiece hpiece htrim hne, .cons hread .nil⟩

/-- The name is a path of one segment. -/
theorem peerPath_eq (h : IsFieldName name) {op : Operation} :
    Analysis.peerPath (Analysis.peerReference ⟨op, [name]⟩) = [name] := by
  have hreference : Analysis.peerReference ⟨op, [name]⟩ = name := by
    simp [Analysis.peerReference, trimmed, h.trim_eq]
  rw [hreference, Analysis.peerPath, List.splitOn_eq_singleton (h.not_mem (by decide))]
  simp [h.trim_eq]

end IsFieldName

/-! ### The only comparison of a declaration -/

/-- The field with the comparison in its tag if it has the name, and with an empty tag otherwise. -/
def Field.comparing (field : Field) (name : String) (c : Comparison) (peer : String) : Field :=
  { field with tag := if field.name = name then comparisonTag c peer else "" }

/-- The declaration whose tags are empty except that one field is compared with another. -/
def Declaration.comparing (d : Declaration) (name : String) (c : Comparison) (peer : String) :
    Declaration :=
  { d with fields := d.fields.map (·.comparing name c peer) }

/-- The rule of a comparison with a field of the declaration itself. -/
def comparisonRule (c : Comparison) (peer : String) (type : FieldType) : Rule :=
  ⟨⟨.compareField c, [peer]⟩, some ⟨[peer], type⟩⟩

theorem FieldType.Compares.fits (h : Compares c source target) (peer : String) :
    (comparisonRule c peer target).Fits source :=
  .compared ⟨peer, rfl⟩ rfl h.legal rfl h.common

theorem Declaration.untagged_comparing (d : Declaration) (name : String) (c : Comparison)
    (peer : String) : (d.comparing name c peer).untagged = d.untagged := by
  simp [comparing, untagged, Field.comparing, Field.untagged, Function.comp_def]

namespace Analysis

variable {types : List Declaration} {owner d : Declaration} {field peer a b : Field} {name : String}

/-- A comparison with a field of the declaration itself makes a rule exactly if the types
compare. -/
theorem checkValidation_compareField_iff {rule : Rule} (hname : IsFieldName name)
    (hpeer : FirstNamed owner name peer) :
    checkValidation (Scope.of types) owner field ⟨.compareField c, [name]⟩ = .ok rule ↔
      field.fieldType.Compares c peer.fieldType ∧ rule = comparisonRule c name peer.fieldType := by
  rw [checkValidation_eq_ok_iff]
  constructor
  · obtain ⟨v, found⟩ := rule
    rintro ⟨rfl, haccepted⟩
    cases haccepted with
    | nested _ hop => cases hop
    | checked _ hcmp => cases hcmp
    | compared hprim hcmp hresolve =>
      obtain ⟨target, hfind, hcomparable, hlegal, hbare, rfl⟩ := resolvePeer_eq_ok_iff.1 hresolve
      have hpath := findPeer_eq_ok_iff.1 hfind
      rw [hname.peerPath_eq] at hpath
      obtain rfl := hpath.unique (.last hpeer)
      obtain ⟨hplain, hpresent⟩ := FieldType.isBare_iff.1 hbare
      refine ⟨⟨hlegal, comparable_iff.1 hcomparable, hplain, hpresent⟩, ?_⟩
      rw [hname.peerPath_eq]
      rfl
  · rintro ⟨hcompares, rfl⟩
    refine ⟨rfl, .compared (FieldType.isPrimitive_iff.2 hcompares.category_ne_other) rfl ?_⟩
    refine resolvePeer_eq_ok_iff.2 ⟨peer, findPeer_eq_ok_iff.2 ?_,
      comparable_iff.2 hcompares.common, hcompares.legal,
      FieldType.isBare_iff.2 ⟨hcompares.plain, hcompares.present⟩, ?_⟩
    · rw [hname.peerPath_eq]
      exact .last hpeer
    · rw [hname.peerPath_eq]

/-- A field that is not the one with the comparison gets no rules. -/
theorem rulesOf_comparing_of_ne {scope : Scope} {peer : String} (h : field.name ≠ name) :
    RulesOf scope owner (field.comparing name c peer) [] := by
  have htag : (field.comparing name c peer).tag = "" := if_neg h
  refine ⟨[], ?_, .nil⟩
  rw [htag]
  rfl

section

variable (hnames : (d.fields.map (·.name)).Nodup) (ha : a ∈ d.fields) (hb : b ∈ d.fields)
  (hname : IsFieldName b.name)
include hnames hb hname

/-- The field with the comparison gets its rule exactly if the types of the two fields compare. -/
theorem rulesOf_comparing_iff {rules : List Rule} :
    RulesOf (Scope.of types) (d.comparing a.name c b.name) (a.comparing a.name c b.name) rules ↔
      a.fieldType.Compares c b.fieldType ∧ rules = [comparisonRule c b.name b.fieldType] := by
  have hsame : (d.comparing a.name c b.name).fields.map (·.name) = d.fields.map (·.name) := by
    simp [Declaration.comparing, Field.comparing, Function.comp_def]
  have hpeer : FirstNamed (d.comparing a.name c b.name) b.name (b.comparing a.name c b.name) := by
    rw [← hsame] at hnames
    exact firstNamed_of_nodup hnames (List.mem_map_of_mem hb)
  have htag : (a.comparing a.name c b.name).tag = comparisonTag c b.name := if_pos rfl
  rw [RulesOf, htag, hname.validations_comparisonTag c]
  simp only [Except.ok.injEq, exists_eq_left', List.forall₂_cons_left_iff,
    List.forall₂_nil_left_iff, checkValidation_compareField_iff hname hpeer]
  constructor
  · rintro ⟨_, _, ⟨hcompares, rfl⟩, rfl, rfl⟩
    exact ⟨hcompares, rfl⟩
  · rintro ⟨hcompares, rfl⟩
    exact ⟨_, [], ⟨hcompares, rfl⟩, rfl, rfl⟩

include ha

/-- The declaration can be annotated exactly if the types of the two fields compare. -/
theorem exists_annotates_comparing_iff :
    (∃ annotated, Annotates (Scope.of types) (d.comparing a.name c b.name) annotated) ↔
      a.fieldType.Compares c b.fieldType := by
  rw [exists_annotates_iff]
  constructor
  · intro h
    obtain ⟨_, rules, hrules, -⟩ := h _ (List.mem_map_of_mem ha)
    exact ((rulesOf_comparing_iff hnames hb hname).1 hrules).1
  · intro hcompares field hfield
    obtain ⟨source, hsource, rfl⟩ := List.mem_map.1 hfield
    by_cases hsame : source.name = a.name
    · obtain rfl := List.inj_on_of_nodup_map hnames hsource ha hsame
      exact ⟨_, _, (rulesOf_comparing_iff hnames hb hname).2 ⟨hcompares, rfl⟩, rfl⟩
    · exact ⟨_, _, rulesOf_comparing_of_ne hsame, rfl⟩

/-- Among others, it is accepted exactly if the others are and the types of the two fields
compare. -/
theorem exists_analyze_comparing_iff {before after : List Declaration} :
    (∃ analyzed, analyze (before ++ d.comparing a.name c b.name :: after) = .ok analyzed) ↔
      ((before ++ d :: after).map Declaration.key).Nodup ∧
        (∀ e ∈ before ++ after, ∃ annotated,
          Annotates (Scope.of (before ++ d :: after)) e annotated) ∧
        a.fieldType.Compares c b.fieldType := by
  have huntagged : (before ++ d.comparing a.name c b.name :: after).map Declaration.untagged =
      (before ++ d :: after).map Declaration.untagged := by
    simp [Declaration.untagged_comparing]
  have hkeys : (before ++ d.comparing a.name c b.name :: after).map Declaration.key =
      (before ++ d :: after).map Declaration.key := by
    simp [Declaration.key, Declaration.comparing]
  rw [exists_analyze_eq_ok_iff, hkeys, annotates_congr_untagged huntagged,
    ← exists_annotates_comparing_iff hnames ha hb hname]
  refine and_congr_right fun _ => ?_
  simp only [List.mem_append, List.mem_cons]
  constructor
  · intro h
    exact ⟨fun e he => h e (he.imp_right .inr), h _ (.inr (.inl rfl))⟩
  · rintro ⟨hothers, hd⟩ e (he | rfl | he)
    · exact hothers e (.inl he)
    · exact hd
    · exact hothers e (.inr he)

end

end Analysis

/-! ### What is built -/

/-- The field has one rule, which is checked by the expression. -/
def Declaration.ChecksField (d : Declaration) (name : String) (e : Expr) : Prop :=
  ∃ field ∈ d.fields, field.name = name ∧ ∃ rule condition, field.rules = [rule] ∧
    Condition.build field.name field.fieldType rule = .ok condition ∧ condition.expr = .ok e

/-- A comparison of two fields in a wider type, if there is one. -/
def Expr.comparison (w : Option Widening) (left : String) (c : Comparison) (right : String) :
    Expr :=
  .compare c (Condition.widened w (.field [left])) (Condition.widened w (.field [right]))

section

variable {before after analyzed : List Declaration} {d : Declaration} {a b : Field}

/-- The declaration is annotated with one rule, and the check of it compares the two fields. -/
theorem exists_checksField_comparing (hnames : (d.fields.map (·.name)).Nodup) (ha : a ∈ d.fields)
    (hb : b ∈ d.fields) (hname : IsFieldName b.name)
    (h : analyze (before ++ d.comparing a.name c b.name :: after) = .ok analyzed) :
    ∃ annotated w, analyzed[before.length]? = some annotated ∧
      Condition.peerWidening (.compareField c) a.fieldType b.fieldType = .ok w ∧
      annotated.ChecksField a.name (.comparison w a.name c b.name) := by
  obtain ⟨-, hall⟩ := analyze_eq_ok_iff_annotates.1 h
  have hplace : (before ++ d.comparing a.name c b.name :: after)[before.length]? =
      some (d.comparing a.name c b.name) := by simp
  obtain ⟨annotated, hannotated, hannotates⟩ := exists_getElem?_of_forall₂ hall hplace
  obtain ⟨fields, hfields, rfl⟩ := hannotates
  obtain ⟨field, hfield, hrules⟩ := forall₂_mem_right hfields.flip (List.mem_map_of_mem ha)
  obtain ⟨rules, hrules, rfl⟩ := hrules
  obtain ⟨hcompares, rfl⟩ := (Analysis.rulesOf_comparing_iff hnames hb hname).1 hrules
  obtain ⟨peer, w, condition, hpeer, hw, hbuild, hexpr⟩ :=
    Condition.exists_build_compareField rfl (hcompares.fits b.name)
  cases hpeer
  exact ⟨_, w, hannotated, hw, _, hfield, rfl, _, condition, rfl, hbuild, hexpr⟩

/-- **Comparisons are dual.** In a declaration whose fields have different names and whose tags are
empty otherwise, a field can be compared with another exactly if the other can be compared with it
by the mirrored comparison. The checks are then the two comparisons with their sides exchanged, in
the same type. -/
theorem comparisons_dual (before after : List Declaration)
    (hnames : (d.fields.map (·.name)).Nodup) (ha : a ∈ d.fields) (hb : b ∈ d.fields)
    (haname : IsFieldName a.name) (hbname : IsFieldName b.name) (c : Comparison) :
    ((∃ analyzed, analyze (before ++ d.comparing a.name c b.name :: after) = .ok analyzed) ↔
      ∃ analyzed, analyze (before ++ d.comparing b.name c.mirror a.name :: after) = .ok analyzed) ∧
    ∀ analyzed analyzed', analyze (before ++ d.comparing a.name c b.name :: after) = .ok analyzed →
      analyze (before ++ d.comparing b.name c.mirror a.name :: after) = .ok analyzed' →
      ∃ annotated annotated' w, analyzed[before.length]? = some annotated ∧
        analyzed'[before.length]? = some annotated' ∧
        annotated.ChecksField a.name (.comparison w a.name c b.name) ∧
        annotated'.ChecksField b.name (.comparison w b.name c.mirror a.name) := by
  constructor
  · rw [Analysis.exists_analyze_comparing_iff hnames ha hb hbname,
      Analysis.exists_analyze_comparing_iff hnames hb ha haname, FieldType.compares_mirror_iff]
  · intro analyzed analyzed' h h'
    obtain ⟨annotated, w, hannotated, hw, hchecks⟩ :=
      exists_checksField_comparing hnames ha hb hbname h
    obtain ⟨annotated', w', hannotated', hw', hchecks'⟩ :=
      exists_checksField_comparing hnames hb ha haname h'
    obtain ⟨-, -, hcompares⟩ :=
      (Analysis.exists_analyze_comparing_iff hnames ha hb hbname).1 ⟨analyzed, h⟩
    obtain rfl : w = w' := Except.ok.inj
      ((Condition.peerWidening_symm hcompares.common.category hw).symm.trans hw')
    exact ⟨annotated, annotated', w, hannotated, hannotated', hchecks, hchecks'⟩

end

/-- Two fields of integer types. -/
def intervalDeclaration (lowTag highTag : String) : Declaration :=
  ⟨"Interval", "", none, [⟨"low", "u8", lowTag, []⟩, ⟨"high", "i64", highTag, []⟩], false⟩

/-- One field is greater than the other, or the other is less. -/
theorem interval_comparisons_dual :
    ∃ analyzed analyzed' annotated annotated' w,
      analyze [intervalDeclaration "" "gtfield=low"] = .ok analyzed ∧
      analyze [intervalDeclaration "ltfield=high" ""] = .ok analyzed' ∧
      analyzed[0]? = some annotated ∧ analyzed'[0]? = some annotated' ∧
      annotated.ChecksField "high" (.comparison w "high" .gt "low") ∧
      annotated'.ChecksField "low" (.comparison w "low" .lt "high") := by
  have hgreater : (intervalDeclaration "" "").comparing "high" .gt "low" =
      intervalDeclaration "" "gtfield=low" := by decide
  have hless : (intervalDeclaration "" "").comparing "low" .lt "high" =
      intervalDeclaration "ltfield=high" "" := by decide
  have hhigh : IsFieldName "high" := ⟨by decide, by simp [isBlank]⟩
  have hlow : IsFieldName "low" := ⟨by decide, by simp [isBlank]⟩
  obtain ⟨haccepted, hbuilt⟩ := comparisons_dual [] []
    (by decide : ((intervalDeclaration "" "").fields.map (·.name)).Nodup)
    (List.mem_cons_of_mem _ List.mem_cons_self) List.mem_cons_self hhigh hlow .gt
  dsimp only [List.nil_append, Comparison.mirror] at haccepted hbuilt
  rw [hgreater, hless] at haccepted hbuilt
  have heval : (analyze [intervalDeclaration "" "gtfield=low"]).toOption.any fun _ => true := by
    decide +kernel
  obtain ⟨analyzed, hanalyzed, -⟩ := exists_eq_ok_of_any heval
  obtain ⟨analyzed', hanalyzed'⟩ := haccepted.1 ⟨analyzed, hanalyzed⟩
  obtain ⟨annotated, annotated', w, hbuilt⟩ := hbuilt _ _ hanalyzed hanalyzed'
  exact ⟨analyzed, analyzed', annotated, annotated', w, hanalyzed, hanalyzed', hbuilt⟩

end FieldRules
