import FieldRules.Proofs.Analysis.Annotation
import FieldRules.Proofs.Compilation.Delegation
import FieldRules.Proofs.Compilation.Internal

/-!
# The blocks of a validator

What the blocks of a validator should be is said here for each field by itself (`BlocksOf`). A
primitive field has one check for each of its rules, in the order of its tag; the only rule without
a check is `required` on a list of fixed length that is always present. Any other field has at most
two blocks: it is checked for presence if it is optional and has a rule, and it is delegated if it is
outside containers and its type has validations.

`blocks_follow_fields` says that a validator has these blocks, field by field, and no others.
-/

namespace FieldRules

variable {types analyzed : List Declaration}

/-! ### What the blocks of a field should be -/

/-- The rule asks for a list of fixed length, which is never absent, and so never empty. -/
def Rule.HoldsAlways (rule : Rule) (type : FieldType) : Prop :=
  rule.validation.operation = .required ∧ type.shape.kind = .fixedList ∧ type.optional = false

instance (rule : Rule) (type : FieldType) : Decidable (rule.HoldsAlways type) :=
  inferInstanceAs (Decidable (_ ∧ _ ∧ _))

/-- The block checks a rule of the field, by the expression and with the message of its
condition. -/
def ChecksRule (field : Field) (rule : Rule) (block : Block) : Prop :=
  ∃ condition e, Condition.build field.name field.fieldType rule = .ok condition ∧
    condition.expr = .ok e ∧ block = .check e field.name condition.message

/-- The check that a field of a declared type is present. -/
inductive PresenceOf (field : Field) : List Block → Prop where
  /-- An optional field with a rule has to be there. -/
  | required : field.fieldType.optional = true → field.rules ≠ [] →
      PresenceOf field [.check (.someAnd (.field [field.name]) (.const true)) field.name
        (field.name ++ " is required")]
  /-- Any other field is not asked for. -/
  | unasked : field.fieldType.optional = false ∨ field.rules = [] → PresenceOf field []

/-- The call that a field of a declared type makes. -/
inductive DelegationOf (types : List Declaration) (owner : Declaration) (field : Field) :
    List Block → Prop where
  /-- If the type has validations, its validator is called by the path that the type is written
  with. -/
  | call {target : Declaration} {path : Option String} : DelegatesTo types owner field target →
      WrittenBelow field.fieldType.base path →
      DelegationOf types owner field [.delegate field.name
        (behindPath path (validatorName target.name)) field.fieldType.optional]
  /-- Otherwise there is no validator to call. -/
  | alone : (∀ target, ¬ DelegatesTo types owner field target) → DelegationOf types owner field []

/-- The blocks of a field. -/
inductive BlocksOf (types : List Declaration) (owner : Declaration) (field : Field) :
    List Block → Prop where
  /-- A primitive field has a check for each rule that does not always hold. -/
  | primitive {checks : List Block} : field.fieldType.category ≠ .other →
      List.Forall₂ (ChecksRule field)
        (field.rules.filter fun rule => ¬ rule.HoldsAlways field.fieldType) checks →
      BlocksOf types owner field checks
  /-- Any other field is checked for presence and then delegated. -/
  | nested {presence delegation : List Block} : field.fieldType.category = .other →
      PresenceOf field presence → DelegationOf types owner field delegation →
      BlocksOf types owner field (presence ++ delegation)

/-! ### Checks that are left out -/

/-- Only the row for required lists of fixed length tests nothing. -/
theorem Template.test_eq_always_iff {op : Operation} {category : Category} {shape : ShapeKind}
    {t : Template} (h : of op category shape = some t) :
    t.test = .always ↔ op = .required ∧ shape = .fixedList := by
  cases op with
  | required =>
    cases shape with
    | plain =>
      obtain ⟨l, -, rfl⟩ := Option.map_eq_some_iff.1 h
      simp [compared]
    | list | dict =>
      cases h
      simp [compared]
    | fixedList =>
      cases h
      simp
  | compare c | compareField c =>
    obtain ⟨-, h⟩ := Option.ite_none_right_eq_some.1 h
    cases h
    simp [compared]
  | sameText negated | email =>
    obtain ⟨-, h⟩ := Option.ite_none_right_eq_some.1 h
    cases h
    simp [compared]
  | limit l =>
    cases shape with
    | list | dict =>
      cases h
      simp [compared]
    | fixedList => cases h
    | plain =>
      unfold of limit at h
      simp only at h
      split_ifs at h
      · cases h
        simp [compared]
      · cases h
        simp [compared]
  | member negated =>
    cases h
    cases negated <;> cases shape <;> simp [member]

namespace Condition

/-- Tests that are joined are a comparison, or several terms with a connective. -/
theorem isTrue_joinTests {condition : Condition} {c : Comparison} {left e : Expr}
    {rights : List Expr} (h : condition.joinTests (rights.map (.compare c left)) = .ok e) :
    e.isTrue = false := by
  match rights with
  | [] => cases h
  | [right] =>
    cases h
    rfl
  | first :: second :: rest =>
    cases hconnective : condition.connective with
    | none => simp [joinTests, hconnective] at h
    | some op =>
      simp only [joinTests, hconnective, List.map_cons] at h
      cases h
      rfl

/-- The check without its guard is the constant truth only if nothing is tested. -/
theorem isTrue_body {t : Template} {name : String} {type : FieldType} {rule : Rule}
    {left body : Expr} {rights : List Expr}
    (h : (ofTemplate t name type rule left rights).body = .ok body) :
    body.isTrue = true ↔ t.test = .always := by
  unfold Condition.body ofTemplate operatorOf at h
  cases htest : t.test with
  | compare c =>
    simp only [htest] at h
    simp [isTrue_joinTests h]
  | email | allIn | noneIn =>
    simp only [htest] at h
    cases h
    simp [Expr.isTrue]
  | always =>
    simp only [htest] at h
    cases h
    simp [Expr.isTrue]

/-- **The check of a rule is the constant truth exactly if the rule always holds.** -/
theorem isTrue_iff_holdsAlways {name : String} {type : FieldType} {rule : Rule}
    {condition : Condition} {e : Expr} (hbuild : build name type rule = .ok condition)
    (hexpr : condition.expr = .ok e) : e.isTrue = true ↔ rule.HoldsAlways type := by
  obtain ⟨t, left, rights, ht, -, rfl⟩ := build_eq_ok_iff.1 hbuild
  obtain ⟨body, hbody, rfl⟩ := map_eq_ok_iff.1 hexpr
  have htrue := isTrue_body hbody
  rw [Template.test_eq_always_iff ht] at htrue
  unfold Rule.HoldsAlways
  cases hoptional : type.optional with
  | true => simp [ofTemplate, hoptional, Expr.isTrue]
  | false => simp [ofTemplate, hoptional, htrue]

end Condition

/-! ### The blocks of one field -/

namespace Validator

variable {owner : Declaration} {field : Field}

/-- A primitive field has the checks of its rules, but for those that always hold. -/
theorem checksRule_of_primitiveBlocks {part : List Block}
    (h : primitiveBlocks field field.fieldType = .ok part) :
    List.Forall₂ (ChecksRule field)
      (field.rules.filter fun rule => ¬ rule.HoldsAlways field.fieldType) part := by
  obtain ⟨found, hfound, rfl⟩ := map_eq_ok_iff.1 h
  rw [← List.filterMap_eq_filter]
  refine List.rel_filterMap (fun rule block hcheck => ?_) (mapM_eq_ok_iff.1 hfound)
  obtain ⟨condition, e, hbuild, hexpr, rfl⟩ := checkBlock_eq_ok_iff.1 hcheck
  have htrue := Condition.isTrue_iff_holdsAlways hbuild hexpr
  by_cases hholds : rule.HoldsAlways field.fieldType
  · simp [hholds, htrue.2 hholds, Option.guard]
  · have hfalse : e.isTrue = false := by simpa [hholds] using htrue
    simp only [hfalse, Option.guard, hholds, not_false_eq_true, decide_true, if_true, id]
    exact .some ⟨condition, e, hbuild, hexpr, rfl⟩

theorem presenceOf_presenceBlocks : PresenceOf field (presenceBlocks field field.fieldType) := by
  unfold presenceBlocks
  split_ifs with h
  · exact .required h.1 h.2
  · exact .unasked (by simpa [or_iff_not_imp_left] using h)

theorem delegationOf_delegateBlocks {calls : List Block}
    (hnested : field.fieldType.category = .other)
    (h : delegateBlocks (Scope.of types) owner field field.fieldType = .ok calls) :
    DelegationOf types owner field calls := by
  rcases delegatesTo_of_delegateBlocks hnested h with ⟨target, htarget, rfl⟩ | ⟨hnone, rfl⟩
  · obtain ⟨path, hpath, hcall⟩ := exists_writtenBelow field.fieldType.base
    rw [hcall]
    exact .call htarget hpath
  · exact .alone hnone

/-- **A field that has blocks has those that it should.** -/
theorem blocksOf_fieldBlocks {part : List Block}
    (h : fieldBlocks (Scope.of types) owner field = .ok part) :
    BlocksOf types owner field part := by
  unfold fieldBlocks at h
  dsimp only at h
  split_ifs at h with hprim
  · exact .primitive (FieldType.isPrimitive_iff.1 hprim) (checksRule_of_primitiveBlocks h)
  · obtain ⟨calls, hcalls, rfl⟩ := map_eq_ok_iff.1 h
    have hnested : field.fieldType.category = .other :=
      FieldType.isPrimitive_eq_false_iff.1 (by simpa using hprim)
    exact .nested hnested presenceOf_presenceBlocks (delegationOf_delegateBlocks hnested hcalls)

end Validator

/-- **Blocks follow fields and tags.** Let the declarations be accepted, and let one of them have a
validator. The rules of its fields state what the entries of their tags do, in the same order, and
its blocks are those of its fields, one field after the other. -/
theorem blocks_follow_fields (h : analyze types = .ok analyzed) {scope : Scope}
    (hscope : Scope.build analyzed = .ok scope) {owner : Declaration} (howner : owner ∈ analyzed)
    {body : Validator} (hbody : Validator.ofDeclaration scope owner = .ok body) :
    (∀ field ∈ owner.fields, ∃ es, Tag.entries field.tag = .ok es ∧
      List.Forall₂ (fun e rule => Validation.ofEntry e = .ok rule.validation) es field.rules) ∧
    ∃ parts, body.blocks = parts.flatten ∧
      List.Forall₂ (BlocksOf analyzed owner) owner.fields parts := by
  obtain ⟨-, rfl⟩ := Scope.build_eq_ok_iff.1 hscope
  constructor
  · intro field hfield
    obtain ⟨d, -, hannotated⟩ := forall₂_mem_right (annotationOf_of_analyze h) howner
    obtain ⟨source, -, hsource⟩ := forall₂_mem_right hannotated.fields hfield
    rw [hsource.tag]
    exact hsource.rules
  · obtain ⟨parts, hparts, rfl⟩ := Validator.ofDeclaration_eq_ok_iff.1 hbody
    exact ⟨parts, rfl, hparts.imp fun _ _ => Validator.blocksOf_fieldBlocks⟩

/-- Lists of fixed length, one of which may be absent, and fields of declared types. -/
def hostDeclarations : List Declaration :=
  [⟨"Host", "net", none, [⟨"ip", "[u8; 4]", "required, nin=127, required", []⟩,
      ⟨"mask", "Option<[u8; 4]>", "required", []⟩, ⟨"owner", "Option<Person>", "required", []⟩,
      ⟨"backup", "Option<self::Person>", "", []⟩, ⟨"seen", "chrono::DateTime<Utc>", "", []⟩,
      ⟨"name", "String", "required, max=63", []⟩], false⟩,
    ⟨"Person", "net", none, [⟨"mail", "String", "email", []⟩], false⟩]

/-- A block without its condition. -/
def Block.outline : Block → String × String
  | .check _ field message => (field, message)
  | .delegate field call _ => (field, call)

/-- Only the two requirements of the first field are left out. -/
theorem host_blocks_follow :
    ∃ analyzed owner body, analyze hostDeclarations = .ok analyzed ∧
      Scope.build analyzed = .ok (Scope.of analyzed) ∧ owner ∈ analyzed ∧
      Validator.ofDeclaration (Scope.of analyzed) owner = .ok body ∧
      body.blocks.map Block.outline =
        [("ip", "ip elements must not be one of '127'"), ("mask", "mask is required"),
          ("owner", "owner is required"), ("owner", "validate_person"),
          ("backup", "self::validate_person"), ("name", "name is required"),
          ("name", "name length must be <= 63")] ∧
      ∃ parts, body.blocks = parts.flatten ∧
        List.Forall₂ (BlocksOf analyzed owner) owner.fields parts := by
  have heval : ((analyze hostDeclarations).toOption.any fun analyzed =>
      analyzed.any fun owner =>
        (Validator.ofDeclaration (Scope.of analyzed) owner).toOption.any fun body =>
          body.blocks.map Block.outline =
            [("ip", "ip elements must not be one of '127'"), ("mask", "mask is required"),
              ("owner", "owner is required"), ("owner", "validate_person"),
              ("backup", "self::validate_person"), ("name", "name is required"),
              ("name", "name length must be <= 63")]) = true := by
    decide +kernel
  obtain ⟨analyzed, hanalyzed, heval⟩ := exists_eq_ok_of_any heval
  obtain ⟨owner, howner, heval⟩ := List.any_eq_true.1 heval
  obtain ⟨body, hbody, hblocks⟩ := exists_eq_ok_of_any heval
  have hscope := build_of_analyze hanalyzed
  exact ⟨analyzed, owner, body, hanalyzed, hscope, howner, hbody, of_decide_eq_true hblocks,
    (blocks_follow_fields hanalyzed hscope howner hbody).2⟩

end FieldRules
