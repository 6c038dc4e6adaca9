import FieldRules.Proofs.Analysis.Paths
import FieldRules.Proofs.Condition.Build
import FieldRules.Proofs.Expr.Meaning
import FieldRules.Proofs.FieldType.Integer

/-!
# Comparisons across integer types

Two integer fields whose types are spelled differently are cast to a common type and compared there.
The common type is chosen by the spelling of both types (`ComparedIn`), and a reference is spelled
differently from what it refers to. So a reference to the unsigned type of 128 bits is cast to the
signed one, where half of its values become negative. `compareField_exactness` says which
comparisons are exact (`ComparesExactly`), and that all others go wrong for some values.
-/

namespace FieldRules

open Text

/-! ### Casts -/

namespace Widening

variable {m n : Int}

/-- The signed type of 128 bits keeps its values. -/
theorem cast?_integer (h : (IntegerType.signed .w128).Holds n) :
    Widening.integer.cast? n = some n := by
  obtain ⟨hleast, hgreatest⟩ := h
  simp only [IntegerType.least, IntegerType.greatest, Width.bits, Nat.pow_eq] at hleast hgreatest
  have hcast : (BitVec.ofInt 128 n).toInt = n := by
    rw [BitVec.toInt_ofInt]
    apply Int.bmod_eq_of_le <;> omega
  rw [cast?, hcast]

/-- The unsigned one keeps its own. -/
theorem cast?_unsigned (h : (IntegerType.unsigned .w128).Holds n) :
    Widening.unsigned.cast? n = some n := by
  obtain ⟨hleast, hgreatest⟩ := h
  simp only [IntegerType.least, IntegerType.greatest, Width.bits, Nat.pow_eq] at hleast hgreatest
  have hcast : ((BitVec.ofInt 128 n).toNat : Int) = n := by
    rw [BitVec.toNat_ofInt, Int.emod_eq_of_lt hleast (by omega)]
    omega
  rw [cast?, hcast]

/-- Cast to the signed type, unsigned integers remain different. -/
theorem cast?_integer_inj (hm : (IntegerType.unsigned .w128).Holds m)
    (hn : (IntegerType.unsigned .w128).Holds n)
    (h : Widening.integer.cast? m = Widening.integer.cast? n) : m = n := by
  have hbits : BitVec.ofInt 128 m = BitVec.ofInt 128 n := BitVec.eq_of_toInt_eq (Option.some.inj h)
  have hcast : Widening.unsigned.cast? m = Widening.unsigned.cast? n := by
    simp only [cast?, hbits]
  rw [cast?_unsigned hm, cast?_unsigned hn] at hcast
  exact Option.some.inj hcast

end Widening

/-- An integer in a wider type, if there is one. -/
def Widening.castTo (w : Option Widening) (n : Int) : Option Int :=
  match w with
  | some w => w.cast? n
  | none => some n

section

variable {w : Option Widening} {rt : Runtime} {env : Env}

/-- A field is read in a wider type. -/
theorem Expr.eval_widened {path : List String} {n n' : Int}
    (hpath : env.field path = some (.scalar (.number n)))
    (hn : Widening.castTo w n = some n') :
    (Condition.widened w (.field path)).eval rt env = some (.scalar (.number n')) := by
  cases w with
  | none =>
    cases hn
    exact hpath
  | some w =>
    have hfield : (Expr.field path).eval rt env = some (.scalar (.number n)) := hpath
    have hcast : w.cast? n = some n' := hn
    rw [Condition.widened, Expr.eval, hfield, Option.bind_some, Value.number?, Option.bind_some,
      hcast]
    rfl

/-- A comparison in a wider type compares what the two integers are there. -/
theorem Expr.eval_compare_widened {c : Comparison} {path path' : List String} {m n m' n' : Int}
    (hpath : env.field path = some (.scalar (.number m)))
    (hpath' : env.field path' = some (.scalar (.number n)))
    (hm : Widening.castTo w m = some m') (hn : Widening.castTo w n = some n') :
    (Expr.compare c (Condition.widened w (.field path))
        (Condition.widened w (.field path'))).eval rt env =
      some (.ofBool (c.testNumbers m' n')) := by
  rw [Expr.eval, eval_widened hpath hm, eval_widened hpath' hn]
  rfl

end

/-! ### The type of a comparison -/

namespace FieldType

variable {type source target : FieldType} {S T : IntegerType}

/-- The base type is written as a reference to the integer type. -/
def RefersTo (type : FieldType) (T : IntegerType) : Prop :=
  type.integerType? = some T ∧ type.spelledType? ≠ some T

/-- What looks unsigned is spelled as an unsigned type. -/
theorem spelledType?_of_looksUnsigned (hT : type.integerType? = some T)
    (h : Widening.looksUnsigned (trimmed type.base) = true) :
    type.spelledType? = some T ∧ ∃ w, T = .unsigned w := by
  obtain ⟨rest, hrest⟩ : ∃ rest, trim type.base.toList = 'u' :: rest := by
    rw [Widening.looksUnsigned, toList_trimmed, beq_iff_eq] at h
    exact List.head?_eq_some_iff.1 h
  have hreferent : referent type.base.toList = trim type.base.toList := by
    unfold referent
    rw [hrest]
    rfl
  have hspelled : type.spelledType? = some T := by
    rw [integerType?, hreferent] at hT
    exact hT
  refine ⟨hspelled, ?_⟩
  rw [spelledType?] at hspelled
  generalize trimmed type.base = name at h hspelled
  unfold IntegerType.ofName? at hspelled
  split at hspelled
  all_goals first | exact ⟨_, (Option.some.inj hspelled).symm⟩ | cases hspelled
  all_goals exact absurd h (by decide)

theorem trimmed_eq_of_spelledType? (h : type.spelledType? = some (.unsigned .w128)) :
    trimmed type.base = "u128" := by
  rw [spelledType?] at h
  generalize trimmed type.base = name at h
  unfold IntegerType.ofName? at h
  split at h
  all_goals first | rfl | cases h

/-- The ways in which integers of two types are compared, and the type in which they are. -/
inductive ComparedIn (source target : FieldType) : Option Widening → Prop where
  /-- Types of one spelling are compared as they are. -/
  | same : trimmed source.base = trimmed target.base → ComparedIn source target none
  /-- The signed type is taken if neither is spelled as the unsigned one of its width. -/
  | signed : trimmed source.base ≠ trimmed target.base →
      source.spelledType? ≠ some (.unsigned .w128) →
      target.spelledType? ≠ some (.unsigned .w128) → ComparedIn source target (some .integer)
  /-- The unsigned type is taken if both are spelled as unsigned types. -/
  | unsigned {v w : Width} : source.spelledType? = some (.unsigned v) →
      target.spelledType? = some (.unsigned w) → ComparedIn source target (some .unsigned)

theorem comparedIn_of_peerWidening {op : Operation} {w : Option Widening}
    (hS : source.integerType? = some S) (hT : target.integerType? = some T)
    (hinteger : source.category = .integer)
    (hw : Condition.peerWidening op source target = .ok w) : ComparedIn source target w := by
  unfold Condition.peerWidening at hw
  split_ifs at hw with hbase
  · cases hw
    exact .same hbase.symm
  · simp only [hinteger] at hw
    split at hw
    case h_2 => cases hw
    case h_1 w hcommon =>
      cases hw
      unfold Widening.commonInteger at hcommon
      dsimp only at hcommon
      split_ifs at hcommon with hspelled hunsigned
      · cases hcommon
        exact .signed (fun h => hbase h.symm) (mt trimmed_eq_of_spelledType? hspelled.1)
          (mt trimmed_eq_of_spelledType? hspelled.2)
      · cases hcommon
        obtain ⟨hsource, htarget⟩ := Bool.and_eq_true_iff.1 hunsigned
        obtain ⟨hsource, v, rfl⟩ := spelledType?_of_looksUnsigned hS hsource
        obtain ⟨htarget, w, rfl⟩ := spelledType?_of_looksUnsigned hT htarget
        exact .unsigned hsource htarget

/-- When a comparison of two integer types is exact. -/
inductive ComparesExactly (c : Comparison) (source target : FieldType) : Prop where
  /-- The types have the same spelling. -/
  | same : trimmed source.base = trimmed target.base → ComparesExactly c source target
  /-- Neither is a reference to the unsigned type of 128 bits. -/
  | direct : ¬ source.RefersTo (.unsigned .w128) → ¬ target.RefersTo (.unsigned .w128) →
      ComparesExactly c source target
  /-- Unsigned types are tested for equality. -/
  | equality {v w : Width} : c.isOrder = false → source.integerType? = some (.unsigned v) →
      target.integerType? = some (.unsigned w) → ComparesExactly c source target

/-- What is spelled as an integer type is no reference to one. -/
theorem not_refersTo_of_spelledType? (h : type.spelledType? = some S) : ¬ type.RefersTo T := by
  rintro ⟨hT, hne⟩
  exact hne (h.trans ((integerType?_of_spelledType? h).symm.trans hT))

section

variable {w : Option Widening} {c : Comparison} (hS : source.integerType? = some S)
  (hT : target.integerType? = some T) (hw : ComparedIn source target w)
include hS hT hw

/-- Then the two integers compare in the common type as they do. -/
theorem ComparesExactly.exists_castTo (h : ComparesExactly c source target) {m n : Int}
    (hm : S.Holds m) (hn : T.Holds n) :
    ∃ m' n', Widening.castTo w m = some m' ∧ Widening.castTo w n = some n' ∧
      c.testNumbers m' n' = c.testNumbers m n := by
  cases hw with
  | same => exact ⟨m, n, rfl, rfl, rfl⟩
  | unsigned hsource htarget =>
    cases hS.symm.trans (integerType?_of_spelledType? hsource)
    cases hT.symm.trans (integerType?_of_spelledType? htarget)
    exact ⟨m, n, Widening.cast?_unsigned hm.unsigned_w128, Widening.cast?_unsigned hn.unsigned_w128,
      rfl⟩
  | signed hbase hsource htarget =>
    cases h with
    | same hsame => exact absurd hsame hbase
    | direct hdirect hdirect' =>
      have hS' : S ≠ .unsigned .w128 := fun heq => hdirect ⟨heq ▸ hS, hsource⟩
      have hT' : T ≠ .unsigned .w128 := fun heq => hdirect' ⟨heq ▸ hT, htarget⟩
      exact ⟨m, n, Widening.cast?_integer (hm.signed_w128 hS'),
        Widening.cast?_integer (hn.signed_w128 hT'), rfl⟩
    | equality horder hv hw =>
      cases hS.symm.trans hv
      cases hT.symm.trans hw
      refine ⟨_, _, rfl, rfl, ?_⟩
      have hequal : ((BitVec.ofInt 128 m).toInt == (BitVec.ofInt 128 n).toInt) = (m == n) := by
        rw [Bool.eq_iff_iff, beq_iff_eq, beq_iff_eq]
        refine ⟨fun h => ?_, fun h => by rw [h]⟩
        exact Widening.cast?_integer_inj hm.unsigned_w128 hn.unsigned_w128 (congrArg some h)
      cases c with
      | eq => exact hequal
      | ne => exact congrArg (!·) hequal
      | gt | ge | lt | le => cases horder

/-- Otherwise some do not. -/
theorem exists_castTo_of_not_comparesExactly (h : ¬ ComparesExactly c source target) :
    ∃ m n m' n', S.Holds m ∧ T.Holds n ∧
      Widening.castTo w m = some m' ∧ Widening.castTo w n = some n' ∧
      c.testNumbers m' n' = !c.testNumbers m n := by
  cases hw with
  | same hsame => exact absurd (.same hsame) h
  | unsigned hsource htarget =>
    exact absurd (.direct (not_refersTo_of_spelledType? hsource)
      (not_refersTo_of_spelledType? htarget)) h
  | signed =>
    have hwide : S = .unsigned .w128 ∨ T = .unsigned .w128 := by
      by_contra hnone
      obtain ⟨hS', hT'⟩ := not_or.1 hnone
      refine h (.direct (fun hrefers => hS' ?_) fun hrefers => hT' ?_)
      · exact Option.some.inj (hS.symm.trans hrefers.1)
      · exact Option.some.inj (hT.symm.trans hrefers.1)
    cases horder : c.isOrder with
    | true =>
      -- An integer that the signed type lacks becomes negative, and is compared with zero.
      rcases hwide with rfl | rfl
      · refine ⟨(IntegerType.signed .w128).greatest + 1, 0, (IntegerType.signed .w128).least, 0,
          by decide, T.holds_zero, rfl, rfl, ?_⟩
        cases c <;> first | rfl | cases horder
      · refine ⟨0, (IntegerType.signed .w128).greatest + 1, 0, (IntegerType.signed .w128).least,
          S.holds_zero, by decide, rfl, rfl, ?_⟩
        cases c <;> first | rfl | cases horder
    | false =>
      -- The greatest unsigned integer becomes minus one, which a signed type has, too.
      rcases hwide with rfl | rfl
      · cases T with
        | unsigned v => exact absurd (.equality horder hS hT) h
        | signed v =>
          refine ⟨(IntegerType.unsigned .w128).greatest, -1, -1, -1, by decide,
            IntegerType.signed_holds_neg_one, rfl, rfl, ?_⟩
          cases c <;> first | rfl | cases horder
      · cases S with
        | unsigned v => exact absurd (.equality horder hS hT) h
        | signed v =>
          refine ⟨-1, (IntegerType.unsigned .w128).greatest, -1, -1,
            IntegerType.signed_holds_neg_one, by decide, rfl, rfl, ?_⟩
          cases c <;> first | rfl | cases horder

end

end FieldType

/-! ### Comparisons of fields -/

namespace Condition

/-- A comparison of fields is built as a comparison of their values, in a wider type if need be. -/
theorem exists_build_compareField {name : String} {type : FieldType} {rule : Rule} {c : Comparison}
    (hop : rule.validation.operation = .compareField c) (h : rule.Fits type) :
    ∃ peer w condition, rule.peer = some peer ∧
      peerWidening rule.validation.operation type peer.type = .ok w ∧
      build name type rule = .ok condition ∧
      condition.expr =
        .ok (.compare c (widened w (.field [name])) (widened w (.field peer.path))) := by
  have hlegal := h.isLegalForType
  rw [hop] at hlegal
  obtain ⟨⟨hcomparable, hshape⟩, hoptional⟩ := Operation.isLegalFor_compareField_iff.1 hlegal
  obtain ⟨peer, hpeer, hcompares⟩ := h.exists_peer (by rw [hop]; rfl)
  have hpresent : ¬ type.optional = true := by
    rw [Bool.not_eq_true]
    exact hoptional
  have hvalue : fieldValue name type = .field [name] := if_neg hpresent
  have hguarded : ∀ body, guarded name type body = body := fun _ => if_neg hpresent
  have ht : Template.of rule.validation.operation type.category type.shape.kind =
      some (.compared .value c .peer
        (Template.targetMessage (Template.comparisonPhrase c) "")) := by
    rw [hop, show type.shape.kind = .plain from hshape]
    exact Template.comparison_of_comparableBy hcomparable
  obtain ⟨w, hw, condition, hbuild, hexpr⟩ : ∃ w, peerWidening _ type peer.type = .ok w ∧
      Builds name type rule (.compare c (widened w (fieldValue name type))
        (widened w (.field peer.path))) :=
    builds_peer ht rfl rfl hpeer hcompares
  rw [hguarded, hvalue] at hexpr
  exact ⟨peer, w, condition, hpeer, hw, hbuild, hexpr⟩

end Condition

/-- **Comparisons of integer fields.** An accepted comparison has a path that leads to the peer,
both fields have integer types, and a check is built. If the comparison is one of the exact ones,
the check compares the two integers, whatever values of the types they are. If it is not, the check
says the opposite for some values. -/
theorem compareField_exactness {types analyzed : List Declaration}
    (h : analyze types = .ok analyzed) {d : Declaration} (hd : d ∈ analyzed) {field : Field}
    (hfield : field ∈ d.fields) (hinteger : field.fieldType.category = .integer) {rule : Rule}
    (hrule : rule ∈ field.rules) {c : Comparison}
    (hop : rule.validation.operation = .compareField c) :
    ∃ peer target S T condition e, rule.peer = some peer ∧
      LeadsTo analyzed d peer.path target ∧ target.fieldType = peer.type ∧
      field.fieldType.integerType? = some S ∧ peer.type.integerType? = some T ∧
      Condition.build field.name field.fieldType rule = .ok condition ∧ condition.expr = .ok e ∧
      (FieldType.ComparesExactly c field.fieldType peer.type →
        ∀ rt env m n, S.Holds m → T.Holds n →
          env.field [field.name] = some (.scalar (.number m)) →
          env.field peer.path = some (.scalar (.number n)) →
          e.eval rt env = some (.ofBool (c.testNumbers m n))) ∧
      (¬ FieldType.ComparesExactly c field.fieldType peer.type →
        ∃ m n, S.Holds m ∧ T.Holds n ∧ ∀ rt env,
          env.field [field.name] = some (.scalar (.number m)) →
          env.field peer.path = some (.scalar (.number n)) →
          e.eval rt env = some (.ofBool (!c.testNumbers m n))) := by
  have hprim : field.fieldType.isPrimitive = true :=
    FieldType.isPrimitive_iff.2 (by simp [hinteger])
  obtain ⟨peer, w, condition, hpeer, hw, hbuild, hexpr⟩ :=
    Condition.exists_build_compareField hop (fits_of_analyze h hd hfield hprim hrule)
  obtain ⟨target, hpath, htype, -, -, hcompares⟩ := leadsTo_of_analyze h hd hfield hrule hpeer
  obtain ⟨S, hS⟩ : ∃ S, field.fieldType.integerType? = some S :=
    FieldType.exists_integerType? hinteger
  obtain ⟨T, hT⟩ : ∃ T, peer.type.integerType? = some T := by
    have hinteger' := hcompares.category.trans hinteger
    rw [← htype] at hinteger' ⊢
    exact FieldType.exists_integerType? hinteger'
  have hin := FieldType.comparedIn_of_peerWidening hS hT hinteger hw
  refine ⟨peer, target, S, T, condition, _, hpeer, hpath, htype, hS, hT, hbuild, hexpr, ?_, ?_⟩
  · intro hexact rt env m n hm hn hfield hpeer
    obtain ⟨m', n', hm', hn', htest⟩ := hexact.exists_castTo hS hT hin hm hn
    rw [Expr.eval_compare_widened hfield hpeer hm' hn', htest]
  · intro hinexact
    obtain ⟨m, n, m', n', hm, hn, hm', hn', htest⟩ :=
      FieldType.exists_castTo_of_not_comparesExactly hS hT hin hinexact
    refine ⟨m, n, hm, hn, fun rt env hfield hpeer => ?_⟩
    rw [Expr.eval_compare_widened hfield hpeer hm' hn', htest]

/-- Two fields of integer types, one of which has to be greater than the other. -/
def rangeDeclarations (lowType highType : String) : List Declaration :=
  [⟨"Range", "", none, [⟨"low", lowType, "", []⟩, ⟨"high", highType, "gtfield=low", []⟩], false⟩]

/-- The values of the two fields. -/
def rangeEnv (low high : Int) : Env where
  field path := some (.scalar (.number (if path = ["high"] then high else low)))

/-- The greatest number of one type is greater than the least of the other. -/
theorem extremes_compare_exactly :
    ∃ analyzed d field rule condition e, analyze (rangeDeclarations "i8" "usize") = .ok analyzed ∧
      d ∈ analyzed ∧ field ∈ d.fields ∧ rule ∈ field.rules ∧
      Condition.build field.name field.fieldType rule = .ok condition ∧ condition.expr = .ok e ∧
      ∀ rt, e.eval rt (rangeEnv (-128) 18446744073709551615) = some (.ofBool true) := by
  have hanalyzed : analyze (rangeDeclarations "i8" "usize") =
    .ok [⟨"Range", "", none, [⟨"low", "i8", "", []⟩, ⟨"high", "usize", "gtfield=low",
      [⟨⟨.compareField .gt, ["low"]⟩, some ⟨["low"], .ofSpelling "i8"⟩⟩]⟩], true⟩] := by
    decide +kernel
  obtain ⟨peer, target, S, T, condition, e, hpeer, -, -, hS, hT, hbuild, hexpr, hexact, -⟩ :=
    compareField_exactness hanalyzed List.mem_cons_self
      (List.mem_cons_of_mem _ List.mem_cons_self) (by decide +kernel) List.mem_cons_self rfl
  cases hpeer
  cases hS.symm.trans (by decide +kernel : _ = some (IntegerType.unsigned .w64))
  cases hT.symm.trans (by decide +kernel : _ = some (IntegerType.signed .w8))
  refine ⟨_, _, _, _, condition, e, hanalyzed, List.mem_cons_self,
    List.mem_cons_of_mem _ List.mem_cons_self, List.mem_cons_self, hbuild, hexpr, fun rt => ?_⟩
  have hdirect : FieldType.ComparesExactly .gt (.ofSpelling "usize") (.ofSpelling "i8") :=
    .direct (fun h => absurd h.1 (by decide +kernel)) fun h => absurd h.1 (by decide +kernel)
  exact hexact hdirect rt (rangeEnv (-128) 18446744073709551615) _ _ (by decide) (by decide) rfl rfl

/-- A value of the type that a reference refers to is greater than zero, and is found not to be. -/
theorem reference_comparison_wraps :
    ∃ analyzed d field rule condition e, analyze (rangeDeclarations "i64" "&u128") = .ok analyzed ∧
      d ∈ analyzed ∧ field ∈ d.fields ∧ rule ∈ field.rules ∧
      rule.validation.operation = .compareField .gt ∧
      field.fieldType.integerType? = some (.unsigned .w128) ∧
      (IntegerType.unsigned .w128).Holds 170141183460469231731687303715884105728 ∧
      (FieldType.ofSpelling "i64").integerType? = some (.signed .w64) ∧
      (IntegerType.signed .w64).Holds 0 ∧
      Comparison.testNumbers .gt 170141183460469231731687303715884105728 0 = true ∧
      Condition.build field.name field.fieldType rule = .ok condition ∧ condition.expr = .ok e ∧
      ∀ rt, e.eval rt (rangeEnv 0 170141183460469231731687303715884105728) =
        some (.ofBool false) := by
  have hanalyzed : analyze (rangeDeclarations "i64" "&u128") =
    .ok [⟨"Range", "", none, [⟨"low", "i64", "", []⟩, ⟨"high", "&u128", "gtfield=low",
      [⟨⟨.compareField .gt, ["low"]⟩, some ⟨["low"], .ofSpelling "i64"⟩⟩]⟩], true⟩] := by
    decide +kernel
  have hfits := fits_of_analyze hanalyzed List.mem_cons_self
    (List.mem_cons_of_mem _ List.mem_cons_self) (by decide +kernel) List.mem_cons_self
  obtain ⟨peer, w, condition, hpeer, hw, hbuild, hexpr⟩ :=
    Condition.exists_build_compareField rfl hfits
  cases hpeer
  cases hw.symm.trans (by decide +kernel : _ = .ok (some Widening.integer))
  refine ⟨_, _, _, _, condition, _, hanalyzed, List.mem_cons_self,
    List.mem_cons_of_mem _ List.mem_cons_self, List.mem_cons_self, rfl, by decide +kernel,
    by decide, by decide +kernel, by decide, by decide, hbuild, hexpr, fun rt => ?_⟩
  exact Expr.eval_compare_widened rfl rfl (by rfl : Widening.castTo (some .integer) _ =
    some (IntegerType.signed .w128).least) (by rfl : Widening.castTo (some .integer) 0 = some 0)

end FieldRules
