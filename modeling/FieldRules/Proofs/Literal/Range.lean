import FieldRules.Proofs.Condition.Build
import FieldRules.Proofs.FieldType.Integer

/-!
# Targets within the range of a type

Whatever an integer field is compared with is an integer, and lies within the bounds that are looked
up for its type (`targets_within_bounds`). These bounds are the range of the type that the field is
declared with unless it is declared as a reference. Then they are those of the widest signed type,
and a target can lie beyond the range (`reference_target_beyond_range`).
-/

namespace FieldRules

/-- On fields of the shape, the operation compares the number of elements. -/
def Operation.CountsElements (op : Operation) (shape : Shape) : Prop :=
  (∃ l, op = .limit l) ∧ shape.kind.isSized = true

/-- The target is written as a value of the integer type. -/
def IntegerType.Denotes (T : IntegerType) (value : String) : Prop :=
  ∃ n, Numeral.readInteger (Text.trim value.toList) = some n ∧ T.Holds n

variable {type : FieldType} {op : Operation} {value : String}

theorem IntegerType.denotes_iff {T : IntegerType} {n : Int}
    (h : Numeral.readInteger (Text.trim value.toList) = some n) : T.Denotes value ↔ T.Holds n := by
  simp [Denotes, h]

/-- Integers are compared with integers within the bounds. -/
theorem TargetKind.of_integer (hinteger : type.category = .integer)
    (hlegal : op.isLegalForType type = true) (hcounts : ¬ op.CountsElements type.shape) :
    TargetKind.of op type = .integer type.boundsType.least type.boundsType.greatest := by
  have hkind : ofCategory type = .integer type.boundsType.least type.boundsType.greatest := by
    simp only [ofCategory, hinteger, FieldType.integerBounds_eq]
  cases op with
  | limit l =>
    have hvalue : ¬ (type.shape.kind.isSized || type.category == .string) = true := by
      intro h
      refine hcounts ⟨⟨l, rfl⟩, ?_⟩
      simpa [hinteger] using h
    exact (if_neg hvalue).trans hkind
  | sameText negated =>
    have hstring : type.category = .string := (Operation.isLegalFor_sameText_iff.1 hlegal).1
    exact absurd (hinteger.symm.trans hstring) (by decide)
  | required | compare c | member negated | email | compareField c => exact hkind

/-- A target of an integer field can be read exactly if it denotes a value within the bounds. -/
theorem Analysis.readable_integer_iff (hinteger : type.category = .integer)
    (hlegal : op.isLegalForType type = true) (hcounts : ¬ op.CountsElements type.shape) :
    Readable op type value ↔ type.boundsType.Denotes value := by
  unfold Readable IntegerType.Denotes IntegerType.Holds
  rw [TargetKind.of_integer hinteger hlegal hcounts, TargetKind.read]
  simp only [TargetKind.readTrimmed]
  cases Numeral.readInteger (Text.trim value.toList) with
  | none => simp
  | some n =>
    by_cases hn : type.boundsType.least ≤ n ∧ n ≤ type.boundsType.greatest <;> simp [hn]

/-! ### Bounds and ranges -/

/-- Every integer type but the widest signed one lacks some of its values. -/
theorem IntegerType.exists_not_holds {T : IntegerType} (h : T ≠ .signed .w128) :
    ∃ n, (signed .w128).Holds n ∧ ¬ T.Holds n := by
  cases T with
  | unsigned w => exact ⟨-1, by decide, fun hn => absurd hn.1 (by simp [least])⟩
  | signed w =>
    refine ⟨(signed .w128).greatest, by decide, fun hn => absurd hn.2 ?_⟩
    cases w with
    | w128 => exact absurd rfl h
    | w8 | w16 | w32 | w64 => decide

/-- The bounds of a type are its range exactly if it is spelled without a reference, or is the
widest signed one. -/
theorem FieldType.forall_holds_iff {T : IntegerType} (h : type.integerType? = some T) :
    (∀ n, type.boundsType.Holds n → T.Holds n) ↔
      type.spelledType? = some T ∨ T = .signed .w128 := by
  constructor
  · intro hall
    by_contra hne
    obtain ⟨hspelled, hT⟩ := not_or.1 hne
    have hbounds : type.boundsType = .signed .w128 := by
      cases hs : type.spelledType? with
      | none => rw [boundsType, hs, Option.getD_none]
      | some S => exact absurd (hs.trans ((integerType?_of_spelledType? hs).symm.trans h)) hspelled
    obtain ⟨n, hn, hnot⟩ := IntegerType.exists_not_holds hT
    exact hnot (hall n (hbounds ▸ hn))
  · rintro (hspelled | rfl) n hn
    · rwa [boundsType, hspelled, Option.getD_some] at hn
    · cases hs : type.spelledType? with
      | none => rwa [boundsType, hs, Option.getD_none] at hn
      | some S =>
        cases (integerType?_of_spelledType? hs).symm.trans h
        rwa [boundsType, hs, Option.getD_some] at hn

/-! ### Targets -/

/-- A validation of an integer field is accepted if its targets lie within the bounds. -/
theorem Analysis.checkValidation_of_denotes {scope : Scope} {owner : Declaration} {field : Field}
    {v : Validation} (hinteger : field.fieldType.category = .integer)
    (hcmp : v.operation.comparesFields = false)
    (hlegal : v.operation.isLegalForType field.fieldType = true)
    (hcounts : ¬ v.operation.CountsElements field.fieldType.shape)
    (h : ∀ value ∈ v.values, field.fieldType.boundsType.Denotes value) :
    checkValidation scope owner field v = .ok ⟨v, none⟩ := by
  have hprim : field.fieldType.isPrimitive = true :=
    FieldType.isPrimitive_iff.2 (by simp [hinteger])
  refine checkValidation_eq_ok_iff.2 ⟨rfl, .checked hprim hcmp hlegal fun value hvalue => ?_⟩
  exact (readable_integer_iff hinteger hlegal hcounts).2 (h value hvalue)

/-- Otherwise the first target beyond the bounds is reported. -/
theorem Analysis.checkValidation_of_not_denotes {scope : Scope} {owner : Declaration}
    {field : Field} {v : Validation} (hinteger : field.fieldType.category = .integer)
    (hcmp : v.operation.comparesFields = false)
    (hlegal : v.operation.isLegalForType field.fieldType = true)
    (hcounts : ¬ v.operation.CountsElements field.fieldType.shape) {before after : List String}
    (hvalues : v.values = before ++ value :: after)
    (hbefore : ∀ w ∈ before, field.fieldType.boundsType.Denotes w)
    (h : ¬ field.fieldType.boundsType.Denotes value) :
    checkValidation scope owner field v =
      .error (.invalidTarget owner.name field.name v.operation value
        (.integer field.fieldType.boundsType.least field.fieldType.boundsType.greatest)) := by
  have hprim : field.fieldType.isPrimitive = true :=
    FieldType.isPrimitive_iff.2 (by simp [hinteger])
  have hread : ∀ w, ((TargetKind.of v.operation field.fieldType).read w).isNone = false ↔
      field.fieldType.boundsType.Denotes w := by
    intro w
    rw [← readable_integer_iff hinteger hlegal hcounts, Readable, Option.isNone_eq_false_iff,
      Option.isSome_iff_exists]
  have hfind : (v.values.find? fun w =>
      ((TargetKind.of v.operation field.fieldType).read w).isNone) = some value := by
    refine List.find?_eq_some_iff_append.2 ⟨?_, before, after, hvalues, fun w hw => ?_⟩
    · simpa using mt (hread value).1 h
    · simpa using (hread w).2 (hbefore w hw)
  rw [← TargetKind.of_integer hinteger hlegal hcounts]
  simp [checkValidation, hprim, hcmp, hlegal, hfind]

/-- **Targets of integer fields.** A type of the category of integers names an integer type. Of the
operations that compare values with targets, those are accepted whose targets denote integers within
the bounds that are looked up for the type, and the first other target is reported as invalid. The
bounds are the range of the integer type exactly if it is spelled without a reference, or is the
widest signed one. -/
theorem targets_within_bounds {type : FieldType} {raw : String} (htype : type = .ofSpelling raw)
    (hinteger : type.category = .integer) :
    ∃ T, type.integerType? = some T ∧
      (∀ types analyzed, analyze types = .ok analyzed → ∀ d ∈ analyzed, ∀ field ∈ d.fields,
        field.type = raw → ∀ rule ∈ field.rules,
          rule.validation.operation.comparesFields = false →
          ¬ rule.validation.operation.CountsElements type.shape →
          ∀ value ∈ rule.validation.values, type.boundsType.Denotes value) ∧
      (∀ scope owner field, field.type = raw → ∀ v : Validation,
        v.operation.comparesFields = false → v.operation.isLegalForType type = true →
        ¬ v.operation.CountsElements type.shape →
        ((∀ value ∈ v.values, type.boundsType.Denotes value) →
          Analysis.checkValidation scope owner field v = .ok ⟨v, none⟩) ∧
        ∀ before value after, v.values = before ++ value :: after →
          (∀ w ∈ before, type.boundsType.Denotes w) → ¬ type.boundsType.Denotes value →
          Analysis.checkValidation scope owner field v =
            .error (.invalidTarget owner.name field.name v.operation value
              (.integer type.boundsType.least type.boundsType.greatest))) ∧
      ((∀ n, type.boundsType.Holds n → T.Holds n) ↔
        type.spelledType? = some T ∨ T = .signed .w128) := by
  obtain ⟨T, hT⟩ : ∃ T, type.integerType? = some T := by
    subst htype
    exact FieldType.exists_integerType? hinteger
  refine ⟨T, hT, ?_, ?_, FieldType.forall_holds_iff hT⟩
  · intro types analyzed h d hd field hfield hraw rule hrule hcmp hcounts value hvalue
    have hfield' : field.fieldType = type := by rw [htype, ← hraw, Field.fieldType]
    have hprim : field.fieldType.isPrimitive = true :=
      FieldType.isPrimitive_iff.2 (by simp [hfield', hinteger])
    have hfits := fits_of_analyze h hd hfield hprim hrule
    rw [hfield'] at hfits
    exact (Analysis.readable_integer_iff hinteger hfits.isLegalForType hcounts).1
      (hfits.readable hcmp value hvalue)
  · intro scope owner field hraw v hcmp hlegal hcounts
    obtain rfl : field.fieldType = type := by rw [htype, ← hraw, Field.fieldType]
    exact ⟨Analysis.checkValidation_of_denotes hinteger hcmp hlegal hcounts, fun _ _ _ =>
      Analysis.checkValidation_of_not_denotes hinteger hcmp hlegal hcounts⟩

/-- Elements of a list of small numbers: the targets are numbers of the type, and one that is beyond
its range is reported. -/
theorem levels_targets_within_bounds :
    (FieldType.ofSpelling "Option<Vec<i8>>").category = .integer ∧
    (∃ analyzed d field rule,
      analyze [⟨"Mix", "", none, [⟨"levels", "Option<Vec<i8>>", "in=-128 127", []⟩], false⟩] =
        .ok analyzed ∧ d ∈ analyzed ∧ field ∈ d.fields ∧ rule ∈ field.rules ∧
      rule.validation.values = ["-128", "127"] ∧
      ∀ value ∈ rule.validation.values, (IntegerType.signed .w8).Denotes value) ∧
    ∀ scope owner, Analysis.checkValidation scope owner ⟨"levels", "Option<Vec<i8>>", "", []⟩
      ⟨.member false, ["127", "128"]⟩ =
        .error (.invalidTarget owner.name "levels" (.member false) "128"
          (.integer (-128) 127)) := by
  have hinteger : (FieldType.ofSpelling "Option<Vec<i8>>").category = .integer := by decide +kernel
  have hbounds : (FieldType.ofSpelling "Option<Vec<i8>>").boundsType = .signed .w8 := by
    decide +kernel
  obtain ⟨T, -, haccepted, hchecked, -⟩ := targets_within_bounds rfl hinteger
  rw [hbounds] at haccepted hchecked
  refine ⟨hinteger, ?_, fun scope owner => ?_⟩
  · have hanalyzed : analyze [⟨"Mix", "", none,
        [⟨"levels", "Option<Vec<i8>>", "in=-128 127", []⟩], false⟩] =
      .ok [⟨"Mix", "", none, [⟨"levels", "Option<Vec<i8>>", "in=-128 127",
        [⟨⟨.member false, ["-128", "127"]⟩, none⟩]⟩], true⟩] := by
      decide +kernel
    refine ⟨_, _, _, _, hanalyzed, List.mem_cons_self, List.mem_cons_self, List.mem_cons_self, rfl,
      ?_⟩
    exact haccepted _ _ hanalyzed _ List.mem_cons_self _ List.mem_cons_self rfl _
      List.mem_cons_self rfl fun ⟨⟨_, hlimit⟩, _⟩ => nomatch hlimit
  · have hcheck := hchecked scope owner ⟨"levels", "Option<Vec<i8>>", "", []⟩ rfl
      ⟨.member false, ["127", "128"]⟩ rfl (by decide +kernel) fun ⟨⟨_, hlimit⟩, _⟩ => nomatch hlimit
    refine hcheck.2 ["127"] "128" [] rfl ?_ ?_
    · exact List.forall_mem_singleton.2 ⟨127, by decide +kernel, by decide⟩
    · have hread : Numeral.readInteger (Text.trim "128".toList) = some 128 := by decide +kernel
      exact mt (IntegerType.denotes_iff hread).1 (by decide)

/-- A target beyond the range of the type that a reference refers to is accepted. -/
theorem reference_target_beyond_range :
    (FieldType.ofSpelling "&u8").category = .integer ∧
    (FieldType.ofSpelling "&u8").integerType? = some (.unsigned .w8) ∧
    analyze [⟨"User", "", none, [⟨"age", "&u8", "lte=300", []⟩], false⟩] =
      .ok [⟨"User", "", none, [⟨"age", "&u8", "lte=300",
        [⟨⟨.compare .le, ["300"]⟩, none⟩]⟩], true⟩] ∧
    ¬ (IntegerType.unsigned .w8).Denotes "300" := by
  have hread : Numeral.readInteger (Text.trim "300".toList) = some 300 := by decide +kernel
  refine ⟨by decide +kernel, by decide +kernel, by decide +kernel, ?_⟩
  exact mt (IntegerType.denotes_iff hread).1 (by decide)

end FieldRules
