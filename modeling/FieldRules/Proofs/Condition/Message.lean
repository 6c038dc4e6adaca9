import FieldRules.Proofs.Condition.Build
import FieldRules.Proofs.Literal.Braces
import FieldRules.Proofs.Tag.Canonical
import FieldRules.Proofs.Text.Replace

/-!
# What a message says

A message fills the placeholders of its template one kind after the other, so that a target which
spells a placeholder is filled itself. `fillAtOnce` is the message that leaves the targets as they
are. A message is the one that fills its template at once with targets that have been filled before
(`fillMessage_eq`), and it says what was written exactly if no target spells a placeholder that
would be filled with something else (`messages_exactness`).

The proof follows the scan of each replacement over the parts of the template. No text of a template
has a brace in it, where a placeholder could begin, and none of the placeholders begins another.
-/

namespace FieldRules

open Text

namespace MessagePart

variable {part other : MessagePart} {replacement : List Char}

/-- The part is no text by itself. -/
def isPlaceholder : MessagePart → Bool
  | .text _ => false
  | _ => true

/-- What stands for a part. -/
def filled (values : MessageValues) : MessagePart → List Char
  | .text s => s.toList
  | .name => values.name.toList
  | .target => values.target.toList
  | .targets => values.targets.toList

/-- The part is spelled somewhere in the text. -/
def SpelledIn (part : MessagePart) (s : String) : Prop :=
  part.spelling <:+: s.toList

instance : DecidablePred part.SpelledIn :=
  fun s => inferInstanceAs (Decidable (part.spelling <:+: s.toList))

theorem spelling_name : name.spelling = ['\x7b', 'n', 'a', 'm', 'e', '\x7d'] := by decide

theorem spelling_target : target.spelling = ['\x7b', 't', 'a', 'r', 'g', 'e', 't', '\x7d'] := by
  decide

theorem spelling_targets :
    targets.spelling = ['\x7b', 't', 'a', 'r', 'g', 'e', 't', 's', '\x7d'] := by
  decide

/-- A placeholder begins with a brace, and has no other. -/
theorem exists_spelling (h : part.isPlaceholder = true) :
    ∃ word, part.spelling = '\x7b' :: word ∧ '\x7b' ∉ word := by
  cases part with
  | text s => cases h
  | name => exact ⟨_, spelling_name, by decide⟩
  | target => exact ⟨_, spelling_target, by decide⟩
  | targets => exact ⟨_, spelling_targets, by decide⟩

theorem spelling_ne_nil (h : part.isPlaceholder = true) : part.spelling ≠ [] := by
  obtain ⟨word, hword, -⟩ := exists_spelling h
  simp [hword]

/-- What stands around targets is not in a placeholder. -/
theorem not_mem_spelling (h : part.isPlaceholder = true) {c : Char}
    (hc : isBlank c = true ∨ c = '\'') : c ∉ part.spelling := by
  have hall : (part.spelling.all fun d => !isBlank d && d != '\'') = true := by
    cases part with
    | text s => cases h
    | name | target | targets => decide
  intro hmem
  obtain ⟨hblank, hquote⟩ : isBlank c = false ∧ c ≠ '\'' := by
    simpa using List.all_eq_true.1 hall c hmem
  rcases hc with hc | hc
  · exact absurd (hc.symm.trans hblank) (by decide)
  · exact hquote hc

/-- No placeholder begins another. -/
theorem not_spelling_isPrefix (hpart : part.isPlaceholder = true)
    (hother : other.isPlaceholder = true) (hne : other ≠ part) (cs : List Char) :
    ¬ part.spelling <+: other.spelling ++ cs := by
  cases part with
  | text s => cases hpart
  | name | target | targets =>
    cases other with
    | text s => cases hother
    | name | target | targets =>
      first
      | exact absurd rfl hne
      | simp [spelling_name, spelling_target, spelling_targets]

/-- A text without braces is passed over. -/
theorem replaceAll_text (hpart : part.isPlaceholder = true) {text : List Char}
    (h : '\x7b' ∉ text) (cs : List Char) :
    replaceAll part.spelling replacement (text ++ cs) =
      text ++ replaceAll part.spelling replacement cs := by
  obtain ⟨word, hword, -⟩ := exists_spelling hpart
  refine replaceAll_append_of_head (fun c hc => ?_) (spelling_ne_nil hpart) cs
  rw [hword, List.head?_cons, Ne, Option.some.injEq]
  rintro rfl
  exact h hc

theorem replaceAll_text_self (hpart : part.isPlaceholder = true) {text : List Char}
    (h : '\x7b' ∉ text) : replaceAll part.spelling replacement text = text := by
  have htext := @replaceAll_text part replacement hpart text h []
  rwa [List.append_nil, replaceAll_nil, List.append_nil] at htext

/-- Another placeholder is passed over. -/
theorem replaceAll_spelling (hpart : part.isPlaceholder = true)
    (hother : other.isPlaceholder = true) (hne : other ≠ part) (cs : List Char) :
    replaceAll part.spelling replacement (other.spelling ++ cs) =
      other.spelling ++ replaceAll part.spelling replacement cs := by
  have hmiss := not_spelling_isPrefix hpart hother hne cs
  obtain ⟨word, hword, hbrace⟩ := exists_spelling hother
  rw [hword, List.cons_append] at hmiss ⊢
  rw [replaceAll_cons hmiss, replaceAll_text hpart hbrace, List.cons_append]

end MessagePart

/-- The message with all placeholders of the template filled at once. -/
def fillAtOnce (template : List MessagePart) (values : MessageValues) : String :=
  String.ofList (template.flatMap (MessagePart.filled values))

/-- A text with the placeholders that it spells filled, all of one kind. -/
def refill (part : MessagePart) (replacement s : String) : String :=
  String.ofList (replaceAll part.spelling replacement.toList s.toList)

/-- The values of a message, with the placeholders that they spell filled. -/
def MessageValues.refilled (values : MessageValues) : MessageValues where
  name := values.name
  target := refill .name values.name values.target
  targets := refill .name values.name (refill .target values.target values.targets)

/-! ### Messages of templates -/

open Template in
/-- The messages that templates have, by the number of targets that they show. -/
inductive MessageForm (op : Operation) : List MessagePart → Prop where
  | plain {phrase : String} : op.arity = .zero → '\x7b' ∉ phrase.toList →
      MessageForm op (plainMessage phrase)
  /-- If more is said behind the target, then after a space. -/
  | target {phrase rest : String} : op.arity = .one → '\x7b' ∉ phrase.toList →
      '\x7b' ∉ rest.toList → (∀ c, rest.toList.head? = some c → c = ' ') →
      MessageForm op (targetMessage phrase rest)
  | targets {phrase : String} : op.arity = .many → '\x7b' ∉ phrase.toList →
      MessageForm op (targetsMessage phrase)

open MessagePart in
/-- **A message is filled at once, with values that have been filled before.** -/
theorem fillMessage_eq {op : Operation} {template : List MessagePart}
    (h : MessageForm op template) (values : MessageValues) :
    fillMessage template values = fillAtOnce template values.refilled := by
  have hname : name ≠ targets ∧ name ≠ target ∧ target ≠ targets := by decide
  obtain ⟨hnt, hnf, hft⟩ := hname
  have htext : ∀ s : String, (text s).spelling = s.toList := fun _ => rfl
  rw [fillMessage, fillAtOnce, String.ofList_inj]
  cases h with
  | @plain phrase _ hphrase =>
    simp only [Template.plainMessage, List.flatMap_cons, List.flatMap_nil, List.append_nil, htext]
    rw [replaceAll_spelling rfl rfl hnt, replaceAll_text_self rfl hphrase,
      replaceAll_spelling rfl rfl hnf, replaceAll_text_self rfl hphrase,
      replaceAll_append_self (spelling_ne_nil rfl), replaceAll_text_self rfl hphrase]
    rfl
  | @target phrase rest _ hphrase hrest hspace =>
    have hstop : ∀ c, rest.toList.head? = some c → c ∉ name.spelling := by
      intro c hc
      exact not_mem_spelling rfl (.inl (hspace c hc ▸ rfl))
    simp only [Template.targetMessage, List.flatMap_cons, List.flatMap_nil, List.append_nil, htext]
    rw [replaceAll_spelling rfl rfl hnt, replaceAll_text rfl hphrase,
      replaceAll_spelling rfl rfl hft, replaceAll_text_self rfl hrest,
      replaceAll_spelling rfl rfl hnf, replaceAll_text rfl hphrase,
      @replaceAll_append_self target.spelling _ (spelling_ne_nil rfl),
      replaceAll_text_self rfl hrest,
      replaceAll_append_self (spelling_ne_nil rfl), replaceAll_text rfl hphrase,
      replaceAll_append (spelling_ne_nil rfl) hstop, replaceAll_text_self rfl hrest]
    simp [filled, MessageValues.refilled, refill]
  | @targets phrase _ hphrase =>
    simp only [Template.targetsMessage, List.flatMap_cons, List.flatMap_nil, List.append_nil, htext]
    have hfill : replaceAll targets.spelling values.targets.toList targets.spelling =
        values.targets.toList := by
      simpa using @replaceAll_append_self targets.spelling values.targets.toList
        (spelling_ne_nil rfl) []
    rw [replaceAll_spelling rfl rfl hnt, replaceAll_text rfl hphrase, hfill,
      replaceAll_spelling rfl rfl hnf, replaceAll_text rfl hphrase,
      replaceAll_append_self (spelling_ne_nil rfl), replaceAll_text rfl hphrase]
    simp [filled, MessageValues.refilled, refill]

theorem comparisonPhrase_clean (c : Comparison) :
    '\x7b' ∉ (Template.comparisonPhrase c).toList := by
  cases c <;> decide

open Template in
/-- The message of every template has one of these forms. -/
theorem messageForm_of_eq_some {op : Operation} {category : Category} {shape : ShapeKind}
    {t : Template} (h : Template.of op category shape = some t) : MessageForm op t.message := by
  have hnil : ∀ c, "".toList.head? = some c → c = ' ' := by
    rintro c ⟨⟩
  have helements : ∀ c, " elements".toList.head? = some c → c = ' ' := by
    rintro c ⟨⟩
    rfl
  have hcompared : ∀ {r : Comparison} {right : RightSide}, op.arity = .one →
      comparison r right category shape = some t → MessageForm op t.message := by
    intro r right hone h
    obtain ⟨-, h⟩ := Option.ite_none_right_eq_some.1 h
    cases h
    exact .target hone (comparisonPhrase_clean r) (by decide) hnil
  cases op with
  | required =>
    cases shape with
    | plain =>
      obtain ⟨l, -, rfl⟩ := Option.map_eq_some_iff.1 h
      exact .plain rfl (by decide)
    | list | dict | fixedList =>
      cases h
      exact .plain rfl (by decide)
  | compare r => exact hcompared rfl h
  | compareField r => exact hcompared rfl h
  | sameText negated =>
    obtain ⟨-, h⟩ := Option.ite_none_right_eq_some.1 h
    cases h
    exact .target rfl (comparisonPhrase_clean _) (by decide) hnil
  | email =>
    obtain ⟨-, h⟩ := Option.ite_none_right_eq_some.1 h
    cases h
    exact .plain rfl (by decide)
  | limit l =>
    cases shape with
    | list | dict =>
      cases h
      exact .target rfl (by cases l <;> decide) (by decide) helements
    | fixedList => cases h
    | plain =>
      simp only [Template.of, limit] at h
      split_ifs at h
      · cases h
        exact .target rfl (by cases l <;> decide) (by decide) hnil
      · cases h
        exact .target rfl (comparisonPhrase_clean _) (by decide) hnil
  | member negated =>
    cases h
    cases negated <;> cases shape <;> exact .targets rfl (by decide)

/-! ### Targets that spell placeholders -/

section

variable {part : MessagePart} (hpart : part.isPlaceholder = true)
include hpart

/-- A text is kept exactly if it does not spell the placeholder, or if nothing else is put in. -/
theorem refill_eq_self_iff {replacement s : String} :
    refill part replacement s = s ↔ ¬ part.SpelledIn s ∨ replacement.toList = part.spelling := by
  rw [refill, ← String.toList_inj, String.toList_ofList,
    replaceAll_eq_self_iff (MessagePart.spelling_ne_nil hpart)]
  rfl

theorem spelledIn_apostrophed_iff {value : String} :
    part.SpelledIn (Validation.apostrophed value) ↔ part.SpelledIn value := by
  have hquote : ∀ c ∈ ['\''], c ∉ part.spelling :=
    List.forall_mem_singleton.2 (MessagePart.not_mem_spelling hpart (.inr rfl))
  have htext : (Validation.apostrophed value).toList = ['\''] ++ value.toList ++ ['\''] := by
    simp [Validation.apostrophed]
  rw [MessagePart.SpelledIn, htext]
  exact infix_append_append_iff (MessagePart.spelling_ne_nil hpart) hquote hquote

theorem spelledIn_trimmed_iff {value : String} :
    part.SpelledIn (trimmed value) ↔ part.SpelledIn value := by
  obtain ⟨front, behind, htext, hfront, hbehind⟩ := exists_trim value.toList
  rw [MessagePart.SpelledIn, MessagePart.SpelledIn, toList_trimmed]
  conv_rhs => rw [htext]
  refine (infix_append_append_iff (MessagePart.spelling_ne_nil hpart) ?_ ?_).symm
  · exact fun c hc => MessagePart.not_mem_spelling hpart (.inl (hfront c hc))
  · exact fun c hc => MessagePart.not_mem_spelling hpart (.inl (hbehind c hc))

/-- A list between apostrophes spells the placeholder where one of its texts does. -/
theorem infix_apostrophedTexts_iff {texts : List (List Char)} :
    part.spelling <:+: Tag.apostrophedTexts texts ↔ ∃ text ∈ texts, part.spelling <:+: text := by
  have hne := MessagePart.spelling_ne_nil hpart
  have hquote : '\'' ∉ part.spelling := MessagePart.not_mem_spelling hpart (.inr rfl)
  have hspace : ' ' ∉ part.spelling := MessagePart.not_mem_spelling hpart (.inl rfl)
  have hnil : ¬ part.spelling <:+: [] := by simpa using hne
  induction texts with
  | nil =>
    have hempty : Tag.apostrophedTexts [] = [] := rfl
    simpa [hempty] using hne
  | cons text texts ih =>
    rw [List.exists_mem_cons_iff]
    cases texts with
    | nil =>
      have hempty : ¬ ∃ text ∈ ([] : List (List Char)), part.spelling <:+: text := by simp
      rw [Tag.apostrophedTexts_singleton, ← List.nil_append ('\'' :: _),
        infix_append_cons_iff hne hquote, infix_append_cons_iff hne hquote, or_iff_right hnil,
        or_iff_left hnil, or_iff_left hempty]
    | cons next texts =>
      rw [Tag.apostrophedTexts_cons_cons, ← List.nil_append ('\'' :: _),
        infix_append_cons_iff hne hquote, infix_append_cons_iff hne hquote, or_iff_right hnil,
        ← List.nil_append (' ' :: _), infix_append_cons_iff hne hspace, or_iff_right hnil]
      exact or_congr_right ih

end

theorem spelledIn_apostrophedList_iff {part : MessagePart} (hpart : part.isPlaceholder = true)
    {values : List String} :
    part.SpelledIn (Validation.apostrophedList values) ↔ ∃ value ∈ values, part.SpelledIn value := by
  rw [MessagePart.SpelledIn, Validation.toList_apostrophedList, infix_apostrophedTexts_iff hpart]
  simp only [List.mem_map, exists_exists_and_eq_and]
  rfl

/-- No target spells a placeholder that is filled with something else: not that of the name, if the
field has another name, and, in a list of targets, not that of the first target. -/
def Rule.AvoidsPlaceholders (field : String) (rule : Rule) : Prop :=
  ((∀ value ∈ rule.validation.values, ¬ MessagePart.name.SpelledIn value) ∨
    field.toList = MessagePart.name.spelling) ∧
  (rule.validation.operation.arity = .many →
    ∀ value ∈ rule.validation.values, ¬ MessagePart.target.SpelledIn value)

instance {field : String} : DecidablePred (Rule.AvoidsPlaceholders field) :=
  fun _ => inferInstanceAs (Decidable (_ ∧ _))

namespace Condition

variable {field : String} {type : FieldType} {rule : Rule}

/-- The only target is shown between apostrophes or without the blanks around it. -/
theorem shownTarget_cases {value : String} (h : rule.validation.values = [value]) :
    shownTarget type rule = Validation.apostrophed value ∨ shownTarget type rule = trimmed value := by
  unfold shownTarget
  rw [h]
  simp only
  split_ifs
  · exact .inl rfl
  · exact .inr rfl

theorem spelledIn_shownTarget_iff {part : MessagePart} (hpart : part.isPlaceholder = true)
    {value : String} (h : rule.validation.values = [value]) :
    part.SpelledIn (shownTarget type rule) ↔ part.SpelledIn value := by
  rcases @shownTarget_cases type rule value h with hshown | hshown
  · rw [hshown, spelledIn_apostrophed_iff hpart]
  · rw [hshown, spelledIn_trimmed_iff hpart]

/-- What a message puts for its placeholders. -/
def messageValues (field : String) (type : FieldType) (rule : Rule) : MessageValues :=
  ⟨field, shownTarget type rule, Validation.apostrophedList rule.validation.values⟩

/-- A list of targets that is kept spells no placeholder of the first target: either an apostrophe
would come with it, and none is ever lost, or the targets are read as something else than texts, and
have no braces then. -/
theorem not_spelledIn_target_of_refilled_eq (hfits : rule.Fits type)
    (hmany : rule.validation.operation.arity = .many)
    (h : (messageValues field type rule).refilled.targets = (messageValues field type rule).targets) :
    ¬ MessagePart.target.SpelledIn (messageValues field type rule).targets := by
  cases hfits with
  | compared _ hcmp =>
    cases hop : rule.validation.operation with
    | compareField c => simp [hop, Operation.arity] at hmany
    | _ => simp [hop, Operation.comparesFields] at hcmp
  | checked harity _ _ hread hpeer =>
    by_cases hkind : TargetKind.of rule.validation.operation type = .text
    · have hquote : '\'' ∈ (shownTarget type rule).toList := by
        rw [Validation.HasArity, hmany] at harity
        obtain ⟨value, values, hvalues⟩ := List.exists_cons_of_ne_nil harity
        simp [shownTarget, hvalues, hpeer, hkind, Validation.apostrophed]
      have hname : '\'' ∉ MessagePart.name.spelling := MessagePart.not_mem_spelling rfl (.inr rfl)
      have htarget : '\'' ∉ MessagePart.target.spelling :=
        MessagePart.not_mem_spelling rfl (.inr rfl)
      refine not_infix_of_count (MessagePart.spelling_ne_nil rfl) htarget hquote ?_
      have hcount := congrArg (fun s : String => s.toList.count '\'') h
      simp only [messageValues, MessageValues.refilled, refill, String.toList_ofList] at hcount
      rw [messageValues, ← hcount]
      exact count_le_count_replaceAll (MessagePart.spelling_ne_nil rfl) hname
    · rw [messageValues, spelledIn_apostrophedList_iff rfl]
      rintro ⟨value, hvalue, hspelled⟩
      obtain ⟨l, hl⟩ := hread value hvalue
      obtain ⟨word, hword, -⟩ := @MessagePart.exists_spelling .target rfl
      rw [← spelledIn_trimmed_iff rfl, MessagePart.SpelledIn, hword, toList_trimmed] at hspelled
      exact TargetKind.brace_notMem_of_read hkind hl (hspelled.subset List.mem_cons_self)

/-- A list of targets is kept exactly if none of them spells a placeholder. -/
theorem refilled_targets_eq_iff (hfits : rule.Fits type)
    (hmany : rule.validation.operation.arity = .many) :
    (messageValues field type rule).refilled.targets = (messageValues field type rule).targets ↔
      rule.AvoidsPlaceholders field := by
  have hname : refill .name field (Validation.apostrophedList rule.validation.values) =
      Validation.apostrophedList rule.validation.values ↔
      (∀ value ∈ rule.validation.values, ¬ MessagePart.name.SpelledIn value) ∨
        field.toList = MessagePart.name.spelling := by
    rw [refill_eq_self_iff rfl, spelledIn_apostrophedList_iff rfl]
    simp only [not_exists, not_and]
  have htarget : ¬ MessagePart.target.SpelledIn (messageValues field type rule).targets ↔
      ∀ value ∈ rule.validation.values, ¬ MessagePart.target.SpelledIn value := by
    rw [messageValues, spelledIn_apostrophedList_iff rfl]
    simp only [not_exists, not_and]
  have hkept : ¬ MessagePart.target.SpelledIn (messageValues field type rule).targets →
      (messageValues field type rule).refilled.targets =
        refill .name field (Validation.apostrophedList rule.validation.values) := by
    intro hspelled
    exact congrArg (refill .name field) ((refill_eq_self_iff rfl).2 (.inl hspelled))
  constructor
  · intro h
    have hspelled := not_spelledIn_target_of_refilled_eq hfits hmany h
    exact ⟨hname.1 ((hkept hspelled).symm.trans h), fun _ => htarget.1 hspelled⟩
  · rintro ⟨havoidsName, havoidsTarget⟩
    exact (hkept (htarget.2 (havoidsTarget hmany))).trans (hname.2 havoidsName)

/-- So is the only target. -/
theorem refilled_target_eq_iff {value : String} (hvalues : rule.validation.values = [value])
    (hone : rule.validation.operation.arity = .one) :
    (messageValues field type rule).refilled.target = (messageValues field type rule).target ↔
      rule.AvoidsPlaceholders field := by
  have hmany : rule.validation.operation.arity ≠ .many := by simp [hone]
  simp only [Rule.AvoidsPlaceholders, hvalues, List.forall_mem_singleton, hmany, false_imp_iff,
    and_true, ← @spelledIn_shownTarget_iff type rule .name rfl value hvalues]
  exact refill_eq_self_iff rfl

/-- **A message says what was written** exactly if no target spells a placeholder. -/
theorem fillAtOnce_refilled_eq_iff (hfits : rule.Fits type) {template : List MessagePart}
    (h : MessageForm rule.validation.operation template) :
    fillAtOnce template (messageValues field type rule).refilled =
        fillAtOnce template (messageValues field type rule) ↔ rule.AvoidsPlaceholders field := by
  have harity := hfits.hasArity
  cases h with
  | plain hzero _ =>
    rw [Validation.HasArity, hzero] at harity
    simp [fillAtOnce, Template.plainMessage, MessagePart.filled, MessageValues.refilled,
      Rule.AvoidsPlaceholders, harity]
  | target hone _ _ _ =>
    rw [Validation.HasArity, hone] at harity
    obtain ⟨value, hvalue⟩ := harity
    rw [← @refilled_target_eq_iff field type rule value hvalue hone]
    simp [fillAtOnce, Template.targetMessage, MessagePart.filled, MessageValues.refilled]
  | targets hmany _ =>
    rw [← @refilled_targets_eq_iff field type rule hfits hmany]
    simp [fillAtOnce, Template.targetsMessage, MessagePart.filled, MessageValues.refilled]

/-- A message that is filled at once has all targets in it, if they can be written in an entry. -/
theorem infix_fillAtOnce (hv : rule.validation.Representable) {template : List MessagePart}
    (h : MessageForm rule.validation.operation template) :
    ∀ value ∈ rule.validation.values,
      value.toList <:+: (fillAtOnce template (messageValues field type rule)).toList := by
  have hfilled : ∀ part ∈ template, part.filled (messageValues field type rule) <:+:
      (fillAtOnce template (messageValues field type rule)).toList := by
    intro part hpart
    rw [fillAtOnce, String.toList_ofList]
    exact List.infix_of_mem_flatten (List.mem_map_of_mem hpart)
  intro value hvalue
  cases hv with
  | zero _ hvalues => simp [hvalues] at hvalue
  | @one only hone hvalues _ htrim _ =>
    have htarget : MessagePart.target ∈ template := by
      cases h with
      | plain hzero | targets hmany => simp_all
      | target => simp [Template.targetMessage]
    refine List.IsInfix.trans ?_ (hfilled _ htarget)
    obtain rfl : value = only := by simpa [hvalues] using hvalue
    rcases @shownTarget_cases type rule value hvalues with hshown | hshown
    · simp only [MessagePart.filled, messageValues, hshown, Validation.apostrophed]
      exact ⟨['\''], ['\''], by simp⟩
    · simp only [MessagePart.filled, messageValues, hshown, toList_trimmed, htrim]
      exact List.infix_rfl
  | many hmany _ _ =>
    have htargets : MessagePart.targets ∈ template := by
      cases h with
      | plain hzero | target hone => simp_all
      | targets => simp [Template.targetsMessage]
    refine List.IsInfix.trans ?_ (hfilled _ htargets)
    simp only [MessagePart.filled, messageValues, Validation.toList_apostrophedList]
    exact Tag.infix_apostrophedTexts (List.mem_map_of_mem hvalue)

/-- A field of a declared type has no conditions. -/
theorem isPrimitive_of_build {types analyzed : List Declaration} (h : analyze types = .ok analyzed)
    {d : Declaration} (hd : d ∈ analyzed) {owner : Field} (howner : owner ∈ d.fields)
    (hrule : rule ∈ owner.rules) {condition : Condition}
    (hbuild : build owner.name owner.fieldType rule = .ok condition) :
    owner.fieldType.isPrimitive = true := by
  by_contra hprim
  have hnested : owner.fieldType.isPrimitive = false := by simpa using hprim
  obtain ⟨hop, hshape⟩ := required_of_analyze h hd howner hnested hrule
  obtain ⟨t, _, _, ht, -, -⟩ := build_eq_ok_iff.1 hbuild
  have hother : owner.fieldType.category = .other := by
    simpa [FieldType.isPrimitive_iff] using hprim
  rw [hop, hshape, hother] at ht
  cases ht

end Condition

open Condition

/-- **What a message says.** It is the one that fills its template at once, but with targets whose
placeholders have been filled before: with targets that are left as they are exactly if none of them
spells a placeholder. Every target is in the message then. -/
theorem messages_exactness {types analyzed : List Declaration} (h : analyze types = .ok analyzed)
    {d : Declaration} (hd : d ∈ analyzed) {field : Field} (hfield : field ∈ d.fields) {rule : Rule}
    (hrule : rule ∈ field.rules) :
    (field.fieldType.isPrimitive = true →
      ∃ condition, build field.name field.fieldType rule = .ok condition) ∧
    ∀ condition, build field.name field.fieldType rule = .ok condition →
      ∃ t, Template.of rule.validation.operation field.fieldType.category
          field.fieldType.shape.kind = some t ∧
        condition.message =
          fillAtOnce t.message (messageValues field.name field.fieldType rule).refilled ∧
        (condition.message = fillAtOnce t.message (messageValues field.name field.fieldType rule) ↔
          rule.AvoidsPlaceholders field.name) ∧
        (rule.AvoidsPlaceholders field.name →
          ∀ value ∈ rule.validation.values, value.toList <:+: condition.message.toList) := by
  constructor
  · intro hprim
    obtain ⟨_, condition, hbuild, -⟩ :=
      exists_builds_of_fits field.name (fits_of_analyze h hd hfield hprim hrule)
    exact ⟨condition, hbuild⟩
  · intro condition hbuild
    have hprim := isPrimitive_of_build h hd hfield hrule hbuild
    have hfits := fits_of_analyze h hd hfield hprim hrule
    obtain ⟨es, -, e, -, hentry⟩ := exists_entry_of_analyze h hd hfield hrule
    obtain ⟨t, left, rights, ht, -, rfl⟩ := build_eq_ok_iff.1 hbuild
    have hform := messageForm_of_eq_some ht
    have hmessage : (ofTemplate t field.name field.fieldType rule left rights).message =
        fillAtOnce t.message (messageValues field.name field.fieldType rule).refilled :=
      fillMessage_eq hform _
    have hexact := @fillAtOnce_refilled_eq_iff field.name field.fieldType rule hfits _ hform
    refine ⟨t, ht, hmessage, ?_, fun havoids => ?_⟩
    · rw [hmessage, hexact]
    · rw [hmessage, hexact.2 havoids]
      exact infix_fillAtOnce (Validation.representable_of_ofEntry hentry) hform

/-- A target that spells the placeholders of targets is shown as it is. -/
theorem targets_in_target_kept :
    ∃ analyzed d field rule condition,
      analyze [⟨"User", "", none,
        [⟨"role", "Option<&str>", "neq=\x7btarget\x7d of \x7btargets\x7d", []⟩], false⟩] =
          .ok analyzed ∧ d ∈ analyzed ∧ field ∈ d.fields ∧ rule ∈ field.rules ∧
      build field.name field.fieldType rule = .ok condition ∧
      condition.message = "role must not be equal to '\x7btarget\x7d of \x7btargets\x7d'" := by
  have hanalyzed : analyze [⟨"User", "", none,
      [⟨"role", "Option<&str>", "neq=\x7btarget\x7d of \x7btargets\x7d", []⟩], false⟩] =
    .ok [⟨"User", "", none, [⟨"role", "Option<&str>", "neq=\x7btarget\x7d of \x7btargets\x7d",
      [⟨⟨.compare .ne, ["\x7btarget\x7d of \x7btargets\x7d"]⟩, none⟩]⟩], true⟩] := by
    decide +kernel
  obtain ⟨hexists, hall⟩ := messages_exactness hanalyzed List.mem_cons_self List.mem_cons_self
    List.mem_cons_self
  obtain ⟨condition, hbuild⟩ := hexists (by decide +kernel)
  obtain ⟨t, ht, -, hexact, -⟩ := hall condition hbuild
  refine ⟨_, _, _, _, condition, hanalyzed, List.mem_cons_self, List.mem_cons_self,
    List.mem_cons_self, hbuild, ?_⟩
  have htype : FieldType.ofSpelling "Option<&str>" = ⟨.string, .plain, true, "&str"⟩ := by
    decide +kernel
  rw [hexact.2 (by decide), Field.fieldType, htype]
  rw [Field.fieldType, htype] at ht
  cases ht
  decide +kernel

/-- Targets that spell other placeholders are not shown as they are. -/
theorem spelled_placeholders_filled :
    analyze [⟨"User", "", none,
        [⟨"role", "String", "in='\x7bname\x7d' '\x7btarget\x7d'", []⟩], false⟩] =
      .ok [⟨"User", "", none, [⟨"role", "String", "in='\x7bname\x7d' '\x7btarget\x7d'",
        [⟨⟨.member false, ["\x7bname\x7d", "\x7btarget\x7d"]⟩, none⟩]⟩], true⟩] ∧
    ∃ t condition,
      Template.of (.member false) (FieldType.ofSpelling "String").category
        (FieldType.ofSpelling "String").shape.kind = some t ∧
      build "role" (.ofSpelling "String")
        ⟨⟨.member false, ["\x7bname\x7d", "\x7btarget\x7d"]⟩, none⟩ = .ok condition ∧
      condition.message = "role must be one of 'role' ''role''" ∧
      fillAtOnce t.message (messageValues "role" (.ofSpelling "String")
        ⟨⟨.member false, ["\x7bname\x7d", "\x7btarget\x7d"]⟩, none⟩) =
          "role must be one of '\x7bname\x7d' '\x7btarget\x7d'" ∧
      condition.message ≠ "role must be one of '\x7bname\x7d' '\x7btarget\x7d'" := by
  have htype : FieldType.ofSpelling "String" = ⟨.string, .plain, false, "String"⟩ := by
    decide +kernel
  refine ⟨by decide +kernel, ?_⟩
  rw [htype]
  exact ⟨_, _, rfl, rfl, by decide +kernel, by decide +kernel, by decide +kernel⟩

end FieldRules
