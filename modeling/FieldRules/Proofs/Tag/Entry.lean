import FieldRules.Proofs.Tag.Arity
import FieldRules.Proofs.Tag.QuotedList

/-!
# Reading an entry

An entry names an operation, alone or before an equals sign, and the text behind the equals sign is
what its targets are read from (`Names`). Every other entry has a fault: more than one equals sign, or
an unknown name. Names are plain texts, which neither hold a separator nor need a quote.

The targets of an operation that takes several are read by the grammar of quoted lists as soon as
they hold an apostrophe. `ofEntry_quoted` says what comes of such an entry: the values of the list if
the text is one, and otherwise a fault that tells an unfinished list from everything else.

An unfinished list leaves a quote open, so that an entry with this fault is no piece of a tag
(`ofEntry_ne_unterminated`).
-/

namespace FieldRules

open Text

/-! ### Names of operations -/

/-- The name of an operation needs no quotes, holds nothing that separates, and is trimmed. -/
theorem Operation.name_plain (op : Operation) :
    ',' ∉ op.name.toList ∧ '\'' ∉ op.name.toList ∧ '=' ∉ op.name.toList ∧
      trim op.name.toList = op.name.toList ∧ op.name ≠ "" := by
  have hall : ∀ op ∈ all, ',' ∉ op.name.toList ∧ '\'' ∉ op.name.toList ∧ '=' ∉ op.name.toList ∧
      trim op.name.toList = op.name.toList ∧ op.name ≠ "" := by decide
  exact hall op (mem_all op)

/-- A name stays plain between blanks. -/
theorem Operation.plain_of_trim_eq_name {op : Operation} {cs : List Char}
    (h : trim cs = op.name.toList) : ',' ∉ cs ∧ '\'' ∉ cs ∧ '=' ∉ cs := by
  obtain ⟨hcomma, hquote, hequals, -⟩ := op.name_plain
  rw [← h] at hcomma hquote hequals
  exact ⟨mt (mem_trim_iff (by decide)).2 hcomma, mt (mem_trim_iff (by decide)).2 hquote,
    mt (mem_trim_iff (by decide)).2 hequals⟩

/-- The parts between separators hold what does not separate. -/
theorem forall_mem_splitOnP {α : Type} {p : α → Bool} {xs part : List α}
    (h : part ∈ xs.splitOnP p) : ∀ x ∈ part, x ∈ xs ∧ p x = false := by
  induction xs generalizing part with
  | nil =>
    rw [List.splitOnP_nil, List.mem_singleton] at h
    simp [h]
  | cons y ys ih =>
    have hmore : ∀ part ∈ ys.splitOnP p, ∀ x ∈ part, x ∈ y :: ys ∧ p x = false := by
      intro part hpart x hx
      exact ⟨List.mem_cons_of_mem y (ih hpart x hx).1, (ih hpart x hx).2⟩
    rw [List.splitOnP_cons_eq_if_modifyHead] at h
    by_cases hy : p y = true
    · rw [if_pos hy] at h
      rcases List.mem_cons.1 h with rfl | h
      · simp
      · exact hmore part h
    · rw [if_neg hy] at h
      cases hsplit : ys.splitOnP p with
      | nil => exact absurd hsplit (List.splitOnP_ne_nil p ys)
      | cons first rest =>
        rw [hsplit] at h hmore
        rcases List.mem_cons.1 h with rfl | h
        · exact List.forall_mem_cons.2 ⟨⟨List.mem_cons_self, by simpa using hy⟩,
            hmore first List.mem_cons_self⟩
        · exact hmore part (List.mem_cons_of_mem first h)

/-! ### Names and targets -/

namespace Tag

/-- The entry names the operation, and the text is what it has for targets: nothing, or what stands
behind the equals sign without the blanks around it. -/
inductive Names (entry : List Char) (op : Operation) : List Char → Prop where
  /-- The name alone. -/
  | alone : trim entry = op.name.toList → Names entry op []
  /-- The name before an equals sign. -/
  | before {name target : List Char} : entry = name ++ '=' :: target → '=' ∉ target →
      trim name = op.name.toList → Names entry op (trim target)

variable {op : Operation} {target : List Char}

/-- The text for the targets is trimmed and holds no equals sign. -/
theorem Names.plain {entry : List Char} (h : Names entry op target) :
    trim target = target ∧ '=' ∉ target := by
  cases h with
  | alone _ => exact ⟨rfl, List.not_mem_nil⟩
  | before _ hequals _ => exact ⟨trim_trim _, mt mem_of_mem_trim hequals⟩

/-- A single target is the whole text. -/
theorem targets_one_eq_ok_iff {values : List String} (hop : op.arity = .one) :
    targets op target = .ok values ↔ target ≠ [] ∧ values = [String.ofList target] := by
  rw [targets, hop]
  dsimp only
  by_cases htarget : target = []
  · simp [htarget]
  · simp [htarget, eq_comm (a := values)]

/-- A named operation is stated with what its targets are read as. -/
theorem validation_name :
    validation op.name.toList target = (targets op target).map fun values => ⟨op, values⟩ := by
  rw [validation, String.ofList_toList, Operation.ofName?_name]

theorem validation_of_not_name {name : List Char} (h : ∀ op : Operation, name ≠ op.name.toList) :
    validation name target = .error (.unsupported (String.ofList name)) := by
  have hnone : Operation.ofName? (String.ofList name) = none := by
    cases hop : Operation.ofName? (String.ofList name) with
    | none => rfl
    | some op =>
      have hname := Operation.name_of_ofName? hop
      exact absurd (by rw [hname, String.toList_ofList]) (h op)
  rw [validation, hnone]

end Tag

namespace Validation

variable {entry : String} {op : Operation} {target : List Char}

/-- An entry that names an operation states it with what its targets are read as. -/
theorem ofEntry_of_names (h : Tag.Names entry.toList op target) :
    ofEntry entry = (Tag.targets op target).map fun values => ⟨op, values⟩ := by
  cases h with
  | alone hname =>
    have hequals : '=' ∉ entry.toList := (Operation.plain_of_trim_eq_name hname).2.2
    rw [ofEntry, List.splitOn_eq_singleton hequals]
    dsimp only
    rw [hname, Tag.validation_name]
  | before hentry htarget hname =>
    have hequals := (Operation.plain_of_trim_eq_name hname).2.2
    rw [ofEntry, hentry, List.splitOn_append_cons_self_of_not_mem hequals,
      List.splitOn_eq_singleton htarget]
    dsimp only
    rw [hname, Tag.validation_name]

/-- Any other entry has a fault: two equals signs, or an unknown name. -/
theorem names_or_ofEntry_eq_error (entry : String) :
    (∃ op target, Tag.Names entry.toList op target) ∨
      ofEntry entry = .error (.malformed entry) ∨
        ∃ name, ofEntry entry = .error (.unsupported name) := by
  have hjoin : ['='].intercalate (entry.toList.splitOn '=') = entry.toList :=
    List.intercalate_splitOn '='
  by_cases hnames : ∃ op target, Tag.Names entry.toList op target
  · exact .inl hnames
  · right
    unfold ofEntry
    split
    case h_1 name hsplit =>
      rw [hsplit, List.intercalate_singleton] at hjoin
      refine .inr ⟨_, Tag.validation_of_not_name fun op hop => hnames ⟨op, [], .alone ?_⟩⟩
      rw [← hjoin, hop]
    case h_2 name target hsplit =>
      rw [hsplit, List.intercalate_cons_cons, List.intercalate_singleton, List.append_assoc]
        at hjoin
      have hequals : '=' ∉ target := by
        intro hmem
        rw [List.splitOn_eq_splitOnP] at hsplit
        have hpart : target ∈ entry.toList.splitOnP (· == '=') := by simp [hsplit]
        exact absurd (forall_mem_splitOnP hpart '=' hmem).2 (by simp)
      refine .inr ⟨_, Tag.validation_of_not_name fun op hop => hnames ⟨op, trim target, ?_⟩⟩
      exact .before hjoin.symm hequals hop
    case h_3 => exact .inl rfl

/-- An entry states a validation exactly if it names the operation and its targets are read. -/
theorem ofEntry_eq_ok_iff {v : Validation} :
    ofEntry entry = .ok v ↔ ∃ target, Tag.Names entry.toList v.operation target ∧
      Tag.targets v.operation target = .ok v.values := by
  constructor
  · intro h
    rcases names_or_ofEntry_eq_error entry with ⟨op, target, hnames⟩ | herror | ⟨name, herror⟩
    · rw [ofEntry_of_names hnames] at h
      obtain ⟨values, hvalues, rfl⟩ := map_eq_ok_iff.1 h
      exact ⟨target, hnames, hvalues⟩
    · rw [h] at herror
      cases herror
    · rw [h] at herror
      cases herror
  · rintro ⟨target, hnames, hvalues⟩
    rw [ofEntry_of_names hnames, map_eq_ok_iff]
    exact ⟨v.values, hvalues, rfl⟩

end Validation

/-! ### Quoted targets -/

namespace Tag

variable {op : Operation} {target : List Char}

/-- With an apostrophe, the targets are read as a quoted list. -/
theorem targetList_of_quote (hquote : '\'' ∈ target) :
    targetList op target =
      match quotedValues none target with
      | .ok [] => .error (.expectedManyTargets op)
      | .ok values => .ok (values.map String.ofList)
      | .error .stray => .error (.invalidQuote op (String.ofList target))
      | .error .unterminated => .error (.unterminatedQuote op (String.ofList target)) := by
  have hcontains : target.contains '\'' = true := by simpa using hquote
  unfold targetList
  simp only [if_pos hcontains]
  cases quotedValues none target with
  | error fault => cases fault <;> rfl
  | ok values => cases values <;> rfl

/-- Without one, they are words. -/
theorem targetList_of_not_quote (hquote : '\'' ∉ target) :
    targetList op target =
      match words target with
      | [] => .error (.expectedManyTargets op)
      | values => .ok (values.map String.ofList) := by
  have hcontains : ¬ target.contains '\'' = true := by simpa using hquote
  unfold targetList
  simp only [if_neg hcontains]
  cases words target <;> rfl

/-- A quoted list with an apostrophe in it has values. -/
theorem quotedValues_ne_nil (hquote : '\'' ∈ target) (htrim : trim target = target) :
    quotedValues none target ≠ .ok [] := by
  rw [Ne, quotedValues_eq_ok_iff_of_trim htrim]
  intro h
  cases h
  cases hquote

/-- Quoted targets are the values of a quoted list. -/
theorem targetList_eq_ok_iff (hquote : '\'' ∈ target) (htrim : trim target = target)
    {values : List String} :
    targetList op target = .ok values ↔ QuotedList (values.map String.toList) target := by
  have hne := quotedValues_ne_nil hquote htrim
  rw [← quotedValues_eq_ok_iff_of_trim htrim, targetList_of_quote hquote]
  cases hread : quotedValues none target with
  | error fault => cases fault <;> simp
  | ok read =>
    cases read with
    | nil => exact absurd hread hne
    | cons first rest =>
      simp only [Except.ok.injEq]
      constructor
      · rintro rfl
        simp [Function.comp_def]
      · intro h
        rw [h, List.map_map]
        simp [Function.comp_def]

/-- An unfinished list is told from any other text that is no quoted list. -/
theorem targetList_eq_error_iff (hquote : '\'' ∈ target) (htrim : trim target = target)
    {fault : TagError} :
    targetList op target = .error fault ↔
      fault = .unterminatedQuote op (String.ofList target) ∧ Unfinished target ∨
        fault = .invalidQuote op (String.ofList target) ∧ ¬ Unfinished target ∧
          ∀ values, ¬ QuotedList values target := by
  have hunfinished : Unfinished target ↔ quotedValues none target = .error .unterminated := by
    rw [quotedValues_eq_unterminated_iff, trimStart_of_trim htrim]
  have hne := quotedValues_ne_nil hquote htrim
  simp only [← quotedValues_eq_ok_iff_of_trim htrim, hunfinished, targetList_of_quote hquote]
  cases hread : quotedValues none target with
  | error inner => cases inner <;> simp [eq_comm (a := fault)]
  | ok read =>
    cases read with
    | nil => exact absurd hread hne
    | cons first rest => simp

/-- The targets of a list hold characters of its text, and no apostrophes. -/
theorem forall_mem_targetList {values : List String}
    (h : targetList op target = .ok values) (htrim : trim target = target)
    (hequals : '=' ∉ target) : ∀ value ∈ values, '\'' ∉ value.toList ∧ '=' ∉ value.toList := by
  by_cases hquote : '\'' ∈ target
  · intro value hvalue
    have hlist := (targetList_eq_ok_iff hquote htrim).1 h
    obtain ⟨hplain, hmem⟩ := hlist.forall_mem value.toList (List.mem_map_of_mem hvalue)
    exact ⟨hplain, fun hc => hequals (hmem _ hc)⟩
  · have hvalues : values = (words target).map String.ofList := by
      rw [targetList_of_not_quote hquote] at h
      cases hwords : words target with
      | nil => simp [hwords] at h
      | cons first rest => simpa [hwords] using h.symm
    rw [hvalues]
    refine List.forall_mem_map.2 fun word hword => ?_
    have hmem : ∀ c ∈ word, c ∈ target := fun c hc =>
      (forall_mem_splitOnP (List.mem_filter.1 hword).1 c hc).1
    rw [String.toList_ofList]
    exact ⟨fun hc => hquote (hmem _ hc), fun hc => hequals (hmem _ hc)⟩

/-- The end of a target is missed only in an unfinished list. -/
theorem unfinished_of_targets {op' : Operation} {value : String} (htrim : trim target = target)
    (h : targets op target = .error (.unterminatedQuote op' value)) : Unfinished target := by
  unfold targets at h
  split at h
  · split at h <;> cases h
  · split at h <;> cases h
  · by_cases hquote : '\'' ∈ target
    · rcases (targetList_eq_error_iff hquote htrim).1 h with ⟨-, hunfinished⟩ | ⟨hfault, -⟩
      · exact hunfinished
      · cases hfault
    · rw [targetList_of_not_quote hquote] at h
      cases hwords : words target <;> simp [hwords] at h

end Tag

namespace Validation

variable {op : Operation}

/-- **The two rules for quotes agree**: an entry whose last target does not end is no piece of a tag,
because the splitting of the tag would still be inside of a quote at its end. -/
theorem ofEntry_ne_unterminated {entry value : String} (h : Tag.IsPiece false none entry.toList) :
    ofEntry entry ≠ .error (.unterminatedQuote op value) := by
  intro herror
  rcases names_or_ofEntry_eq_error entry with ⟨op', target, hnames⟩ | hother | ⟨name, hother⟩
  · rw [ofEntry_of_names hnames, map_eq_error_iff] at herror
    have hunfinished := Tag.unfinished_of_targets hnames.plain.1 herror
    cases hnames with
    | alone _ =>
      obtain ⟨_, done, tail, -, -, hnil⟩ := hunfinished
      simp at hnil
    | before hentry _ hname =>
      -- In front of the equals sign no quote opens, and behind it a quote may open.
      obtain ⟨hcomma, hquote, -⟩ := Operation.plain_of_trim_eq_name hname
      rw [hentry, Tag.isPiece_append_plain hcomma hquote (by decide), ← Tag.isPiece_trim rfl] at h
      exact hunfinished.not_isPiece rfl h
  · rw [herror] at hother
    cases hother
  · rw [herror] at hother
    cases hother

/-- **Quoted targets are read by their grammar.** An entry of an operation that takes several
targets, with an apostrophe behind its only equals sign, states exactly the values of a quoted list,
as they stand and in order. On any other text it has a fault, and the fault is a missing end exactly
if the text is a quoted list up to an apostrophe that is not closed. -/
theorem ofEntry_quoted {name target : String} (hop : op.arity = .many)
    (hname : trimmed name = op.name) (hequals : '=' ∉ target.toList)
    (hquote : '\'' ∈ target.toList) :
    (∀ v, ofEntry (name ++ "=" ++ target) = .ok v ↔
      v.operation = op ∧ Tag.QuotedList (v.values.map String.toList) (trim target.toList)) ∧
    ∀ fault, ofEntry (name ++ "=" ++ target) = .error fault ↔
      fault = .unterminatedQuote op (trimmed target) ∧ Tag.Unfinished (trim target.toList) ∨
        fault = .invalidQuote op (trimmed target) ∧ ¬ Tag.Unfinished (trim target.toList) ∧
          ∀ values, ¬ Tag.QuotedList values (trim target.toList) := by
  have hentry : (name ++ "=" ++ target).toList = name.toList ++ '=' :: target.toList := by simp
  have hnames : Tag.Names (name ++ "=" ++ target).toList op (trim target.toList) :=
    .before hentry hequals (by rw [← toList_trimmed, hname])
  have htargets : Tag.targets op (trim target.toList) = Tag.targetList op (trim target.toList) := by
    rw [Tag.targets, hop]
  have hquote' : '\'' ∈ trim target.toList := (mem_trim_iff (by decide)).2 hquote
  have htrim := trim_trim target.toList
  rw [ofEntry_of_names hnames, htargets]
  constructor
  · intro v
    rw [map_eq_ok_iff]
    constructor
    · rintro ⟨values, hvalues, rfl⟩
      exact ⟨rfl, (Tag.targetList_eq_ok_iff hquote' htrim).1 hvalues⟩
    · rintro ⟨rfl, hlist⟩
      exact ⟨v.values, (Tag.targetList_eq_ok_iff hquote' htrim).2 hlist, rfl⟩
  · intro fault
    rw [map_eq_error_iff]
    exact Tag.targetList_eq_error_iff hquote' htrim

/-- Three targets, one of them empty, with a tab and with nothing between them; and a list with a
target that does not end. -/
theorem codes_quoted :
    ofEntry (" nin" ++ "=" ++ " 'a, b''' \t' c' ") = .ok ⟨.member true, ["a, b", "", " c"]⟩ ∧
      ofEntry ("in" ++ "=" ++ "'a' 'b, ") =
        .error (.unterminatedQuote (.member false) "'a' 'b,") := by
  have hspace : ∀ b ∈ [' '], isBlank b = true := List.forall_mem_singleton.2 rfl
  have hblanks : ∀ b ∈ [' ', '\t'], isBlank b = true :=
    List.forall_mem_cons.2 ⟨rfl, List.forall_mem_singleton.2 rfl⟩
  have hlist : Tag.QuotedList (["a, b", "", " c"].map String.toList)
      (trim " 'a, b''' \t' c' ".toList) :=
    .cons (by decide) (List.forall_mem_nil _)
      (.cons (by decide) hblanks (.cons (by decide) (List.forall_mem_nil _) .nil))
  have hunfinished : Tag.Unfinished (trim "'a' 'b, ".toList) :=
    ⟨["a".toList], "'a' ".toList, "b,".toList,
      .cons (by decide) hspace .nil, by decide, by decide⟩
  have hmany : ∀ negated, (Operation.member negated).arity = .many := fun _ => rfl
  constructor
  · exact ((ofEntry_quoted (hmany true) (by decide) (by decide) (by decide)).1 _).2 ⟨rfl, hlist⟩
  · exact ((ofEntry_quoted (hmany false) (by decide) (by decide) (by decide)).2 _).2
      (.inl ⟨by decide, hunfinished⟩)

end Validation

end FieldRules
