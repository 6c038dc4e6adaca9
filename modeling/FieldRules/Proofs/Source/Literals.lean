import FieldRules.Proofs.Source.Tokens

/-!
# String literals of validators

User text cannot leave its string literal: the string literals of a validator's source are the texts
of its checks, in order, whatever characters these texts have (`literals_source`). Of the names that
stand in the source outside of literals, only the characters that could begin a literal or a comment
have to be excluded, and line breaks, as the name of the type stands in a comment.
-/

namespace FieldRules

open Source

/-! ### The texts of a validator -/

/-- The text of a constant, if it is one. -/
def Literal.texts : Literal → List String
  | .text s => [s]
  | _ => []

namespace Expr

mutual

/-- The texts of an expression, in the order in which they are written. -/
def texts : Expr → List String
  | .const _ | .value _ => []
  | .literal l => l.texts
  | .len e | .lower e | .asStr e | .widen _ e | .isEmail e | .not e => e.texts
  | .compare _ lhs rhs => lhs.texts ++ rhs.texts
  | .connect _ terms => textsAll terms
  | .inSet item set => set.flatMap Literal.texts ++ item.texts
  | .every collection _ body => collection.texts ++ body.texts
  | .someAnd option body => option.texts ++ body.texts

/-- The texts of some expressions, one after the other. -/
def textsAll : List Expr → List String
  | [] => []
  | e :: es => e.texts ++ textsAll es

end

end Expr

namespace Block

/-- The texts of a block, in the order in which they are written. -/
def texts : Block → List String
  | .check condition field message => condition.texts ++ [field, message]
  | .delegate .. => []

/-- The names that a block is written with outside of literals. -/
def names : Block → List String
  | .check condition _ _ => condition.names
  | .delegate field call _ => [field, call]

end Block

/-- The names that a validator is written with outside of literals. -/
def Validator.names (v : Validator) : List String :=
  v.typeName :: v.functionName :: v.blocks.flatMap Block.names

namespace Source

open FieldRules.Expr FieldRules.Validator

variable {s t support : String} {ts us : List Token}

/-! ### The texts of an expression -/

theorem texts_literal (l : Literal) : texts l.tokens = l.texts := by
  cases l with
  | text s => rfl
  | int n => exact (isPlain_ofList (all_isPlain_integerText n)).texts_plainTokens
  | unsigned n | size n => exact (isPlain_ofList (all_isPlain_digits n)).texts_plainTokens
  | float x => exact (isPlain_ofList (all_isPlain_text _ x)).texts_plainTokens
  | bool b => cases b <;> decide

/-- A separator without texts adds none. -/
theorem texts_intercalate (hts : texts ts = []) (tss : List (List Token)) :
    texts (ts.intercalate tss) = tss.flatMap texts := by
  induction tss with
  | nil => rfl
  | cons us tss ih =>
    cases tss with
    | nil => simp [List.intercalate_singleton]
    | cons =>
      rw [List.intercalate_cons_cons, texts_append, texts_append, hts, ih, List.append_nil]
      rfl

theorem texts_setTokens (set : List Literal) :
    texts (setTokens set) = set.flatMap Literal.texts := by
  have hcomma : texts [.mark ','] = [] := rfl
  simp [setTokens, texts_intercalate hcomma, List.flatMap_map, texts_literal]

theorem texts_parenthesisedTokens (ts : List Token) :
    texts (parenthesisedTokens ts) = texts ts := by
  simp [parenthesisedTokens]

theorem texts_receiverTokens {e : Expr} (h : texts ts = e.texts) :
    texts (receiverTokens e ts) = e.texts := by
  cases e with
  | value place => cases place <;> first | exact h | rfl
  | const | literal | len | lower | asStr => exact h
  | widen | isEmail | compare | not | connect | inSet | every | someAnd =>
    exact (texts_parenthesisedTokens ts).trans h

theorem texts_operandTokens {e : Expr} (h : texts ts = e.texts) :
    texts (operandTokens e ts) = e.texts := by
  cases e with
  | compare | connect | not => exact (texts_parenthesisedTokens ts).trans h
  | const | value | literal | len | lower | asStr | widen | isEmail | inSet | every | someAnd =>
    exact h

theorem texts_of_isTrue {e : Expr} (h : e.isTrue = true) : e.texts = [] := by
  unfold Expr.isTrue at h
  split at h
  · rfl
  · cases h

theorem texts_place {place : Place} (h : ∀ name ∈ place.names, IsPlain name) :
    texts place.tokens = [] :=
  (isPlain_place h).texts_plainTokens

theorem texts_comparison (c : Comparison) : texts c.tokens = [] := by
  cases c <;> rfl

theorem texts_connective (op : Connective) : texts op.tokens = [] := by
  cases op <;> rfl

mutual

/-- The texts of an expression are those of its tokens. -/
theorem texts_tokens (hsupport : IsPlain support) :
    ∀ e : Expr, (∀ name ∈ e.names, IsPlain name) → texts (e.tokens support) = e.texts
  | .const true, _ | .const false, _ => rfl
  | .value _, h => texts_place h
  | .literal l, _ => texts_literal l
  | .len e, h | .lower e, h | .asStr e, h => by
    have hreceiver := texts_receiverTokens (texts_tokens hsupport e h)
    simp [Expr.tokens, Expr.texts, callTokens, hreceiver]
  | .widen w e, h => by
    simp [Expr.tokens, Expr.texts, texts_parenthesisedTokens, texts_tokens hsupport e h]
  | .isEmail e, h => by
    have hhead : IsPlain (support ++ "::is_valid_email(&") := hsupport.append (by decide)
    simp [Expr.tokens, Expr.texts, hhead.texts_plainTokens, texts_tokens hsupport e h]
  | .compare c lhs rhs, h => by
    obtain ⟨hlhs, hrhs⟩ := List.forall_mem_append.1 h
    have hleft := texts_operandTokens (texts_tokens hsupport lhs hlhs)
    have hright := texts_operandTokens (texts_tokens hsupport rhs hrhs)
    simp [Expr.tokens, Expr.texts, texts_comparison, hleft, hright]
  | .not e, h => texts_operandTokens (texts_tokens hsupport e h)
  | .connect op terms, h => by
    simp [Expr.tokens, Expr.texts, texts_intercalate, texts_connective,
      texts_operandsTokens hsupport terms h]
  | .inSet item set, h => by
    simp [Expr.tokens, Expr.texts, texts_setTokens, texts_tokens hsupport item h]
  | .every collection keys body, h => by
    obtain ⟨hcollection, hbody⟩ := List.forall_mem_append.1 h
    have hreceiver := texts_receiverTokens (texts_tokens hsupport collection hcollection)
    simp [Expr.tokens, Expr.texts, callTokens, closureTokens, hreceiver,
      texts_tokens hsupport body hbody]
  | .someAnd option body, h => by
    obtain ⟨hoption, hbody⟩ := List.forall_mem_append.1 h
    have hreceiver := texts_receiverTokens (texts_tokens hsupport option hoption)
    rw [Expr.tokens, texts_append, hreceiver, Expr.texts]
    split
    case isTrue htrue => simp [callTokens, texts_of_isTrue htrue]
    case isFalse => simp [callTokens, closureTokens, texts_tokens hsupport body hbody]

/-- The texts of some operands are those of their tokens. -/
theorem texts_operandsTokens (hsupport : IsPlain support) :
    ∀ es : List Expr, (∀ name ∈ namesAll es, IsPlain name) →
      (operandsTokens support es).flatMap texts = textsAll es
  | [], _ => rfl
  | e :: es, h => by
    obtain ⟨hfirst, hrest⟩ := List.forall_mem_append.1 h
    rw [operandsTokens, List.flatMap_cons, texts_operandTokens (texts_tokens hsupport e hfirst),
      texts_operandsTokens hsupport es hrest]
    rfl

end

/-! ### The lines of a validator -/

/-- The end of a line ends a word. -/
theorem Lexes.line (h : Lexes s ts) : Ends (s ++ "\n") ts := by
  have hbreak : Ends "\n" [] := rfl
  simpa using h.append_ends (by decide) hbreak

/-- A line has the string literals. -/
def LineSpells (line : String) (ls : List String) : Prop :=
  ∃ ts, Ends (line ++ "\n") ts ∧ texts ts = ls

theorem Lexes.lineSpells (h : Lexes s ts) : LineSpells s (texts ts) :=
  ⟨ts, h.line, rfl⟩

theorem IsPlain.lineSpells (h : IsPlain s) : LineSpells s [] :=
  h.texts_plainTokens ▸ h.lexes.lineSpells

/-- Lines have the literals of each of them. -/
theorem ends_lines {ls : List String} {lss : List (List String)}
    (h : List.Forall₂ LineSpells ls lss) :
    ∃ ts, Ends (lines ls) ts ∧ texts ts = lss.flatten := by
  induction h with
  | nil => exact ⟨[], rfl, rfl⟩
  | cons hline _ ih =>
    obtain ⟨ts, hts, rfl⟩ := hline
    obtain ⟨us, hus, htexts⟩ := ih
    refine ⟨ts ++ us, ?_, by rw [texts_append, htexts, List.flatten_cons]⟩
    rw [lines, List.map_cons, String.join_cons]
    exact hts.append_ends hus

/-- A comment goes on to the end of its line. -/
theorem reads_comment {cs : List Char} (h : '\n' ∉ cs) : Reads .comment cs .comment [] := by
  induction cs with
  | nil => exact .nil
  | cons c cs ih =>
    obtain ⟨hc, hcs⟩ := List.ne_and_not_mem_of_not_mem_cons h
    exact .silent (by rw [step, if_neg hc.symm]) (ih hcs)

theorem lineSpells_comment (h : '\n' ∉ s.toList) : LineSpells ("//" ++ s) [] := by
  have hopen : Reads (.code []) "//".toList .comment [] := rfl
  have hclose : Reads .comment "\n".toList (.code []) [] := rfl
  refine ⟨[], ?_, rfl⟩
  rw [Ends, String.toList_append, String.toList_append]
  exact (hopen.append (reads_comment h)).append hclose

/-- Lines with some literals in all. -/
def LinesSpell (ls : List String) (texts : List String) : Prop :=
  ∃ lss, List.Forall₂ LineSpells ls lss ∧ lss.flatten = texts

theorem LinesSpell.append {ls ls' ks ks' : List String} (h : LinesSpell ls ks)
    (h' : LinesSpell ls' ks') : LinesSpell (ls ++ ls') (ks ++ ks') := by
  obtain ⟨lss, hlss, rfl⟩ := h
  obtain ⟨lss', hlss', rfl⟩ := h'
  exact ⟨lss ++ lss', List.rel_append hlss hlss', List.flatten_append⟩

theorem lineSpells_condition (hsupport : IsPlain support) {condition : Expr}
    (h : ∀ name ∈ condition.names, IsPlain name) :
    LineSpells ("    if !(" ++ condition.source support ++ ") \x7b") condition.texts := by
  have hopen : Ends "    if !(" [.word "if", .mark '!', .mark '('] := rfl
  have hclose : Ends ") \x7b" [.mark ')', .mark '\x7b'] := rfl
  have hline := (lexes_source hsupport condition h).between hopen (by decide) hclose.lexes
  have htexts := texts_tokens hsupport condition h
  simpa [htexts] using hline.lineSpells

theorem lineSpells_push (hsupport : IsPlain support) (field message : String) :
    LineSpells ("        errs.push(" ++ support ++ "::ValidationError::new(" ++ Text.quoted field ++
      ", " ++ Text.quoted message ++ "));") [field, message] := by
  have hhead : IsPlain ("        errs.push(" ++ support ++ "::ValidationError::new(") :=
    (IsPlain.append (by decide) hsupport).append (by decide)
  have hcomma : Ends ", " [.mark ','] := rfl
  have hclose : Lexes "));" [.mark ')', .mark ')', .mark ';'] := Ends.lexes rfl
  have hline := ((((hhead.ends (Closes.append (by decide) _)).append_ends
    (ends_quoted field)).append_ends hcomma).append_ends (ends_quoted message)).append hclose
  have htexts := hhead.texts_plainTokens
  simpa [htexts] using hline.lineSpells

/-- The lines of a block have its texts as literals. -/
theorem linesSpell_block (hsupport : IsPlain support) (block : Block)
    (h : ∀ name ∈ block.names, IsPlain name) :
    LinesSpell (blockLines support block) block.texts := by
  match block with
  | .check condition field message =>
    have hclose : LineSpells "    \x7d" [] := IsPlain.lineSpells (by decide)
    exact ⟨_, .cons (lineSpells_condition hsupport h)
      (.cons (lineSpells_push hsupport field message) (.cons hclose .nil)), rfl⟩
  | .delegate field call false =>
    obtain ⟨hfield, hcall⟩ : IsPlain field ∧ IsPlain call := by simpa [Block.names] using h
    have hline : IsPlain ("    errs.extend(" ++ call ++ "(&obj." ++ field ++ "));") :=
      (((IsPlain.append (by decide) hcall).append (by decide)).append hfield).append (by decide)
    exact ⟨_, .cons hline.lineSpells .nil, rfl⟩
  | .delegate field call true =>
    obtain ⟨hfield, hcall⟩ : IsPlain field ∧ IsPlain call := by simpa [Block.names] using h
    have hopen : IsPlain ("    if let Some(v) = &obj." ++ field ++ " \x7b") :=
      (IsPlain.append (by decide) hfield).append (by decide)
    have hextend : IsPlain ("        errs.extend(" ++ call ++ "(v));") :=
      (IsPlain.append (by decide) hcall).append (by decide)
    have hclose : LineSpells "    \x7d" [] := IsPlain.lineSpells (by decide)
    exact ⟨_, .cons hopen.lineSpells (.cons hextend.lineSpells (.cons hclose .nil)), rfl⟩

theorem linesSpell_blocks (hsupport : IsPlain support) {blocks : List Block}
    (h : ∀ name ∈ blocks.flatMap Block.names, IsPlain name) :
    LinesSpell (blocks.flatMap (blockLines support)) (blocks.flatMap Block.texts) := by
  induction blocks with
  | nil => exact ⟨[], .nil, rfl⟩
  | cons block blocks ih =>
    rw [List.flatMap_cons, List.forall_mem_append] at h
    rw [List.flatMap_cons, List.flatMap_cons]
    exact (linesSpell_block hsupport block h.1).append (ih h.2)

/-- The lines above the blocks have no literals. -/
theorem linesSpell_header (hsupport : IsPlain support) {v : Validator} (htype : IsPlain v.typeName)
    (hfunction : IsPlain v.functionName) :
    LinesSpell
      ["/// Checks the field annotations of `" ++ v.typeName ++ "`.",
        lintAttribute,
        "pub fn " ++ v.functionName ++ "(obj: &" ++ v.typeName ++ ") -> Vec<" ++ support ++
          "::ValidationError> \x7b",
        if v.blocks.isEmpty then "    let errs = Vec::new();" else "    let mut errs = Vec::new();"]
      [] := by
  have hcomment :
      LineSpells ("/// Checks the field annotations of `" ++ v.typeName ++ "`.") [] := by
    have hline : '\n' ∉ ("/ Checks the field annotations of `" ++ v.typeName ++ "`.").toList := by
      simpa using htype.newline_notMem
    have hslashes : "//" ++ "/ Checks the field annotations of `" =
        "/// Checks the field annotations of `" := by decide
    have hspells := lineSpells_comment hline
    rwa [← String.append_assoc, ← String.append_assoc, hslashes] at hspells
  have hattribute : LineSpells lintAttribute [] := IsPlain.lineSpells (by decide)
  have hsignature : IsPlain ("pub fn " ++ v.functionName ++ "(obj: &" ++ v.typeName ++
      ") -> Vec<" ++ support ++ "::ValidationError> \x7b") :=
    (((((IsPlain.append (by decide) hfunction).append (by decide)).append htype).append
      (by decide)).append hsupport).append (by decide)
  have herrs : IsPlain (if v.blocks.isEmpty then "    let errs = Vec::new();"
      else "    let mut errs = Vec::new();") := by
    split_ifs <;> decide
  exact ⟨_, .cons hcomment (.cons hattribute (.cons hsignature.lineSpells
    (.cons herrs.lineSpells .nil))), rfl⟩

/-- **User text cannot leave its string literal.** If the names of a validator and the path of its
support module have no quote, apostrophe, slash or line break, then every string literal of the
source is closed on its line, and the literals are, from left to right, the texts of the blocks: for
each check those of its condition, the field and the message, whatever characters they have. -/
theorem literals_source {support : String} {v : Validator}
    (h : ∀ name ∈ support :: v.names, IsPlain name) :
    (Source.tokens (v.source support)).map texts = some (v.blocks.flatMap Block.texts) := by
  obtain ⟨hsupport, htype, hfunction, hblocks⟩ :
      IsPlain support ∧ IsPlain v.typeName ∧ IsPlain v.functionName ∧
        ∀ name ∈ v.blocks.flatMap Block.names, IsPlain name := by
    simpa only [Validator.names, List.forall_mem_cons] using h
  have hfooter : LinesSpell ["    errs", "\x7d"] [] :=
    ⟨_, .cons (IsPlain.lineSpells (by decide)) (.cons (IsPlain.lineSpells (by decide)) .nil), rfl⟩
  obtain ⟨lss, hlss, htexts⟩ := ((linesSpell_header hsupport htype hfunction).append
    (linesSpell_blocks hsupport hblocks)).append hfooter
  obtain ⟨ts, hts, hflatten⟩ := ends_lines hlss
  rw [Validator.source, hts.lexes.tokens_eq, Option.map_some, hflatten, htexts, List.nil_append,
    List.append_nil]

/-- A validator whose texts look like the end of a literal, a comment and a line of source. -/
def guestValidator : Validator :=
  ⟨"Guest", "validate_guest",
    [.check (.every (.field ["tags"]) false (.not (.inSet (.asStr (.value .element))
        [.text "\");", .text "\\", .text "/* ' \\u\x7b41\x7d"]))) "tags" "line\r\none\x00\x07",
      .delegate "home" "crate::depot::validate_home" true,
      .check (.someAnd (.field ["mail"]) (.isEmail (.value .bound))) "mail" "\t\"é\u00ad\""]⟩

/-- None of them leaves its literal. -/
theorem guest_literals :
    (∀ name ∈ "crate::support" :: guestValidator.names, IsPlain name) ∧
    (Source.tokens (guestValidator.source "crate::support")).map texts =
      some ["\");", "\\", "/* ' \\u\x7b41\x7d", "tags", "line\r\none\x00\x07", "mail",
        "\t\"é\u00ad\""] := by
  have hnames : ∀ name ∈ "crate::support" :: guestValidator.names, IsPlain name := by decide
  exact ⟨hnames, literals_source hnames⟩

end Source

end FieldRules
