import FieldRules.Proofs.Source.Quoted
import FieldRules.Proofs.Text.Path
import FieldRules.Validator.Source
import Mathlib.Data.List.Forall2

/-!
# Tokens of expressions

The source of an expression falls into the tokens that its parts are written with (`lexes_source`),
whatever texts its constants are. The names in it only have to be plain: without the characters that
begin a literal or a comment, and without line breaks.
-/

namespace FieldRules

namespace Source

variable {s t u : String} {ts us : List Token}

/-! ### Plain texts -/

/-- A character that begins neither a literal nor a comment, and does not break the line. -/
def isPlain (c : Char) : Bool :=
  c != '"' && c != '\'' && c != '/' && c != '\n'

/-- A text of such characters. Names are plain, and so are paths of names. -/
def IsPlain (s : String) : Prop :=
  s.toList.all isPlain = true

instance (s : String) : Decidable (IsPlain s) :=
  inferInstanceAs (Decidable (s.toList.all isPlain = true))

/-- The tokens of a plain text. -/
def plainTokens (s : String) : List Token :=
  (tokens s).getD []

@[simp] theorem texts_flush (word : List Char) : texts (flush word) = [] := by
  cases word <;> rfl

theorem IsPlain.append (hs : IsPlain s) (ht : IsPlain t) : IsPlain (s ++ t) := by
  unfold IsPlain at hs ht ⊢
  rw [String.toList_append, List.all_append, hs, ht, Bool.and_self]

theorem IsPlain.intercalate (hs : IsPlain s) {ss : List String} (hss : ∀ t ∈ ss, IsPlain t) :
    IsPlain (s.intercalate ss) := by
  unfold IsPlain
  rw [String.toList_intercalate, List.all_eq_true]
  intro c hc
  rcases Text.mem_of_mem_intercalate hc with hc | ⟨cs, hcs, hc⟩
  · exact List.all_eq_true.1 hs c hc
  · obtain ⟨t, ht, rfl⟩ := List.mem_map.1 hcs
    exact List.all_eq_true.1 (hss t ht) c hc

theorem IsPlain.newline_notMem (h : IsPlain s) : '\n' ∉ s.toList :=
  fun hmem => absurd (List.all_eq_true.1 h _ hmem) (by decide)

/-- A plain character stays out of literals. -/
theorem step_code_of_isPlain {c : Char} (hc : isPlain c = true) (word : List Char) :
    ∃ word' ts, step (.code word) c = some (.code word', ts) ∧ texts ts = [] ∧
      (breaks c = true → word' = []) := by
  simp only [isPlain, Bool.and_eq_true, bne_iff_ne, ne_eq] at hc
  obtain ⟨⟨⟨hquote, happostrophe⟩, hslash⟩, -⟩ := hc
  simp only [step, if_neg hquote, if_neg happostrophe, if_neg hslash]
  split_ifs with hname
  · exact ⟨_, _, rfl, rfl, fun hbreaks => by simp [breaks, hname] at hbreaks⟩
  · exact ⟨_, _, rfl, texts_flush word, fun _ => rfl⟩
  · exact ⟨_, _, rfl, by simp, fun _ => rfl⟩

/-- A plain text has no literals, and its last character may end a word. -/
theorem reads_of_isPlain {cs : List Char} (h : cs.all isPlain = true) (word : List Char) :
    ∃ word' ts, Reads (.code word) cs (.code word') ts ∧ texts ts = [] ∧
      (cs.getLast?.any breaks = true → word' = []) := by
  induction cs generalizing word with
  | nil => exact ⟨word, [], .nil, rfl, nofun⟩
  | cons c cs ih =>
    rw [List.all_cons, Bool.and_eq_true] at h
    obtain ⟨word₁, ts, hstep, hts, hfirst⟩ := step_code_of_isPlain h.1 word
    obtain ⟨word₂, us, hread, hus, hlast⟩ := ih h.2 word₁
    refine ⟨word₂, ts ++ us, .cons hstep hread, by simp [hts, hus], ?_⟩
    cases cs with
    | nil =>
      cases hread
      simpa using hfirst
    | cons d cs => simpa [List.getLast?_cons_cons] using hlast

theorem IsPlain.exists_lexes (h : IsPlain s) :
    ∃ ts, Lexes s ts ∧ texts ts = [] ∧ (Closes s → Ends s ts) := by
  obtain ⟨word, ts, hread, hts, hword⟩ := reads_of_isPlain h []
  refine ⟨ts ++ flush word, ⟨word, ts, hread, rfl⟩, by simp [hts], ?_⟩
  intro hcloses
  cases hword hcloses
  exact (List.append_nil ts).symm ▸ hread

theorem plainTokens_eq (h : Lexes s ts) : plainTokens s = ts := by
  rw [plainTokens, h.tokens_eq, Option.getD_some]

theorem IsPlain.lexes (h : IsPlain s) : Lexes s (plainTokens s) := by
  obtain ⟨ts, hts, -, -⟩ := h.exists_lexes
  rwa [plainTokens_eq hts]

theorem IsPlain.ends (h : IsPlain s) (hcloses : Closes s) : Ends s (plainTokens s) := by
  obtain ⟨ts, hts, -, hends⟩ := h.exists_lexes
  rw [plainTokens_eq hts]
  exact hends hcloses

theorem IsPlain.texts_plainTokens (h : IsPlain s) : texts (plainTokens s) = [] := by
  obtain ⟨ts, hts, htexts, -⟩ := h.exists_lexes
  rwa [plainTokens_eq hts]

/-! ### Numbers are plain -/

variable {ds : List Char}

theorem isPlain_of_isDigit {c : Char} (h : c.isDigit = true) : isPlain c = true := by
  simp only [isPlain, Bool.and_eq_true, bne_iff_ne, ne_eq]
  refine ⟨⟨⟨?_, ?_⟩, ?_⟩, ?_⟩ <;> rintro rfl <;> cases h

theorem all_isPlain_digits (n : Nat) : (Numeral.digits n).all isPlain = true :=
  List.all_eq_true.2 fun _ hc => isPlain_of_isDigit (Numeral.isDigit_of_mem_digits hc)

theorem all_isPlain_integerText (n : Int) : (Numeral.integerText n).all isPlain = true := by
  unfold Numeral.integerText
  split_ifs
  · rw [List.all_cons, all_isPlain_digits]
    rfl
  · exact all_isPlain_digits _

theorem all_isPlain_significantDigits (digits : Nat) (power : Int) :
    (Double.significantDigits digits power).1.all isPlain = true := by
  rw [Double.significantDigits, List.all_reverse, List.all_eq_true]
  intro c hc
  exact List.all_eq_true.1 (all_isPlain_digits digits) c
    (List.mem_reverse.1 ((List.dropWhile_sublist _).mem hc))

theorem all_isPlain_take (h : ds.all isPlain = true) (n : Nat) :
    (ds.take n).all isPlain = true :=
  List.all_eq_true.2 fun c hc => List.all_eq_true.1 h c (List.mem_of_mem_take hc)

theorem all_isPlain_drop (h : ds.all isPlain = true) (n : Nat) :
    (ds.drop n).all isPlain = true :=
  List.all_eq_true.2 fun c hc => List.all_eq_true.1 h c (List.mem_of_mem_drop hc)

theorem all_isPlain_replicate (n : Nat) : (List.replicate n '0').all isPlain = true :=
  List.all_eq_true.2 fun _ hc => List.eq_of_mem_replicate hc ▸ rfl

theorem all_isPlain_positional (h : ds.all isPlain = true) (point : Int) :
    (Double.positional ds point).all isPlain = true := by
  have hpoint : isPlain '.' = true ∧ isPlain '0' = true := by decide
  unfold Double.positional
  split_ifs <;>
    simp [-List.all_replicate, h, hpoint, all_isPlain_replicate, all_isPlain_take,
      all_isPlain_drop]

theorem all_isPlain_scientific (h : ds.all isPlain = true) (exponent : Int) (signed : Bool) :
    (Double.scientific ds exponent signed).all isPlain = true := by
  have hmarks : isPlain '.' = true ∧ isPlain 'e' = true ∧ isPlain '-' = true ∧
      isPlain '+' = true := by decide
  unfold Double.scientific
  simp only [List.all_append, all_isPlain_take h, all_isPlain_digits, Bool.and_true]
  split_ifs <;> simp [-List.drop_one, hmarks, all_isPlain_drop h]

theorem all_isPlain_text (style : DecimalStyle) (x : Double) :
    (x.text style).all isPlain = true := by
  cases x with
  | notANumber => rfl
  | infinite negative => cases negative <;> rfl
  | finite negative mantissa exponent =>
    unfold Double.text
    have hsign : (if negative then ['-'] else []).all isPlain = true := by
      cases negative <;> decide
    rw [List.all_append, hsign, Bool.true_and]
    split_ifs
    · decide
    · dsimp only
      split_ifs
      · exact all_isPlain_positional (all_isPlain_significantDigits _ _) _
      · exact all_isPlain_scientific (all_isPlain_significantDigits _ _) _ _

theorem isPlain_ofList (h : ds.all isPlain = true) : IsPlain (String.ofList ds) := by
  rwa [IsPlain, String.toList_ofList]

end Source

open Source

/-! ### Names -/

/-- The names of a place. -/
def Place.names : Place → List String
  | .field path => path
  | .bound | .element => []

namespace Expr

mutual

/-- The names of the fields that an expression reads. -/
def names : Expr → List String
  | .const _ | .literal _ => []
  | .value place => place.names
  | .len e | .lower e | .asStr e | .widen _ e | .isEmail e | .not e | .inSet e _ => e.names
  | .compare _ lhs rhs => lhs.names ++ rhs.names
  | .connect _ terms => namesAll terms
  | .every collection _ body => collection.names ++ body.names
  | .someAnd option body => option.names ++ body.names

/-- The names of the fields that some expressions read. -/
def namesAll : List Expr → List String
  | [] => []
  | e :: es => e.names ++ namesAll es

end

end Expr

/-! ### Tokens of the parts -/

/-- The tokens of a constant. -/
def Literal.tokens : Literal → List Token
  | .text s => [.text s]
  | l => plainTokens l.source

/-- The tokens of a place. -/
def Place.tokens (place : Place) : List Token :=
  plainTokens place.source

/-- The tokens of a comparison. -/
def Comparison.tokens : Comparison → List Token
  | .eq => [.mark '=', .mark '=']
  | .ne => [.mark '!', .mark '=']
  | .gt => [.mark '>']
  | .ge => [.mark '>', .mark '=']
  | .lt => [.mark '<']
  | .le => [.mark '<', .mark '=']

/-- The tokens of a connective. -/
def Connective.tokens : Connective → List Token
  | .and => [.mark '&', .mark '&']
  | .or => [.mark '|', .mark '|']

namespace Expr

/-- The tokens of a call of the method, behind its receiver. -/
def callTokens (name : String) : List Token :=
  [.mark '.', .word name, .mark '(', .mark ')']

/-- The tokens of a call with a function of one argument, up to its body. -/
def closureTokens (name arg : String) : List Token :=
  [.mark '.', .word name, .mark '(', .mark '|', .word arg, .mark '|']

/-- Tokens in parentheses. -/
def parenthesisedTokens (ts : List Token) : List Token :=
  [.mark '('] ++ ts ++ [.mark ')']

/-- The tokens of the expression with tokens `ts` in front of a method call. -/
def receiverTokens (e : Expr) (ts : List Token) : List Token :=
  match e with
  | .value .bound => [.word "v"]
  | .value .element => [.word "e"]
  | .value (.field _) | .len _ | .lower _ | .asStr _ | .literal _ | .const _ => ts
  | _ => parenthesisedTokens ts

/-- The tokens of the expression with tokens `ts` as an operand. -/
def operandTokens (e : Expr) (ts : List Token) : List Token :=
  match e with
  | .compare .. | .connect .. | .not _ => parenthesisedTokens ts
  | _ => ts

/-- The tokens of a list of constants. -/
def setTokens (set : List Literal) : List Token :=
  [.mark '['] ++ [.mark ','].intercalate (set.map Literal.tokens) ++ [.mark ']']

mutual

/-- The tokens of an expression. -/
def tokens (support : String) : Expr → List Token
  | .const true => [.word "true"]
  | .const false => [.word "false"]
  | .value place => place.tokens
  | .literal l => l.tokens
  | .len inner => receiverTokens inner (tokens support inner) ++ callTokens "len"
  | .lower inner => receiverTokens inner (tokens support inner) ++ callTokens "to_lowercase"
  | .asStr inner => receiverTokens inner (tokens support inner) ++ callTokens "as_str"
  | .widen w inner =>
    parenthesisedTokens (tokens support inner ++ [.word "as", .word w.typeName])
  | .isEmail inner =>
    plainTokens (support ++ "::is_valid_email(&") ++ tokens support inner ++ [.mark ')']
  | .compare c lhs rhs =>
    operandTokens lhs (tokens support lhs) ++ c.tokens ++ operandTokens rhs (tokens support rhs)
  | .not inner => [.mark '!'] ++ operandTokens inner (tokens support inner)
  | .connect op terms => op.tokens.intercalate (operandsTokens support terms)
  | .inSet item set =>
    setTokens set ++ [.mark '.', .word "contains", .mark '(', .mark '&'] ++ tokens support item ++
      [.mark ')']
  | .every collection keys body =>
    receiverTokens collection (tokens support collection) ++
      callTokens (if keys then "keys" else "iter") ++ closureTokens "all" "e" ++
      tokens support body ++ [.mark ')']
  | .someAnd option body =>
    receiverTokens option (tokens support option) ++
      if body.isTrue then callTokens "is_some"
      else callTokens "as_ref" ++ closureTokens "is_some_and" "v" ++ tokens support body ++
        [.mark ')']

/-- The tokens of some operands. -/
def operandsTokens (support : String) : List Expr → List (List Token)
  | [] => []
  | e :: es => operandTokens e (tokens support e) :: operandsTokens support es

end

end Expr

namespace Source

open FieldRules.Expr

variable {s t u support : String} {ts us vs : List Token}

/-- Some parts with a separator between them. -/
theorem lexes_intercalate (hu : Ends u us) (hbreaks : Breaks u) {ss : List String}
    {tss : List (List Token)} (h : List.Forall₂ Lexes ss tss) :
    Lexes (u.intercalate ss) (us.intercalate tss) := by
  induction h with
  | nil => exact Ends.lexes rfl
  | @cons s ts ss tss hs hss ih =>
    cases hss with
    | nil => simpa [List.intercalate_singleton] using hs
    | cons =>
      rw [String.intercalate_cons_cons, List.intercalate_cons_cons]
      exact (hs.append_ends hbreaks hu).append ih

/-- A part between two others. -/
theorem Lexes.between (ht : Lexes t ts) (hs : Ends s us) (hbreaks : Breaks u) (hu : Lexes u vs) :
    Lexes (s ++ t ++ u) (us ++ ts ++ vs) :=
  (hs.append ht).append hbreaks hu

theorem lexes_parenthesised (h : Lexes s ts) : Lexes (parenthesised s) (parenthesisedTokens ts) :=
  h.between (s := "(") (u := ")") rfl (by decide) (Ends.lexes rfl)

theorem lexes_literal (l : Literal) : Lexes l.source l.tokens := by
  cases l with
  | text s => exact (ends_quoted s).lexes
  | int n => exact (isPlain_ofList (all_isPlain_integerText n)).lexes
  | unsigned n | size n => exact (isPlain_ofList (all_isPlain_digits n)).lexes
  | float x => exact (isPlain_ofList (all_isPlain_text _ x)).lexes
  | bool b => cases b <;> exact IsPlain.lexes (by decide)

theorem lexes_setSource (set : List Literal) : Lexes (setSource set) (setTokens set) := by
  have hlist : Lexes (", ".intercalate (set.map Literal.source))
      ([.mark ','].intercalate (set.map Literal.tokens)) := by
    refine lexes_intercalate (u := ", ") rfl (by decide) ?_
    rw [List.forall₂_map_left_iff, List.forall₂_map_right_iff]
    exact List.forall₂_same.2 fun l _ => lexes_literal l
  exact hlist.between (s := "[") (u := "]") rfl (by decide) (Ends.lexes rfl)

theorem isPlain_place {place : Place} (h : ∀ name ∈ place.names, IsPlain name) :
    IsPlain place.source := by
  cases place with
  | field path => exact IsPlain.append (by decide) (IsPlain.intercalate (by decide) h)
  | bound | element => decide

theorem lexes_place {place : Place} (h : ∀ name ∈ place.names, IsPlain name) :
    Lexes place.source place.tokens :=
  (isPlain_place h).lexes

theorem ends_symbol (c : Comparison) : Ends (" " ++ c.symbol ++ " ") c.tokens := by
  cases c <;> rfl

theorem ends_connective (op : Connective) : Ends (" " ++ op.symbol ++ " ") op.tokens := by
  cases op <;> rfl

theorem lexes_receiver (e : Expr) (h : Lexes s ts) :
    Lexes (receiver e s) (receiverTokens e ts) := by
  cases e with
  | value place =>
    cases place with
    | field => exact h
    | bound => exact lexes_word (s := "v") (by decide) (List.all_eq_true.1 rfl)
    | element => exact lexes_word (s := "e") (by decide) (List.all_eq_true.1 rfl)
  | const | literal | len | lower | asStr => exact h
  | widen | isEmail | compare | not | connect | inSet | every | someAnd =>
    exact lexes_parenthesised h

theorem lexes_operand (e : Expr) (h : Lexes s ts) : Lexes (operand e s) (operandTokens e ts) := by
  cases e with
  | compare | connect | not => exact lexes_parenthesised h
  | const | value | literal | len | lower | asStr | widen | isEmail | inSet | every | someAnd =>
    exact h

/-- A call with a function whose body is a part. -/
theorem lexes_closure (hs : Ends s ts) (ht : Lexes t us) :
    Lexes (s ++ t ++ ")") (ts ++ us ++ [.mark ')']) :=
  ht.between hs (u := ")") (by decide) (Ends.lexes rfl)

mutual

/-- **The source of an expression has the tokens of its parts.** -/
theorem lexes_source (hsupport : IsPlain support) :
    ∀ e : Expr, (∀ name ∈ e.names, IsPlain name) → Lexes (e.source support) (e.tokens support)
  | .const true, _ => lexes_word (s := "true") (by decide) (List.all_eq_true.1 rfl)
  | .const false, _ => lexes_word (s := "false") (by decide) (List.all_eq_true.1 rfl)
  | .value _, h => lexes_place h
  | .literal l, _ => lexes_literal l
  | .len e, h =>
    (lexes_receiver e (lexes_source hsupport e h)).append (t := ".len()") (by decide)
      (Ends.lexes rfl)
  | .lower e, h =>
    (lexes_receiver e (lexes_source hsupport e h)).append (t := ".to_lowercase()") (by decide)
      (Ends.lexes rfl)
  | .asStr e, h =>
    (lexes_receiver e (lexes_source hsupport e h)).append (t := ".as_str()") (by decide)
      (Ends.lexes rfl)
  | .widen w e, h => by
    have htype : Ends (" as " ++ w.typeName ++ ")") [.word "as", .word w.typeName, .mark ')'] := by
      cases w <;> rfl
    have hbreaks : Breaks (" as " ++ w.typeName ++ ")") := by cases w <;> decide
    have hopen : Ends "(" [.mark '('] := rfl
    have hall := (lexes_source hsupport e h).between hopen hbreaks htype.lexes
    simpa [source, Expr.tokens, parenthesisedTokens, ← String.append_assoc] using hall
  | .isEmail e, h => by
    have hhead : Ends (support ++ "::is_valid_email(&")
        (plainTokens (support ++ "::is_valid_email(&")) :=
      IsPlain.ends (hsupport.append (by decide)) (Closes.append (by decide) support)
    exact (lexes_source hsupport e h).between hhead (u := ")") (by decide) (Ends.lexes rfl)
  | .compare c lhs rhs, h => by
    obtain ⟨hlhs, hrhs⟩ := List.forall_mem_append.1 h
    have hbreaks : Breaks (" " ++ c.symbol ++ " ") := by cases c <;> decide
    have hhead := (lexes_operand lhs (lexes_source hsupport lhs hlhs)).append_ends hbreaks
      (ends_symbol c)
    have hall := hhead.append (lexes_operand rhs (lexes_source hsupport rhs hrhs))
    simpa only [source, Expr.tokens, ← String.append_assoc] using hall
  | .not e, h => Ends.append (s := "!") rfl (lexes_operand e (lexes_source hsupport e h))
  | .connect op terms, h =>
    lexes_intercalate (ends_connective op) (by cases op <;> decide)
      (lexes_operandSources hsupport terms h)
  | .inSet item set, h => by
    have hcall : Ends ".contains(&" [.mark '.', .word "contains", .mark '(', .mark '&'] := rfl
    have hhead := (lexes_setSource set).append_ends (by decide) hcall
    exact lexes_closure hhead (lexes_source hsupport item h)
  | .every collection keys body, h => by
    obtain ⟨hcollection, hbody⟩ := List.forall_mem_append.1 h
    have hcall : Ends ((if keys then ".keys()" else ".iter()") ++ ".all(|e| ")
        (callTokens (if keys then "keys" else "iter") ++ closureTokens "all" "e") := by
      cases keys <;> rfl
    have hbreaks : Breaks ((if keys then ".keys()" else ".iter()") ++ ".all(|e| ") := by
      cases keys <;> decide
    have hreceiver := lexes_receiver collection (lexes_source hsupport collection hcollection)
    have hhead := hreceiver.append_ends hbreaks hcall
    have hall := lexes_closure hhead (lexes_source hsupport body hbody)
    simpa only [source, Expr.tokens, ← String.append_assoc, ← List.append_assoc] using hall
  | .someAnd option body, h => by
    obtain ⟨hoption, hbody⟩ := List.forall_mem_append.1 h
    have hreceiver := lexes_receiver option (lexes_source hsupport option hoption)
    unfold source Expr.tokens
    split
    case isTrue => exact hreceiver.append (t := ".is_some()") (by decide) (Ends.lexes rfl)
    case isFalse =>
      have hcall : Ends ".as_ref().is_some_and(|v| "
          (callTokens "as_ref" ++ closureTokens "is_some_and" "v") := rfl
      have hhead := hreceiver.append_ends (by decide) hcall
      have hall := lexes_closure hhead (lexes_source hsupport body hbody)
      simpa only [← String.append_assoc, ← List.append_assoc] using hall

/-- The sources of some operands have their tokens. -/
theorem lexes_operandSources (hsupport : IsPlain support) :
    ∀ es : List Expr, (∀ name ∈ namesAll es, IsPlain name) →
      List.Forall₂ Lexes (operandSources support es) (operandsTokens support es)
  | [], _ => .nil
  | e :: es, h =>
    .cons (lexes_operand e (lexes_source hsupport e (List.forall_mem_append.1 h).1))
      (lexes_operandSources hsupport es (List.forall_mem_append.1 h).2)

end

end Source

end FieldRules
