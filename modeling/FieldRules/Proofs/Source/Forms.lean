import FieldRules.Proofs.Source.Readback

/-!
# Forms of checks

A check is one of a few forms (`Body`), under a guard or not (`Check`). The tokens tell the forms
apart, and a check of any form is read back from its tokens part by part, so that two checks with
the same source are the same up to the kinds of their integer constants (`Check.source_eq_iff`).
-/

namespace FieldRules

namespace Source

open FieldRules.Expr

variable {support : String} {ts us x y : List Token} {m : Char}

/-! ### Forms of checks -/

/-- What a statement about the elements of a collection looks at. -/
inductive Item : Expr → Prop where
  /-- The element. -/
  | element : Item (.value .element)
  /-- The element as a borrowed text. -/
  | borrowed : Item (.asStr (.value .element))

/-- An expression or its opposite. -/
def negatedIf (negated : Bool) (e : Expr) : Expr :=
  if negated then .not e else e

/-- The check of a rule, apart from the guard of an optional field. -/
inductive Body : Expr → Prop where
  /-- One comparison. -/
  | comparison {c : Comparison} {L R : Expr} : LeftOperand L → RightOperand R →
      Body (.compare c L R)
  /-- Several comparisons of one left side with constants, joined. -/
  | connection {op : Connective} {c : Comparison} {L : Expr} {ls : List Literal} : LeftOperand L →
      (∀ l ∈ ls, IsExact l) → 2 ≤ ls.length →
      Body (.connect op (ls.map fun l => .compare c L (.literal l)))
  /-- The format of an email address. -/
  | email {V : Expr} : Subject V → Body (.isEmail V)
  /-- A statement about all elements and some constants. -/
  | statement {V item : Expr} {keys negated : Bool} {ls : List Literal} : Subject V → Item item →
      (∀ l ∈ ls, IsExact l) → ls ≠ [] →
      Body (.every V keys (negatedIf negated (.inSet item ls)))
  /-- The constant truth. -/
  | presence : Body (.const true)

/-- The check of a rule. -/
inductive Check : Expr → Prop where
  /-- On a field that is not optional. -/
  | bare {e : Expr} : Body e → Check e
  /-- Under the guard of an optional field. -/
  | guarded {name : String} {e : Expr} : IsName name → Body e →
      Check (.someAnd (.field [name]) e)

/-! ### Tokens of the forms -/

theorem tokens_comparison {c : Comparison} {L R : Expr} (hL : LeftOperand L) (hR : RightOperand R) :
    (Expr.compare c L R).tokens support =
      L.tokens support ++ (c.tokens ++ R.tokens support) := by
  have hright : ∀ ts, operandTokens R ts = ts := by
    rcases hR with _ | _ | _ <;> exact fun _ => rfl
  simp [Expr.tokens, hL.operandTokens_eq, hright]

theorem operandsTokens_eq_map (es : List Expr) :
    operandsTokens support es = es.map fun e => operandTokens e (e.tokens support) := by
  induction es with
  | nil => rfl
  | cons e es ih => rw [operandsTokens, ih, List.map_cons]

/-- The tokens of a comparison with a constant, in parentheses. -/
def termTokens (support : String) (c : Comparison) (L : Expr) (l : Literal) : List Token :=
  [.mark '('] ++ (L.tokens support ++ (c.tokens ++ l.tokens)) ++ [.mark ')']

theorem tokens_connection {op : Connective} {c : Comparison} {L : Expr} {ls : List Literal}
    (hL : LeftOperand L) (hls : ∀ l ∈ ls, IsExact l) :
    (Expr.connect op (ls.map fun l => .compare c L (.literal l))).tokens support =
      op.tokens.intercalate (ls.map (termTokens support c L)) := by
  rw [Expr.tokens, operandsTokens_eq_map, List.map_map]
  refine congrArg _ (List.map_congr_left fun l hl => ?_)
  have hterm := @tokens_comparison support c L _ hL (.constant (hls l hl))
  exact congrArg parenthesisedTokens hterm

/-- A path of names: what stands in front of a function of another module. -/
def IsPath (s : String) : Prop :=
  s.toList.all (fun c => isNameChar c || c == ':') = true

instance (s : String) : Decidable (IsPath s) :=
  inferInstanceAs (Decidable (s.toList.all (fun c => isNameChar c || c == ':') = true))

theorem IsPath.isPlain {s : String} (h : IsPath s) : IsPlain s := by
  refine List.all_eq_true.2 fun c hc => ?_
  have hname := List.all_eq_true.1 h c hc
  rw [Bool.or_eq_true, beq_iff_eq] at hname
  rcases hname with hname | rfl
  · exact isPlain_of_isNameChar hname
  · rfl

theorem tokens_email (h : IsPath support) (V : Expr) : (Expr.isEmail V).tokens support =
    plainTokens support ++ ([.mark ':', .mark ':', .word "is_valid_email", .mark '(', .mark '&'] ++
      (V.tokens support ++ [.mark ')'])) := by
  have hcall : Ends "::is_valid_email(&"
      [.mark ':', .mark ':', .word "is_valid_email", .mark '(', .mark '&'] := rfl
  have hhead := plainTokens_eq (h.isPlain.lexes.append_ends (by decide) hcall).lexes
  simp [Expr.tokens, hhead]

/-! ### Marks -/

theorem mark_notMem_flush (word : List Char) : .mark m ∉ flush word := by
  cases word <;> simp [flush]

/-- A mark is a character of the text, and none of a word. -/
theorem eq_of_mark_mem_step {mode mode' : Mode} {c : Char} (h : step mode c = some (mode', ts))
    (hm : .mark m ∈ ts) : m = c ∧ isNameChar c = false := by
  cases mode with
  | code word =>
    simp only [step] at h
    split_ifs at h with hname <;> cases h <;> simp_all [mark_notMem_flush]
  | literal text =>
    simp only [step] at h
    split_ifs at h <;> cases h <;> simp at hm
  | digits text count value =>
    simp only [step] at h
    split_ifs at h
    · cases h
      cases hm
    · obtain ⟨_, -, h⟩ := Option.map_eq_some_iff.1 h
      cases h
      cases hm
  | escape text =>
    simp only [step] at h
    split_ifs at h
    · cases h
      cases hm
    · obtain ⟨_, -, h⟩ := Option.map_eq_some_iff.1 h
      cases h
      cases hm
  | slash | comment | codePoint text =>
    simp only [step] at h
    split_ifs at h <;> cases h <;> cases hm

theorem mem_of_mark_mem {mode mode' : Mode} {cs : List Char} (h : Reads mode cs mode' ts)
    (hm : .mark m ∈ ts) : m ∈ cs ∧ isNameChar m = false := by
  induction cs generalizing mode ts with
  | nil =>
    cases h
    cases hm
  | cons c cs ih =>
    obtain ⟨mode₁, ts, us, hstep, hread, rfl⟩ := reads_cons_iff.1 h
    rcases List.mem_append.1 hm with hm | hm
    · obtain ⟨rfl, hname⟩ := eq_of_mark_mem_step hstep hm
      exact ⟨List.mem_cons_self, hname⟩
    · exact ⟨List.mem_cons_of_mem c (ih hread hm).1, (ih hread hm).2⟩

/-- The only marks of a path are colons. -/
theorem IsPath.eq_of_mark_mem (h : IsPath support) (hm : .mark m ∈ plainTokens support) :
    m = ':' := by
  obtain ⟨word, ts, hread, hts⟩ := h.isPlain.lexes
  rw [← hts, List.mem_append, or_iff_left (mark_notMem_flush word)] at hm
  obtain ⟨hmem, hname⟩ := mem_of_mark_mem hread hm
  simpa [hname] using List.all_eq_true.1 h m hmem

/-! ### What the first tokens tell -/

/-- Neither of the first two tokens of a check of the format is a mark other than a colon. -/
theorem email_head (h : IsPath support) (V : Expr) : ∃ t u ts,
    (Expr.isEmail V).tokens support = t :: u :: ts ∧ (∀ m, t = .mark m → m = ':') ∧
      ∀ m, u = .mark m → m = ':' := by
  have hmarks : ∀ t ∈ plainTokens support, ∀ m, t = .mark m → m = ':' := by
    rintro _ ht m rfl
    exact h.eq_of_mark_mem ht
  rw [tokens_email h]
  generalize plainTokens support = path at hmarks ⊢
  match path, hmarks with
  | [], _ => exact ⟨_, _, _, rfl, by simp, by simp⟩
  | [t], hmarks => exact ⟨t, _, _, rfl, hmarks t List.mem_cons_self, by simp⟩
  | t :: u :: path, hmarks =>
    exact ⟨t, u, _, rfl, hmarks t List.mem_cons_self,
      hmarks u (List.mem_cons_of_mem t List.mem_cons_self)⟩

/-- A call on the value that a check is about is read back. -/
theorem receiver_cancel {V V' : Expr} (hV : Subject V) (hV' : Subject V') {w w' : String}
    (h : receiverTokens V (V.tokens support) ++ .mark '.' :: .word w :: x =
      receiverTokens V' (V'.tokens support) ++ .mark '.' :: .word w' :: y) :
    V = V' ∧ w = w' ∧ x = y := by
  rcases hV with ⟨hn⟩ | _ <;> rcases hV' with ⟨hn'⟩ | _ <;>
    simp_all [Expr.tokens, Expr.field, receiverTokens, tokens_name]

/-- A comparison calls no other methods than its left side does. -/
theorem left_ne_receiver {L V : Expr} (hL : LeftOperand L) (hV : Subject V) {w : String}
    (hm : m ≠ '.') (hlen : w ≠ "len") (hlower : w ≠ "to_lowercase") :
    L.tokens support ++ .mark m :: x ≠
      receiverTokens V (V.tokens support) ++ .mark '.' :: .word w :: y := by
  have hlen' := hlen.symm
  have hlower' := hlower.symm
  rcases hL with ⟨hV'⟩ | ⟨hV'⟩ | ⟨hV'⟩ | ⟨hV'⟩ <;> rcases hV' with ⟨hn'⟩ | _ <;>
    rcases hV with ⟨hn⟩ | _ <;>
    simp_all [Expr.tokens, Expr.field, receiverTokens, callTokens, parenthesisedTokens, tokens_name,
      tokens_bound]

/-- A comparison is not a term in parentheses. -/
theorem left_ne_parenthesised {L L' : Expr} (hL : LeftOperand L) (hL' : LeftOperand L') {m' : Char}
    (hm' : m' ≠ '.') :
    L.tokens support ++ x ≠ .mark '(' :: (L'.tokens support ++ .mark m' :: y) := by
  have hm'' := hm'.symm
  rcases hL with ⟨hV⟩ | ⟨hV⟩ | ⟨hV⟩ | ⟨hV⟩ <;> rcases hL' with ⟨hV'⟩ | ⟨hV'⟩ | ⟨hV'⟩ | ⟨hV'⟩ <;>
    rcases hV with ⟨hn⟩ | _ <;> rcases hV' with ⟨hn'⟩ | _ <;>
    simp_all [Expr.tokens, Expr.field, receiverTokens, callTokens, parenthesisedTokens, tokens_name,
      tokens_bound]

/-! ### Bodies of one form -/

theorem comparison_cancel_right {c c' : Comparison} {L L' R R' : Expr} (hL : LeftOperand L)
    (hL' : LeftOperand L') (hR : RightOperand R) (hR' : RightOperand R')
    (h : (Expr.compare c L R).tokens support = (Expr.compare c' L' R').tokens support) :
    (Expr.compare c L R).unkinded = (Expr.compare c' L' R').unkinded := by
  rw [tokens_comparison hL hR, tokens_comparison hL' hR'] at h
  obtain ⟨rfl, rfl, hright⟩ := compare_cancel hL hL' hR.head?_tokens hR'.head?_tokens h
  rw [unkinded, unkinded, right_cancel hR hR' hright]

/-- A term of a connection is read back. -/
theorem term_cancel {c c' : Comparison} {L L' : Expr} {l l' : Literal} (hL : LeftOperand L)
    (hL' : LeftOperand L') (hl : IsExact l) (hl' : IsExact l')
    (h : termTokens support c L l ++ x = termTokens support c' L' l' ++ y) :
    L = L' ∧ c = c' ∧ l.unkinded = l'.unkinded ∧ x = y := by
  simp only [termTokens, List.append_assoc] at h
  have hcompare := List.append_cancel_left h
  obtain ⟨rfl, rfl, hconstant⟩ :=
    compare_cancel hL hL' (by exact head?_constant_tokens hl) (by exact head?_constant_tokens hl')
      hcompare
  obtain ⟨hunkinded, hx⟩ := constant_cancel hl hl' hconstant
  exact ⟨rfl, rfl, hunkinded, List.append_cancel_left hx⟩

theorem connective_cancel {op op' : Connective} (h : op.tokens ++ x = op'.tokens ++ y) :
    op = op' := by
  cases op <;> cases op' <;> simp_all [Connective.tokens]

theorem unkinded_connection {op : Connective} {c : Comparison} {L : Expr} {ls : List Literal} :
    (Expr.connect op (ls.map fun l => .compare c L (.literal l))).unkinded =
      .connect op ((ls.map Literal.unkinded).map fun l => .compare c L.unkinded (.literal l)) := by
  rw [unkinded, unkindedAll_eq_map, List.map_map, List.map_map]
  rfl

theorem connection_cancel {op op' : Connective} {c c' : Comparison} {L L' : Expr}
    {ls ls' : List Literal} (hL : LeftOperand L) (hL' : LeftOperand L') (hls : ∀ l ∈ ls, IsExact l)
    (hls' : ∀ l ∈ ls', IsExact l) (hlength : 2 ≤ ls.length) (hlength' : 2 ≤ ls'.length)
    (h : (Expr.connect op (ls.map fun l => .compare c L (.literal l))).tokens support =
      (Expr.connect op' (ls'.map fun l => .compare c' L' (.literal l))).tokens support) :
    (Expr.connect op (ls.map fun l => .compare c L (.literal l))).unkinded =
      (Expr.connect op' (ls'.map fun l => .compare c' L' (.literal l))).unkinded := by
  rw [tokens_connection hL hls, tokens_connection hL' hls'] at h
  -- The first terms and what joins them to the second ones agree.
  have hfirst : L = L' ∧ c = c' ∧ op = op' := by
    match ls, ls', hlength, hlength' with
    | l :: _ :: _, l' :: _ :: _, _, _ =>
      simp only [List.map_cons, List.intercalate_cons_cons, List.append_assoc] at h
      obtain ⟨hleft, hc, -, hrest⟩ := term_cancel hL hL' (hls l List.mem_cons_self)
        (hls' l' List.mem_cons_self) h
      exact ⟨hleft, hc, connective_cancel hrest⟩
  obtain ⟨rfl, rfl, rfl⟩ := hfirst
  have hterms : ls.map Literal.unkinded = ls'.map Literal.unkinded := by
    obtain ⟨sep, rest, hsep⟩ : ∃ sep rest, op.tokens = sep :: rest := by
      cases op <;> exact ⟨_, _, rfl⟩
    have hne : ls ≠ [] ∧ ls' ≠ [] := by
      constructor <;> rintro rfl <;> simp_all
    have hcancel := @intercalate_cancel [] [] _ _ (termTokens support c L) Literal.unkinded IsExact
      (fun ha hb hab => (term_cancel hL hL ha hb hab).2.2) sep rest (by simp) (by simp) ls ls' hls
      hls' hne.1 hne.2
    rw [hsep] at h
    exact (hcancel (by simpa using h)).1
  rw [unkinded_connection, unkinded_connection, hterms]

theorem email_cancel (hsupport : IsPath support) {V V' : Expr} (hV : Subject V) (hV' : Subject V')
    (h : (Expr.isEmail V).tokens support = (Expr.isEmail V').tokens support) : V = V' := by
  rw [tokens_email hsupport, tokens_email hsupport] at h
  have hsubject := List.append_cancel_right (List.append_cancel_left (List.append_cancel_left h))
  rcases hV with ⟨hn⟩ | _ <;> rcases hV' with ⟨hn'⟩ | _ <;>
    simp_all [Expr.tokens, Expr.field, tokens_name, tokens_bound]

/-- The tokens of a statement, behind the method that it begins with. -/
theorem tokens_statement (V body : Expr) (keys : Bool) : (Expr.every V keys body).tokens support =
    receiverTokens V (V.tokens support) ++ .mark '.' :: .word (if keys then "keys" else "iter") ::
      ([.mark '(', .mark ')'] ++ closureTokens "all" "e" ++ body.tokens support ++
        [.mark ')']) := by
  simp [Expr.tokens, callTokens]

theorem item_cancel {item item' : Expr} (hitem : Item item) (hitem' : Item item')
    (h : item.tokens support = item'.tokens support) : item = item' := by
  cases hitem <;> cases hitem' <;>
    simp_all [Expr.tokens, receiverTokens, callTokens, tokens_element]

/-- A membership is read back, up to the kinds of its constants. -/
theorem membership_cancel {item item' : Expr} {negated negated' : Bool} {ls ls' : List Literal}
    (hitem : Item item) (hitem' : Item item') (hls : ∀ l ∈ ls, IsExact l)
    (hls' : ∀ l ∈ ls', IsExact l) (hne : ls ≠ []) (hne' : ls' ≠ [])
    (h : (negatedIf negated (.inSet item ls)).tokens support =
      (negatedIf negated' (.inSet item' ls')).tokens support) :
    (negatedIf negated (.inSet item ls)).unkinded =
      (negatedIf negated' (.inSet item' ls')).unkinded := by
  have hset : (Expr.inSet item ls).tokens support = (Expr.inSet item' ls').tokens support →
      (Expr.inSet item ls).unkinded = (Expr.inSet item' ls').unkinded := by
    intro h
    simp only [Expr.tokens, List.append_assoc] at h
    obtain ⟨hmap, hrest⟩ := set_cancel hls hls' hne hne' h
    obtain rfl := item_cancel hitem hitem'
      (List.append_cancel_right (List.append_cancel_left hrest))
    rw [unkinded, unkinded, hmap]
  have hfirst : ∀ item ls, ∃ ts, (Expr.inSet item ls).tokens support = .mark '[' :: ts :=
    fun _ _ => ⟨_, rfl⟩
  obtain ⟨ts, hts⟩ := hfirst item ls
  obtain ⟨ts', hts'⟩ := hfirst item' ls'
  cases negated <;> cases negated'
  · exact hset h
  · cases hts.symm.trans h
  · cases hts'.symm.trans h.symm
  · exact congrArg Expr.not (hset (List.cons_eq_cons.1 h).2)

theorem statement_cancel {V V' body body' : Expr} {keys keys' : Bool} (hV : Subject V)
    (hV' : Subject V')
    (h : (Expr.every V keys body).tokens support = (Expr.every V' keys' body').tokens support) :
    V = V' ∧ keys = keys' ∧ body.tokens support = body'.tokens support := by
  rw [tokens_statement, tokens_statement] at h
  obtain ⟨rfl, hmethod, hrest⟩ := receiver_cancel hV hV' h
  refine ⟨rfl, ?_, List.append_cancel_left (List.append_cancel_right hrest)⟩
  cases keys <;> cases keys' <;> first | rfl | exact absurd hmethod (by decide)

/-! ### Bodies of different forms -/

/-- How the tokens of a body begin, unless it is the constant truth or a check of the format. -/
def Begins (ts : List Token) : Prop :=
  (∃ us, ts = .mark '(' :: us) ∨ (∃ us, ts = .mark '*' :: us) ∨
    ∃ w us, ts = .word w :: .mark '.' :: us

theorem Begins.append (h : Begins ts) (us : List Token) : Begins (ts ++ us) := by
  rcases h with ⟨_, rfl⟩ | ⟨_, rfl⟩ | ⟨_, _, rfl⟩
  · exact .inl ⟨_, rfl⟩
  · exact .inr (.inl ⟨_, rfl⟩)
  · exact .inr (.inr ⟨_, _, rfl⟩)

theorem begins_left {L : Expr} (hL : LeftOperand L) : Begins (L.tokens support) := by
  rcases hL with ⟨⟨hn⟩ | _⟩ | ⟨⟨hn⟩ | _⟩ | ⟨⟨hn⟩ | _⟩ | ⟨⟨hn⟩ | _⟩ <;>
    simp_all [Begins, Expr.tokens, Expr.field, receiverTokens, callTokens, parenthesisedTokens,
      tokens_name, tokens_bound]

theorem begins_comparison {c : Comparison} {L R : Expr} (hL : LeftOperand L) (hR : RightOperand R) :
    Begins ((Expr.compare c L R).tokens support) := by
  rw [tokens_comparison hL hR]
  exact (begins_left hL).append _

/-- The tokens of a connection begin with a term in parentheses. -/
theorem exists_connection_eq {op : Connective} {c : Comparison} {L : Expr} {ls : List Literal}
    (hL : LeftOperand L) (hls : ∀ l ∈ ls, IsExact l) (hlength : 2 ≤ ls.length) :
    ∃ ts, (Expr.connect op (ls.map fun l => .compare c L (.literal l))).tokens support =
      .mark '(' :: (L.tokens support ++ (c.tokens ++ ts)) := by
  rw [tokens_connection hL hls]
  match ls, hlength with
  | _ :: _ :: _, _ =>
    simp only [List.map_cons, List.intercalate_cons_cons, termTokens, List.append_assoc]
    exact ⟨_, rfl⟩

theorem begins_connection {op : Connective} {c : Comparison} {L : Expr} {ls : List Literal}
    (hL : LeftOperand L) (hls : ∀ l ∈ ls, IsExact l) (hlength : 2 ≤ ls.length) :
    Begins ((Expr.connect op (ls.map fun l => .compare c L (.literal l))).tokens support) := by
  obtain ⟨ts, hts⟩ := @exists_connection_eq support op c L ls hL hls hlength
  exact .inl ⟨_, hts⟩

theorem begins_statement {V body : Expr} {keys : Bool} (hV : Subject V) :
    Begins ((Expr.every V keys body).tokens support) := by
  rw [tokens_statement]
  rcases hV with ⟨hn⟩ | _ <;>
    simp_all [Begins, Expr.tokens, Expr.field, receiverTokens, tokens_name]

theorem not_begins_email (hsupport : IsPath support) (V : Expr) :
    ¬ Begins ((Expr.isEmail V).tokens support) := by
  obtain ⟨t, u, ts, hts, ht, hu⟩ := email_head hsupport V
  rw [hts]
  rintro (⟨_, h⟩ | ⟨_, h⟩ | ⟨_, _, h⟩)
  · exact absurd (ht _ (List.cons_eq_cons.1 h).1) (by decide)
  · exact absurd (ht _ (List.cons_eq_cons.1 h).1) (by decide)
  · exact absurd (hu _ (List.cons_eq_cons.1 (List.cons_eq_cons.1 h).2).1) (by decide)

theorem not_begins_presence : ¬ Begins ((Expr.const true).tokens support) := by
  rintro (⟨_, h⟩ | ⟨_, h⟩ | ⟨_, _, h⟩) <;> cases h

theorem email_ne_presence (hsupport : IsPath support) (V : Expr) :
    (Expr.isEmail V).tokens support ≠ (Expr.const true).tokens support := by
  obtain ⟨t, u, ts, hts, -, -⟩ := email_head hsupport V
  rw [hts]
  exact nofun

theorem comparison_ne_connection {op : Connective} {c c' : Comparison} {L L' R : Expr}
    {ls : List Literal} (hL : LeftOperand L) (hR : RightOperand R) (hL' : LeftOperand L')
    (hls : ∀ l ∈ ls, IsExact l) (hlength : 2 ≤ ls.length) :
    (Expr.compare c L R).tokens support ≠
      (Expr.connect op (ls.map fun l => .compare c' L' (.literal l))).tokens support := by
  obtain ⟨ts, hts⟩ := @exists_connection_eq support op c' L' ls hL' hls hlength
  obtain ⟨m, us, hus, hm⟩ := exists_comparison_tokens c'
  rw [tokens_comparison hL hR, hts, hus]
  exact left_ne_parenthesised hL hL' hm

theorem comparison_ne_receiver {c : Comparison} {L R V : Expr} (hL : LeftOperand L)
    (hR : RightOperand R) (hV : Subject V) {w : String} (hlen : w ≠ "len") (hlower : w ≠ "to_lowercase") :
    (Expr.compare c L R).tokens support ≠
      receiverTokens V (V.tokens support) ++ .mark '.' :: .word w :: x := by
  obtain ⟨m, us, hus, hm⟩ := exists_comparison_tokens c
  rw [tokens_comparison hL hR, hus]
  exact left_ne_receiver hL hV hm hlen hlower

theorem connection_ne_receiver {op : Connective} {c : Comparison} {L V : Expr} {ls : List Literal}
    (hL : LeftOperand L) (hls : ∀ l ∈ ls, IsExact l) (hlength : 2 ≤ ls.length) (hV : Subject V) :
    (Expr.connect op (ls.map fun l => .compare c L (.literal l))).tokens support ≠
      receiverTokens V (V.tokens support) ++ x := by
  obtain ⟨ts, hts⟩ := @exists_connection_eq support op c L ls hL hls hlength
  rw [hts]
  cases hV with
  | field hn => simp [Expr.tokens, Expr.field, receiverTokens, tokens_name hn]
  | bound => simp [receiverTokens]

/-- Two bodies with the same tokens are the same, up to the kinds of their constants. -/
theorem Body.cancel (hsupport : IsPath support) {e e' : Expr} (he : Body e) (he' : Body e')
    (h : e.tokens support = e'.tokens support) : e.unkinded = e'.unkinded := by
  rcases he with ⟨hL, hR⟩ | ⟨hL, hls, hlength⟩ | ⟨hV⟩ | ⟨hV, hitem, hls, hne⟩ | _ <;>
    rcases he' with ⟨hL', hR'⟩ | ⟨hL', hls', hlength'⟩ | ⟨hV'⟩ | ⟨hV', hitem', hls', hne'⟩ | _
  case comparison.comparison => exact comparison_cancel_right hL hL' hR hR' h
  case connection.connection => exact connection_cancel hL hL' hls hls' hlength hlength' h
  case email.email => rw [email_cancel hsupport hV hV' h]
  case statement.statement =>
    obtain ⟨rfl, rfl, hbody⟩ := statement_cancel hV hV' h
    rw [unkinded, unkinded, membership_cancel hitem hitem' hls hls' hne hne' hbody]
  case presence.presence => rfl
  case comparison.connection => exact absurd h (comparison_ne_connection hL hR hL' hls' hlength')
  case connection.comparison =>
    exact absurd h.symm (comparison_ne_connection hL' hR' hL hls hlength)
  case comparison.statement keys' _ _ =>
    rw [tokens_statement] at h
    exact absurd h (comparison_ne_receiver hL hR hV' (by split <;> decide) (by split <;> decide))
  case statement.comparison =>
    rw [tokens_statement] at h
    exact absurd h.symm
      (comparison_ne_receiver hL' hR' hV (by split <;> decide) (by split <;> decide))
  case connection.statement =>
    rw [tokens_statement] at h
    exact absurd h (connection_ne_receiver hL hls hlength hV')
  case statement.connection =>
    rw [tokens_statement] at h
    exact absurd h.symm (connection_ne_receiver hL' hls' hlength' hV)
  -- Neither a check of the format nor the constant truth begins like any other form.
  case comparison.email =>
    exact absurd (h ▸ begins_comparison hL hR) (not_begins_email hsupport _)
  case connection.email =>
    exact absurd (h ▸ begins_connection hL hls hlength) (not_begins_email hsupport _)
  case statement.email => exact absurd (h ▸ begins_statement hV) (not_begins_email hsupport _)
  case email.comparison =>
    exact absurd (h ▸ begins_comparison hL' hR') (not_begins_email hsupport _)
  case email.connection =>
    exact absurd (h ▸ begins_connection hL' hls' hlength') (not_begins_email hsupport _)
  case email.statement => exact absurd (h ▸ begins_statement hV') (not_begins_email hsupport _)
  case comparison.presence => exact absurd (h ▸ begins_comparison hL hR) not_begins_presence
  case connection.presence =>
    exact absurd (h ▸ begins_connection hL hls hlength) not_begins_presence
  case statement.presence => exact absurd (h ▸ begins_statement hV) not_begins_presence
  case presence.comparison => exact absurd (h ▸ begins_comparison hL' hR') not_begins_presence
  case presence.connection =>
    exact absurd (h ▸ begins_connection hL' hls' hlength') not_begins_presence
  case presence.statement => exact absurd (h ▸ begins_statement hV') not_begins_presence
  case email.presence => exact absurd h (email_ne_presence hsupport _)
  case presence.email => exact absurd h.symm (email_ne_presence hsupport _)

/-! ### Guards -/

/-- A guard is a call on the field that it guards. -/
def guardTokens (support name w : String) : List Token :=
  receiverTokens (.field [name]) ((Expr.field [name]).tokens support) ++ [.mark '.', .word w]

theorem begins_guard {name w : String} (hname : IsName name) :
    Begins (guardTokens support name w ++ x) := by
  simp [Begins, guardTokens, Expr.tokens, Expr.field, receiverTokens, tokens_name hname]

/-- A body does not begin like a guard. -/
theorem Body.ne_guard (hsupport : IsPath support) {e : Expr} (he : Body e) {name w : String}
    (hname : IsName name) (hw : w = "is_some" ∨ w = "as_ref") :
    e.tokens support ≠ guardTokens support name w ++ x := by
  intro h
  have hcall : e.tokens support = receiverTokens (.field [name])
      ((Expr.field [name]).tokens support) ++ .mark '.' :: .word w :: x := by
    rw [h, guardTokens, List.append_assoc]
    rfl
  cases he with
  | comparison hL hR =>
    refine absurd hcall (comparison_ne_receiver hL hR (.field hname) ?_ ?_) <;>
      rcases hw with rfl | rfl <;> decide
  | connection hL hls hlength =>
    exact absurd hcall (connection_ne_receiver hL hls hlength (.field hname))
  | email hV => exact not_begins_email hsupport _ (h ▸ begins_guard hname)
  | @statement _ _ keys _ _ hV =>
    rw [tokens_statement] at hcall
    have hmethod := (receiver_cancel hV (.field hname) hcall).2.1
    rcases hw with rfl | rfl <;> cases keys <;> exact absurd hmethod (by decide)
  | presence => exact not_begins_presence (h ▸ begins_guard hname)

theorem eq_of_isTrue {e : Expr} (h : e.isTrue = true) : e = .const true := by
  unfold Expr.isTrue at h
  split at h
  · rfl
  · cases h

/-- The tokens under a guard. -/
theorem tokens_guarded (name : String) (e : Expr) :
    (Expr.someAnd (.field [name]) e).tokens support =
      if e.isTrue then guardTokens support name "is_some" ++ [.mark '(', .mark ')']
      else guardTokens support name "as_ref" ++ ([.mark '(', .mark ')'] ++
        closureTokens "is_some_and" "v" ++ e.tokens support ++ [.mark ')']) := by
  rw [Expr.tokens]
  split_ifs <;> simp [guardTokens, callTokens]

theorem guard_cancel {name name' w w' : String} (hname : IsName name) (hname' : IsName name')
    (h : guardTokens support name w ++ x = guardTokens support name' w' ++ y) :
    name = name' ∧ w = w' ∧ x = y := by
  simp only [guardTokens, List.append_assoc] at h
  obtain ⟨hfield, hmethod, hrest⟩ := receiver_cancel (.field hname) (.field hname') h
  exact ⟨by simpa [Expr.field] using hfield, hmethod, hrest⟩

theorem guarded_cancel (hsupport : IsPath support) {name name' : String} {e e' : Expr}
    (hname : IsName name) (hname' : IsName name') (he : Body e) (he' : Body e')
    (h : (Expr.someAnd (.field [name]) e).tokens support =
      (Expr.someAnd (.field [name']) e').tokens support) :
    name = name' ∧ e.unkinded = e'.unkinded := by
  rw [tokens_guarded, tokens_guarded] at h
  split_ifs at h with htrue htrue' htrue'
  · obtain ⟨rfl, -, -⟩ := guard_cancel hname hname' h
    rw [eq_of_isTrue htrue, eq_of_isTrue htrue']
    exact ⟨rfl, rfl⟩
  · exact absurd (guard_cancel hname hname' h).2.1 (by decide)
  · exact absurd (guard_cancel hname hname' h).2.1 (by decide)
  · obtain ⟨rfl, -, hbody⟩ := guard_cancel hname hname' h
    exact ⟨rfl, he.cancel hsupport he' (List.append_cancel_left (List.append_cancel_right hbody))⟩

theorem bare_ne_guarded (hsupport : IsPath support) {name : String} {e e' : Expr} (he : Body e)
    (hname : IsName name) :
    e.tokens support ≠ (Expr.someAnd (.field [name]) e').tokens support := by
  rw [tokens_guarded]
  split_ifs
  · exact he.ne_guard hsupport hname (.inl rfl)
  · exact he.ne_guard hsupport hname (.inr rfl)

/-- Two checks with the same tokens are the same, up to the kinds of their constants. -/
theorem Check.cancel (hsupport : IsPath support) {e e' : Expr} (he : Check e) (he' : Check e')
    (h : e.tokens support = e'.tokens support) : e.unkinded = e'.unkinded := by
  cases he with
  | bare he =>
    cases he' with
    | bare he' => exact he.cancel hsupport he' h
    | guarded hname he' => exact absurd h (bare_ne_guarded hsupport he hname)
  | guarded hname he =>
    cases he' with
    | bare he' => exact absurd h.symm (bare_ne_guarded hsupport he' hname)
    | guarded hname' he' =>
      obtain ⟨rfl, hunkinded⟩ := guarded_cancel hsupport hname hname' he he' h
      rw [unkinded, unkinded, hunkinded]

/-! ### Names of checks -/

theorem Subject.isName {V : Expr} (hV : Subject V) : ∀ name ∈ V.names, IsName name := by
  cases hV with
  | field hn => exact List.forall_mem_singleton.2 hn
  | bound => exact List.forall_mem_nil _

theorem LeftOperand.isName {L : Expr} (hL : LeftOperand L) : ∀ name ∈ L.names, IsName name := by
  cases hL with
  | value hV | len hV | lower hV | widen hV => exact hV.isName

theorem RightOperand.isName {R : Expr} (hR : RightOperand R) : ∀ name ∈ R.names, IsName name := by
  cases hR with
  | constant => exact List.forall_mem_nil _
  | field _ hpath | widen _ hpath => exact hpath

theorem namesAll_eq_flatMap (es : List Expr) : namesAll es = es.flatMap names := by
  induction es with
  | nil => rfl
  | cons e es ih => rw [namesAll, ih, List.flatMap_cons]

theorem Body.isName {e : Expr} (he : Body e) : ∀ name ∈ e.names, IsName name := by
  cases he with
  | comparison hL hR => exact List.forall_mem_append.2 ⟨hL.isName, hR.isName⟩
  | @connection op c L ls hL =>
    rw [names, namesAll_eq_flatMap]
    intro name hname
    simp only [List.mem_flatMap, List.mem_map] at hname
    obtain ⟨_, ⟨l, -, rfl⟩, hname⟩ := hname
    exact hL.isName name (by simpa [names] using hname)
  | email hV => exact hV.isName
  | @statement V item keys negated ls hV hitem =>
    refine List.forall_mem_append.2 ⟨hV.isName, ?_⟩
    cases negated <;> cases hitem <;> exact List.forall_mem_nil _
  | presence => exact List.forall_mem_nil _

theorem Check.isName {e : Expr} (he : Check e) : ∀ name ∈ e.names, IsName name := by
  cases he with
  | bare he => exact he.isName
  | guarded hname he =>
    exact List.forall_mem_append.2 ⟨List.forall_mem_singleton.2 hname, he.isName⟩

/-- **Checks are written unambiguously**: they have the same source exactly if they differ at most
in the kinds of their integer constants. -/
theorem Check.source_eq_iff (hsupport : IsPath support) {e e' : Expr} (he : Check e)
    (he' : Check e') : e.source support = e'.source support ↔ e.unkinded = e'.unkinded := by
  constructor
  · intro h
    have hlexes : ∀ {e : Expr}, Check e → Lexes (e.source support) (e.tokens support) :=
      fun {e} he => lexes_source hsupport.isPlain e fun name hname => (he.isName name hname).isPlain
    have htokens := (hlexes he).tokens_eq
    rw [h, (hlexes he').tokens_eq] at htokens
    exact he.cancel hsupport he' (Option.some.inj htokens).symm
  · intro h
    rw [← source_unkinded e, h, source_unkinded e']

end Source

end FieldRules
