import FieldRules.Proofs.Source.Kinds

/-!
# Reading back the parts of a check

The tokens of the parts of a check determine the part: a constant up to its kind, the sign of a
comparison, the left side of a comparison, and lists of constants. What follows a part in the tokens
is left alone, so that parts are found one after the other.
-/

namespace FieldRules.Source

open FieldRules.Expr

variable {s support : String} {ts us x y : List Token}

/-! ### Names -/

/-- A name: a word of source. -/
def IsName (s : String) : Prop :=
  s ≠ "" ∧ s.toList.all isNameChar = true

instance (s : String) : Decidable (IsName s) :=
  inferInstanceAs (Decidable (s ≠ "" ∧ s.toList.all isNameChar = true))

theorem isPlain_of_isNameChar {c : Char} (h : isNameChar c = true) : isPlain c = true := by
  simp only [isPlain, Bool.and_eq_true, bne_iff_ne, ne_eq]
  refine ⟨⟨⟨?_, ?_⟩, ?_⟩, ?_⟩ <;> rintro rfl <;> revert h <;> decide

theorem IsName.lexes (h : IsName s) : Lexes s [.word s] :=
  lexes_word h.1 (List.all_eq_true.1 h.2)

theorem IsName.isPlain (h : IsName s) : IsPlain s :=
  List.all_eq_true.2 fun c hc => isPlain_of_isNameChar (List.all_eq_true.1 h.2 c hc)

/-- The tokens of a path of names. -/
def pathTokens (path : List String) : List Token :=
  [.mark '.'].intercalate (path.map fun name => [.word name])

theorem tokens_field {path : List String} (h : ∀ name ∈ path, IsName name) :
    (Place.field path).tokens = [.word "obj", .mark '.'] ++ pathTokens path := by
  have hpath : Lexes (".".intercalate path) (pathTokens path) := by
    have hdot : Ends "." [.mark '.'] := rfl
    refine lexes_intercalate hdot (by decide) ?_
    rw [List.forall₂_map_right_iff]
    exact List.forall₂_same.2 fun name hname => (h name hname).lexes
  have hobj : Ends "obj." [.word "obj", .mark '.'] := rfl
  exact plainTokens_eq (hobj.append hpath)

theorem tokens_bound : Place.bound.tokens = [.mark '*', .word "v"] := rfl

theorem tokens_element : Place.element.tokens = [.mark '*', .word "e"] := rfl

/-! ### Constants -/

/-- The constant is not a floating-point number. -/
def IsExact : Literal → Prop
  | .float _ => False
  | _ => True

theorem isNameChar_of_isDigit {c : Char} (h : c.isDigit = true) : isNameChar c = true := by
  simp [isNameChar, Char.isAlphanum, h]

theorem lexes_digits (n : Nat) :
    Lexes (String.ofList (Numeral.digits n)) [.word (String.ofList (Numeral.digits n))] := by
  refine lexes_word ?_ fun c hc => ?_
  · rw [Ne, ← String.toList_eq_nil_iff, String.toList_ofList]
    exact Numeral.digits_ne_nil n
  · rw [String.toList_ofList] at hc
    exact isNameChar_of_isDigit (Numeral.isDigit_of_mem_digits hc)

/-- A constant at the beginning of some tokens, and the tokens behind it. -/
def readConstant : List Token → Option (Literal × List Token)
  | .text s :: ts => some (.text s, ts)
  | .mark '-' :: .word w :: ts =>
    (Numeral.readDigits w.toList).map fun n : Nat => (.int (-n), ts)
  | .word w :: ts =>
    if w = "true" then some (.bool true, ts)
    else if w = "false" then some (.bool false, ts)
    else (Numeral.readDigits w.toList).map fun n : Nat => (.int n, ts)
  | _ => none

theorem readConstant_digits (n : Nat) (x : List Token) :
    readConstant (.word (String.ofList (Numeral.digits n)) :: x) = some (.int n, x) := by
  have hword : ∀ w : String, Numeral.readDigits w.toList = none →
      String.ofList (Numeral.digits n) ≠ w := by
    rintro w hw rfl
    rw [String.toList_ofList, Numeral.readDigits_digits] at hw
    cases hw
  rw [readConstant, if_neg (hword "true" (by decide)), if_neg (hword "false" (by decide)),
    String.toList_ofList, Numeral.readDigits_digits, Option.map_some]

theorem tokens_digits (n : Nat) : plainTokens (String.ofList (Numeral.digits n)) =
    [.word (String.ofList (Numeral.digits n))] :=
  plainTokens_eq (lexes_digits n)

theorem tokens_int {n : Int} (hn : n < 0) : (Literal.int n).tokens =
    [.mark '-', .word (String.ofList (Numeral.digits n.natAbs))] := by
  have hminus : Ends "-" [.mark '-'] := rfl
  have hsource : (Literal.int n).source = "-" ++ String.ofList (Numeral.digits n.natAbs) := by
    rw [Literal.source, Numeral.integerText, if_pos hn]
    exact String.toList_injective (by simp)
  change plainTokens (Literal.int n).source = _
  rw [hsource]
  exact plainTokens_eq (hminus.append (lexes_digits _))

/-- The tokens of a constant are read back as the constant, up to its kind. -/
theorem readConstant_tokens {l : Literal} (hl : IsExact l) (x : List Token) :
    readConstant (l.tokens ++ x) = some (l.unkinded, x) := by
  cases l with
  | text s => rfl
  | float => cases hl
  | bool b => cases b <;> rfl
  | unsigned n | size n =>
    change readConstant (plainTokens (String.ofList (Numeral.digits n)) ++ x) = _
    rw [tokens_digits]
    exact readConstant_digits n x
  | int n =>
    by_cases hn : n < 0
    · have habs : (-(n.natAbs : Int)) = n := by omega
      rw [tokens_int hn]
      simp only [readConstant, List.cons_append, List.nil_append, String.toList_ofList,
        Numeral.readDigits_digits, Option.map_some, habs, Literal.unkinded]
    · have habs : (n.natAbs : Int) = n := by omega
      have hsource : (Literal.int n).source = String.ofList (Numeral.digits n.natAbs) := by
        rw [Literal.source, Numeral.integerText, if_neg hn]
      have hread := readConstant_digits n.natAbs x
      rw [habs] at hread
      change readConstant (plainTokens (Literal.int n).source ++ x) = _
      rwa [hsource, tokens_digits]

theorem constant_cancel {l l' : Literal} (hl : IsExact l) (hl' : IsExact l')
    (h : l.tokens ++ x = l'.tokens ++ y) : l.unkinded = l'.unkinded ∧ x = y := by
  have hread := readConstant_tokens hl x
  rw [h, readConstant_tokens hl' y, Option.some.injEq, Prod.mk.injEq] at hread
  exact ⟨hread.1.symm, hread.2.symm⟩

/-! ### Lists -/

/-- Parts that are read back one by one are read back from a list with separators, if no separator
follows the list. -/
theorem intercalate_cancel {α β : Type} {f : α → List Token} {g : α → β} {P : α → Prop}
    (hf : ∀ {a b x y}, P a → P b → f a ++ x = f b ++ y → g a = g b ∧ x = y) {sep : Token}
    {sep' : List Token} (hx : x.head? ≠ some sep) (hy : y.head? ≠ some sep) {as bs : List α}
    (has : ∀ a ∈ as, P a) (hbs : ∀ b ∈ bs, P b) (has' : as ≠ []) (hbs' : bs ≠ [])
    (h : (sep :: sep').intercalate (as.map f) ++ x = (sep :: sep').intercalate (bs.map f) ++ y) :
    as.map g = bs.map g ∧ x = y := by
  induction as generalizing bs with
  | nil => exact absurd rfl has'
  | cons a as ih =>
    cases bs with
    | nil => exact absurd rfl hbs'
    | cons b bs =>
      obtain ⟨ha, has⟩ := List.forall_mem_cons.1 has
      obtain ⟨hb, hbs⟩ := List.forall_mem_cons.1 hbs
      cases as with
      | nil =>
        cases bs with
        | nil =>
          simp only [List.map_cons, List.map_nil, List.intercalate_singleton] at h ⊢
          obtain ⟨hab, hxy⟩ := hf ha hb h
          exact ⟨by rw [hab], hxy⟩
        | cons b' bs =>
          simp only [List.map_cons, List.map_nil, List.intercalate_singleton,
            List.intercalate_cons_cons, List.append_assoc] at h
          obtain ⟨-, rfl⟩ := hf ha hb h
          exact absurd rfl hx
      | cons a' as =>
        cases bs with
        | nil =>
          simp only [List.map_cons, List.map_nil, List.intercalate_singleton,
            List.intercalate_cons_cons, List.append_assoc] at h
          obtain ⟨-, rfl⟩ := hf ha hb h
          exact absurd rfl hy
        | cons b' bs =>
          simp only [List.map_cons, List.intercalate_cons_cons, List.append_assoc] at h
          obtain ⟨hab, hrest⟩ := hf ha hb h
          obtain ⟨hmap, hxy⟩ := ih has hbs (List.cons_ne_nil _ _) (List.cons_ne_nil _ _)
            (List.append_cancel_left hrest)
          exact ⟨List.cons_eq_cons.2 ⟨hab, hmap⟩, hxy⟩

/-- A list of constants is read back, up to their kinds. -/
theorem set_cancel {set set' : List Literal} (hset : ∀ l ∈ set, IsExact l)
    (hset' : ∀ l ∈ set', IsExact l) (hne : set ≠ []) (hne' : set' ≠ [])
    (h : setTokens set ++ x = setTokens set' ++ y) :
    set.map Literal.unkinded = set'.map Literal.unkinded ∧ x = y := by
  simp only [setTokens, List.append_assoc] at h
  obtain ⟨hmap, hxy⟩ := intercalate_cancel constant_cancel (by simp) (by simp) hset hset' hne hne'
    (List.append_cancel_left h)
  exact ⟨hmap, List.append_cancel_left hxy⟩

/-! ### Sides of a comparison -/

/-- The value that a check is about: a field of the validated value, or what a guard binds. -/
inductive Subject : Expr → Prop where
  /-- A field. -/
  | field {name : String} : IsName name → Subject (.field [name])
  /-- What the guard binds. -/
  | bound : Subject (.value .bound)

/-- What a check compares: the value, its size, its lower case, or the value in a wider type. -/
inductive LeftOperand : Expr → Prop where
  /-- The value itself. -/
  | value {V : Expr} : Subject V → LeftOperand V
  /-- Its size. -/
  | len {V : Expr} : Subject V → LeftOperand (.len V)
  /-- Its lower case. -/
  | lower {V : Expr} : Subject V → LeftOperand (.lower V)
  /-- The value in a wider type. -/
  | widen {V : Expr} {w : Widening} : Subject V → LeftOperand (.widen w V)

theorem tokens_name {name : String} (h : IsName name) :
    (Place.field [name]).tokens = [.word "obj", .mark '.', .word name] :=
  tokens_field (List.forall_mem_singleton.2 h)

theorem typeName_inj {w w' : Widening} : w.typeName = w'.typeName ↔ w = w' := by
  cases w <;> cases w' <;> decide

/-- A left side ends where a comparison begins. -/
theorem left_cancel {L L' : Expr} {m m' : Char} (hL : LeftOperand L) (hL' : LeftOperand L')
    (hm : m ≠ '.') (hm' : m' ≠ '.')
    (h : L.tokens support ++ .mark m :: x = L'.tokens support ++ .mark m' :: y) :
    L = L' ∧ m = m' ∧ x = y := by
  have hm'' := hm'.symm
  -- Left sides differ in their first token, or in what follows the name of the field.
  rcases hL with ⟨hV⟩ | ⟨hV⟩ | ⟨hV⟩ | ⟨hV⟩ <;> rcases hL' with ⟨hV'⟩ | ⟨hV'⟩ | ⟨hV'⟩ | ⟨hV'⟩ <;>
    rcases hV with ⟨hn⟩ | _ <;> rcases hV' with ⟨hn'⟩ | _ <;>
    simp_all [Expr.tokens, Expr.field, receiverTokens, callTokens, parenthesisedTokens, tokens_name,
      tokens_bound, typeName_inj]

/-- A left side is not put in parentheses once more. -/
theorem LeftOperand.operandTokens_eq {L : Expr} (hL : LeftOperand L) (ts : List Token) :
    operandTokens L ts = ts := by
  rcases hL with ⟨⟨_⟩ | _⟩ | _ | _ | _ <;> rfl

theorem exists_comparison_tokens (c : Comparison) :
    ∃ m ts, c.tokens = .mark m :: ts ∧ m ≠ '.' := by
  cases c <;> exact ⟨_, _, rfl, by decide⟩

theorem comparison_cancel {c c' : Comparison} (hx : x.head? ≠ some (.mark '='))
    (hy : y.head? ≠ some (.mark '=')) (h : c.tokens ++ x = c'.tokens ++ y) : c = c' ∧ x = y := by
  cases c <;> cases c' <;> grind [Comparison.tokens]

/-- A comparison is read back from its left side on. -/
theorem compare_cancel {L L' : Expr} {c c' : Comparison} (hL : LeftOperand L) (hL' : LeftOperand L')
    (hx : x.head? ≠ some (.mark '=')) (hy : y.head? ≠ some (.mark '='))
    (h : L.tokens support ++ (c.tokens ++ x) = L'.tokens support ++ (c'.tokens ++ y)) :
    L = L' ∧ c = c' ∧ x = y := by
  obtain ⟨m, ts, hts, hm⟩ := exists_comparison_tokens c
  obtain ⟨m', ts', hts', hm'⟩ := exists_comparison_tokens c'
  have h' := h
  rw [hts, hts'] at h'
  obtain ⟨rfl, -, -⟩ := left_cancel hL hL' hm hm' h'
  exact ⟨rfl, comparison_cancel hx hy (List.append_cancel_left h)⟩

/-- What a check compares with: a constant, or another field, widened or not. -/
inductive RightOperand : Expr → Prop where
  /-- A constant. -/
  | constant {l : Literal} : IsExact l → RightOperand (.literal l)
  /-- Another field. -/
  | field {path : List String} : path ≠ [] → (∀ name ∈ path, IsName name) →
      RightOperand (.field path)
  /-- Another field in a wider type. -/
  | widen {w : Widening} {path : List String} : path ≠ [] → (∀ name ∈ path, IsName name) →
      RightOperand (.widen w (.field path))

theorem path_cancel {path path' : List String} (hne : path ≠ []) (hne' : path' ≠ [])
    (hx : x.head? ≠ some (.mark '.')) (hy : y.head? ≠ some (.mark '.'))
    (h : pathTokens path ++ x = pathTokens path' ++ y) : path = path' ∧ x = y := by
  have hword : ∀ {a b : String} {x y : List Token}, True → True →
      [Token.word a] ++ x = [Token.word b] ++ y → id a = id b ∧ x = y := by
    intro a b x y _ _ h
    simpa using h
  simpa using intercalate_cancel hword hx hy (fun _ _ => trivial) (fun _ _ => trivial) hne hne' h

/-- A constant is not what no constant is read from. -/
theorem constant_tokens_ne {l : Literal} (hl : IsExact l) (hts : readConstant ts = none) :
    l.tokens ++ x ≠ ts := by
  rintro rfl
  rw [readConstant_tokens hl] at hts
  cases hts

theorem literal_tokens_ne {l : Literal} (hl : IsExact l) (hts : readConstant ts = none) :
    (Expr.literal l).tokens support ≠ ts := by
  simpa [Expr.tokens] using constant_tokens_ne (x := []) hl hts

theorem head?_constant_tokens {l : Literal} (hl : IsExact l) :
    (l.tokens ++ x).head? ≠ some (.mark '=') := by
  intro h
  obtain ⟨ts, hts⟩ := List.head?_eq_some_iff.1 h
  exact constant_tokens_ne hl rfl hts

theorem RightOperand.tokens_field {path : List String} (h : ∀ name ∈ path, IsName name) :
    (Expr.field path).tokens support = .word "obj" :: .mark '.' :: pathTokens path :=
  Source.tokens_field h

theorem RightOperand.tokens_widen {w : Widening} {path : List String}
    (h : ∀ name ∈ path, IsName name) : (Expr.widen w (.field path)).tokens support =
      .mark '(' :: .word "obj" :: .mark '.' :: (pathTokens path ++
        [.word "as", .word w.typeName, .mark ')']) := by
  simp [Expr.tokens, Expr.field, parenthesisedTokens, Source.tokens_field h]

theorem RightOperand.head?_tokens {R : Expr} (hR : RightOperand R) :
    (R.tokens support).head? ≠ some (.mark '=') := by
  cases hR with
  | constant hl => simpa [Expr.tokens] using @head?_constant_tokens [] _ hl
  | field _ hpath => simp [RightOperand.tokens_field hpath]
  | widen _ hpath => simp [RightOperand.tokens_widen hpath]

/-- A right side is read back, up to the kind of a constant. -/
theorem right_cancel {R R' : Expr} (hR : RightOperand R) (hR' : RightOperand R')
    (h : R.tokens support = R'.tokens support) : R.unkinded = R'.unkinded := by
  rcases hR with ⟨hl⟩ | ⟨hne, hpath⟩ | ⟨hne, hpath⟩ <;>
    rcases hR' with ⟨hl'⟩ | ⟨hne', hpath'⟩ | ⟨hne', hpath'⟩
  case constant.constant l l' =>
    have hcancel : l.tokens ++ [] = l'.tokens ++ [] := by simpa [Expr.tokens] using h
    exact congrArg Expr.literal (constant_cancel hl hl' hcancel).1
  case constant.field =>
    rw [RightOperand.tokens_field hpath'] at h
    exact absurd h (literal_tokens_ne hl rfl)
  case constant.widen =>
    rw [RightOperand.tokens_widen hpath'] at h
    exact absurd h (literal_tokens_ne hl rfl)
  case field.constant =>
    rw [RightOperand.tokens_field hpath] at h
    exact absurd h.symm (literal_tokens_ne hl' rfl)
  case widen.constant =>
    rw [RightOperand.tokens_widen hpath] at h
    exact absurd h.symm (literal_tokens_ne hl' rfl)
  case field.field path path' =>
    rw [RightOperand.tokens_field hpath, RightOperand.tokens_field hpath'] at h
    have hcancel : pathTokens path ++ [] = pathTokens path' ++ [] := by simpa using h
    rw [(path_cancel hne hne' (by simp) (by simp) hcancel).1]
  case widen.widen w path w' path' =>
    rw [RightOperand.tokens_widen hpath, RightOperand.tokens_widen hpath'] at h
    simp only [List.cons.injEq, true_and] at h
    obtain ⟨rfl, htype⟩ := path_cancel hne hne' (by simp) (by simp) h
    obtain rfl : w = w' := typeName_inj.1 (by simpa using htype)
    rfl
  case field.widen =>
    rw [RightOperand.tokens_field hpath, RightOperand.tokens_widen hpath'] at h
    cases h
  case widen.field =>
    rw [RightOperand.tokens_field hpath', RightOperand.tokens_widen hpath] at h
    cases h

end FieldRules.Source
