import FieldRules.Proofs.Tag.Entry
import FieldRules.Proofs.Tag.Splitting
import Mathlib.Data.List.Chain

/-!
# Apostrophes inside words

An apostrophe opens a quote only where a target can start. A tag in which every apostrophe stands
inside a word (`QuotesInWords`) is therefore split at every comma, as if there were no quotes. In
particular a single target may hold such apostrophes: the entry ends at the next comma, and the rest
of the tag is split by itself, quotes and all.
-/

namespace FieldRules

open Text

namespace Tag

/-- Every apostrophe stands behind a character that is no separator, no apostrophe and no blank. -/
structure QuotesInWords (cs : List Char) : Prop where
  /-- None comes first. -/
  starts : cs.head? ≠ some '\''
  /-- None follows a character behind which a target can start. -/
  follow : cs.IsChain fun p c => c = '\'' → p ≠ '=' ∧ p ≠ ',' ∧ p ≠ '\'' ∧ isBlank p = false

instance (cs : List Char) : Decidable (QuotesInWords cs) :=
  decidable_of_iff (cs.head? ≠ some '\'' ∧
      cs.IsChain fun p c => c = '\'' → p ≠ '=' ∧ p ≠ ',' ∧ p ≠ '\'' ∧ isBlank p = false)
    ⟨fun h => ⟨h.1, h.2⟩, fun h => ⟨h.1, h.2⟩⟩

/-- The texts between all commas, without the blanks around them and without blank texts. -/
def commaSeparated (tag : String) : List String :=
  (((tag.toList.splitOn ',').map trim).filter (· ≠ [])).map String.ofList

/-! ### Splitting -/

/-- Where no apostrophe opens a quote, every comma separates. -/
theorem piecesFrom_eq_splitOn {previous : Option Char} {cs : List Char}
    (hfirst : cs.head? = some '\'' → opensQuote previous = false)
    (hfollow : cs.IsChain fun p c => c = '\'' → p ≠ '=' ∧ p ≠ ',' ∧ p ≠ '\'' ∧ isBlank p = false) :
    piecesFrom false previous cs = some (cs.splitOn ',') := by
  induction cs generalizing previous with
  | nil => simp [piecesFrom]
  | cons c cs ih =>
    have hquoted : quotedAfter false previous c = false := by
      by_cases hc : c = '\''
      · simp [quotedAfter, hc, hfirst (by rw [hc]; rfl)]
      · simp [quotedAfter, hc]
    have hnext : cs.head? = some '\'' → opensQuote (some c) = false := by
      intro hhead
      obtain ⟨rest, rfl⟩ := List.head?_eq_some_iff.1 hhead
      obtain ⟨hequals, hcomma, hquote, hblank⟩ := (List.isChain_cons_cons.1 hfollow).1 rfl
      simp [opensQuote, hequals, hcomma, hquote, hblank]
    have hrest := ih hnext hfollow.tail
    rw [piecesFrom, hquoted, hrest]
    simp only [List.splitOn_eq_splitOnP, List.splitOnP_cons_eq_if_modifyHead]
    by_cases hc : c = ',' <;> simp [hc]

/-- A tag with apostrophes in words only is split at every comma. -/
theorem entries_of_quotesInWords {tag : String} (h : QuotesInWords tag.toList) :
    entries tag = .ok (commaSeparated tag) := by
  have hfirst : tag.toList.head? = some '\'' → opensQuote none = false := fun hhead =>
    absurd hhead h.starts
  exact entries_eq_ok_iff.2 ⟨_, piecesFrom_eq_splitOn hfirst h.follow, rfl⟩

/-- A blank in front of a tag makes no difference. -/
theorem entries_blank_append {tag : String} {b : Char} {es : List String} (hb : isBlank b = true)
    (h : entries tag = .ok es) : entries (String.singleton b ++ tag) = .ok es := by
  obtain ⟨pieces, hpieces, rfl⟩ := entries_eq_ok_iff.1 h
  obtain ⟨first, rest, rfl, -⟩ := piecesFrom_eq_some hpieces
  have hopens : opensQuote (some b) = opensQuote none := opensQuote_of_isBlank hb
  refine entries_eq_ok_iff.2 ⟨(b :: first) :: rest, ?_, ?_⟩
  · rw [String.toList_append, String.toList_singleton, List.singleton_append, piecesFrom,
      quotedAfter, if_neg (ne_apostrophe_of_isBlank hb), piecesFrom_congr hopens, hpieces]
    simp [ne_comma_of_isBlank hb]
  · rw [List.map_cons, List.map_cons, trim_cons_blank _ hb]

/-! ### Single targets -/

variable {w : List Char}

/-- In front of a target the name and the equals sign put no apostrophe at the start of a word. -/
theorem quotesInWords_name_append (op : Operation) (hw : QuotesInWords w) :
    QuotesInWords (op.name.toList ++ '=' :: w) := by
  obtain ⟨-, hquote, -, -, hne⟩ := op.name_plain
  have hname : op.name.toList.IsChain fun p c =>
      c = '\'' → p ≠ '=' ∧ p ≠ ',' ∧ p ≠ '\'' ∧ isBlank p = false := by
    refine (List.pairwise_of_forall fun _ _ => trivial).imp_of_mem ?_ |>.isChain
    rintro p c - hc - rfl
    exact absurd hc hquote
  refine ⟨?_, List.isChain_append.2 ⟨hname, List.isChain_cons.2 ⟨?_, hw.follow⟩, ?_⟩⟩
  · rw [List.head?_append_of_ne_nil _ (by simpa using hne)]
    exact fun hhead => hquote (List.mem_of_mem_head? hhead)
  · rintro c hc rfl
    exact absurd hc hw.starts
  · simp

/-- The entry of a single target, without the blanks behind it. -/
theorem names_trim_name_append (op : Operation) (hequals : '=' ∉ w) (hw : trim w ≠ []) :
    Names (trim (op.name.toList ++ '=' :: w)) op (trim w) := by
  obtain ⟨-, -, -, htrim, hne⟩ := op.name_plain
  obtain ⟨before, behind, hsplit, hbefore, hbehind⟩ := exists_trim w
  have hentry : trim (op.name.toList ++ '=' :: w) =
      op.name.toList ++ '=' :: (before ++ trim w) := by
    calc trim (op.name.toList ++ '=' :: w)
        = trim (op.name.toList ++ '=' :: before ++ trim w ++ behind) := by
          conv_lhs => rw [hsplit]
          simp
      _ = trim (op.name.toList ++ '=' :: before ++ trim w) := trim_append_blanks _ hbehind
      _ = op.name.toList ++ '=' :: before ++ trim w :=
          trim_append_append _ (by simpa using hne) hw htrim (trim_trim w)
      _ = op.name.toList ++ '=' :: (before ++ trim w) := by simp
  have htarget : trim (before ++ trim w) = trim w := by
    rw [trim_blanks_append _ hbefore, trim_trim]
  have hplain : '=' ∉ before ++ trim w := by
    rw [hsplit] at hequals
    exact fun hmem => hequals (List.mem_append_left _ hmem)
  rw [← htarget]
  exact .before hentry hplain htrim

/-- One entry with a single target, and nothing else. -/
theorem entries_name_append (op : Operation) (hcomma : ',' ∉ w) (hw : QuotesInWords w) :
    entries (String.ofList (op.name.toList ++ '=' :: w)) =
      .ok [String.ofList (trim (op.name.toList ++ '=' :: w))] := by
  have hplain : ',' ∉ op.name.toList ++ '=' :: w := by
    simp [op.name_plain.1, hcomma]
  have hne : trim (op.name.toList ++ '=' :: w) ≠ [] :=
    List.ne_nil_of_mem ((mem_trim_iff (c := '=') (by decide)).2 (by simp))
  have hinert := quotesInWords_name_append op hw
  rw [entries_of_quotesInWords (by rwa [String.toList_ofList]), commaSeparated,
    String.toList_ofList, List.splitOn_eq_singleton hplain]
  simp [hne]

end Tag

/-- **Apostrophes inside words are inert.** A tag with no other apostrophes is split at every comma.
So a single target with such apostrophes ends at the next comma: the tag states the operation with
this target, and then what the text behind the comma states. -/
theorem Tag.quotesInWords_inert :
    (∀ tag : String, QuotesInWords tag.toList → entries tag = .ok (commaSeparated tag)) ∧
    ∀ (op : Operation) (w tag : String) (es : List String), op.arity = .one →
      '=' ∉ w.toList → ',' ∉ w.toList → QuotesInWords w.toList → trimmed w ≠ "" →
      entries tag = .ok es →
      (∃ e, entries (op.name ++ "=" ++ w ++ ", " ++ tag) = .ok (e :: es) ∧
        Validation.ofEntry e = .ok ⟨op, [trimmed w]⟩) ∧
      validations (op.name ++ "=" ++ w ++ ", " ++ tag) =
        (validations tag).map (⟨op, [trimmed w]⟩ :: ·) := by
  refine ⟨fun tag => entries_of_quotesInWords, ?_⟩
  intro op w tag es hop hequals hcomma hw hblank htag
  have hne : trim w.toList ≠ [] := by simpa [trimmed] using hblank
  have htext : op.name ++ "=" ++ w = String.ofList (op.name.toList ++ '=' :: w.toList) := by
    rw [← String.toList_inj]
    simp
  have hentries : entries (op.name ++ "=" ++ w ++ ", " ++ tag) =
      .ok (String.ofList (trim (op.name.toList ++ '=' :: w.toList)) :: es) := by
    have hrest : op.name ++ "=" ++ w ++ ", " ++ tag =
        op.name ++ "=" ++ w ++ "," ++ (String.singleton ' ' ++ tag) := by
      rw [← String.toList_inj]
      simp
    rw [hrest, htext]
    refine (entries_append_comma_eq_ok_iff (entries_name_append op hcomma hw)).2 ?_
    exact ⟨es, entries_blank_append rfl htag, rfl⟩
  have hentry : Validation.ofEntry (String.ofList (trim (op.name.toList ++ '=' :: w.toList))) =
      .ok ⟨op, [trimmed w]⟩ := by
    refine Validation.ofEntry_eq_ok_iff.2 ⟨trim w.toList, ?_, ?_⟩
    · rw [String.toList_ofList]
      exact names_trim_name_append op hequals hne
    · exact (targets_one_eq_ok_iff hop).2 ⟨hne, rfl⟩
  refine ⟨⟨_, hentries, hentry⟩, ?_⟩
  simp only [validations, hentries, htag, List.mapM_cons, hentry]
  cases es.mapM Validation.ofEntry <;> rfl

/-- Apostrophes in words of two entries; and a single target with two of them in front of a tag with
quotes, one of which holds a comma. -/
theorem Tag.rockNRoll_inert :
    entries " neq=O'Brien's ,, in=a b" = .ok ["neq=O'Brien's", "in=a b"] ∧
      (∃ e, entries ("eq" ++ "=" ++ " rock'n'roll " ++ ", " ++ "in='a, b' 'c',required") =
          .ok [e, "in='a, b' 'c'", "required"] ∧
        Validation.ofEntry e = .ok ⟨.compare .eq, ["rock'n'roll"]⟩) ∧
      validations ("eq" ++ "=" ++ " rock'n'roll " ++ ", " ++ "in='a, b' 'c',required") =
        .ok [⟨.compare .eq, ["rock'n'roll"]⟩, ⟨.member false, ["a, b", "c"]⟩, ⟨.required, []⟩] := by
  have hwords : QuotesInWords " neq=O'Brien's ,, in=a b".toList := by decide
  have hsplit : commaSeparated " neq=O'Brien's ,, in=a b" = ["neq=O'Brien's", "in=a b"] := by
    decide
  have htag : entries "in='a, b' 'c',required" = .ok ["in='a, b' 'c'", "required"] := by decide
  have hstates : validations "in='a, b' 'c',required" =
      .ok [⟨.member false, ["a, b", "c"]⟩, ⟨.required, []⟩] := by decide
  have htrim : trimmed " rock'n'roll " = "rock'n'roll" := by decide
  obtain ⟨hentry, hall⟩ := quotesInWords_inert.2 (.compare .eq) " rock'n'roll " _ _ rfl
    (by decide) (by decide) (by decide) (by decide) htag
  rw [htrim] at hentry hall
  refine ⟨?_, hentry, ?_⟩
  · rw [← hsplit]
    exact quotesInWords_inert.1 _ hwords
  · rw [hstates] at hall
    exact hall

end FieldRules
