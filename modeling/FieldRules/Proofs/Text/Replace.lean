import FieldRules.Text.Replace
import Mathlib.Data.List.Infix

/-!
# What replacing changes

The scan of `replaceAll` meets the pattern, which it replaces and passes over, or a character that it
keeps. `scan_induction` is the induction along it. Every match that the scan meets changes the length
of the text and its characters in the same way (`exists_hits`), so that a text stays as it is exactly
if it does not contain the pattern, or the pattern is replaced by itself (`replaceAll_eq_self_iff`).
-/

namespace FieldRules.Text

variable {pattern replacement cs : List Char} {c : Char}

/-- What is left of a match is passed over. -/
theorem replaceFrom_append (passed cs : List Char) :
    replaceFrom pattern replacement passed.length (passed ++ cs) =
      replaceAll pattern replacement cs := by
  induction passed with
  | nil => rfl
  | cons c passed ih => exact ih

/-- At the pattern, the scan puts in the replacement. -/
theorem replaceAll_append_self (hpattern : pattern ≠ []) (cs : List Char) :
    replaceAll pattern replacement (pattern ++ cs) =
      replacement ++ replaceAll pattern replacement cs := by
  obtain ⟨c, passed, rfl⟩ := List.exists_cons_of_ne_nil hpattern
  have hbegins : (c :: passed).isPrefixOf (c :: (passed ++ cs)) = true :=
    List.isPrefixOf_iff_prefix.2 ⟨cs, rfl⟩
  rw [List.cons_append, replaceAll, replaceFrom, if_pos hbegins]
  exact congrArg _ (replaceFrom_append passed cs)

@[simp] theorem replaceAll_nil : replaceAll pattern replacement [] = [] := rfl

/-- Anywhere else, it keeps a character. -/
theorem replaceAll_cons (h : ¬ pattern <+: c :: cs) :
    replaceAll pattern replacement (c :: cs) = c :: replaceAll pattern replacement cs := by
  rw [replaceAll, replaceFrom, if_neg (mt List.isPrefixOf_iff_prefix.1 h)]
  rfl

/-- Induction along the scan. -/
theorem scan_induction {motive : List Char → Prop} (hpattern : pattern ≠ []) (nil : motive [])
    (hit : ∀ cs, motive cs → motive (pattern ++ cs))
    (miss : ∀ c cs, ¬ pattern <+: c :: cs → motive cs → motive (c :: cs)) (cs : List Char) :
    motive cs := by
  induction hlength : cs.length using Nat.strong_induction_on generalizing cs with
  | h n ih =>
    subst hlength
    by_cases h : pattern <+: cs
    · obtain ⟨rest, rfl⟩ := h
      have hpos := List.length_pos_iff.2 hpattern
      exact hit rest (ih rest.length (by rw [List.length_append]; omega) rest rfl)
    · cases cs with
      | nil => exact nil
      | cons c cs => exact miss c cs h (ih cs.length (by simp) cs rfl)

/-! ### Parts of a text -/

/-- A text in which the pattern cannot begin is kept. -/
theorem replaceAll_append_of_head {text : List Char} (h : ∀ c ∈ text, pattern.head? ≠ some c)
    (hpattern : pattern ≠ []) (cs : List Char) :
    replaceAll pattern replacement (text ++ cs) = text ++ replaceAll pattern replacement cs := by
  induction text with
  | nil => rfl
  | cons c text ih =>
    obtain ⟨hc, htext⟩ := List.forall_mem_cons.1 h
    have hmiss : ¬ pattern <+: c :: (text ++ cs) := by
      obtain ⟨d, rest, rfl⟩ := List.exists_cons_of_ne_nil hpattern
      rw [List.cons_prefix_cons]
      rintro ⟨rfl, -⟩
      exact hc rfl
    rw [List.cons_append, replaceAll_cons hmiss, ih htext, List.cons_append]

/-- A match does not reach over a character that the pattern does not have. -/
theorem prefix_of_prefix_append {text tail : List Char} (h : ∀ c, tail.head? = some c → c ∉ pattern)
    (hbegins : pattern <+: text ++ tail) : pattern <+: text := by
  obtain ⟨rest, hrest⟩ := hbegins
  rcases List.append_eq_append_iff.1 hrest with ⟨past, rfl, -⟩ | ⟨past, hpattern, htail⟩
  · exact List.prefix_append _ _
  · cases past with
    | nil => exact ⟨[], hpattern ▸ by simp⟩
    | cons c past =>
      have hc : c ∉ pattern := h c (by rw [htail]; rfl)
      exact absurd (by rw [hpattern]; simp) hc

/-- Behind such a character the scan begins again. -/
theorem replaceAll_append {tail : List Char} (hpattern : pattern ≠ [])
    (h : ∀ c, tail.head? = some c → c ∉ pattern) (cs : List Char) :
    replaceAll pattern replacement (cs ++ tail) =
      replaceAll pattern replacement cs ++ replaceAll pattern replacement tail := by
  induction cs using scan_induction hpattern with
  | nil => rfl
  | hit cs ih =>
    rw [List.append_assoc, replaceAll_append_self hpattern, replaceAll_append_self hpattern, ih,
      List.append_assoc]
  | miss c cs hmiss ih =>
    have hmiss' : ¬ pattern <+: c :: (cs ++ tail) :=
      fun hbegins => hmiss (prefix_of_prefix_append h hbegins)
    rw [List.cons_append, replaceAll_cons hmiss', replaceAll_cons hmiss, ih, List.cons_append]

/-- A pattern stands on one side of a character that it does not have. -/
theorem infix_append_cons_iff {text tail : List Char} (hpattern : pattern ≠ []) (hc : c ∉ pattern) :
    pattern <:+: text ++ c :: tail ↔ pattern <:+: text ∨ pattern <:+: tail := by
  have hstop : ∀ d, (c :: tail).head? = some d → d ∉ pattern := by
    rintro d ⟨⟩
    exact hc
  have hbegins : ∀ {front : List Char}, pattern <+: front ++ c :: tail ↔ pattern <+: front :=
    ⟨prefix_of_prefix_append hstop, fun h => h.trans (List.prefix_append _ _)⟩
  induction text with
  | nil =>
    have hfirst : ¬ pattern <+: c :: tail := by
      rw [← List.nil_append (c :: tail), hbegins, List.prefix_nil]
      exact hpattern
    simp [List.infix_cons_iff, hfirst, hpattern]
  | cons d text ih =>
    rw [List.cons_append, List.infix_cons_iff, ← List.cons_append, hbegins, List.infix_cons_iff,
      or_assoc]
    exact or_congr_right ih

/-- What the pattern has no character of makes no difference around a text. -/
theorem infix_append_append_iff {front text behind : List Char} (hpattern : pattern ≠ [])
    (hfront : ∀ c ∈ front, c ∉ pattern) (hbehind : ∀ c ∈ behind, c ∉ pattern) :
    pattern <:+: front ++ text ++ behind ↔ pattern <:+: text := by
  induction front with
  | nil =>
    cases behind with
    | nil => simp
    | cons c behind =>
      have hrest : ¬ pattern <:+: behind := by
        intro hoccurs
        obtain ⟨d, hd⟩ := List.exists_mem_of_ne_nil _ hpattern
        exact hbehind d (List.mem_cons_of_mem _ (hoccurs.subset hd)) hd
      rw [List.nil_append, infix_append_cons_iff hpattern (hbehind c List.mem_cons_self),
        or_iff_left hrest]
  | cons c front ih =>
    obtain ⟨hc, hfront⟩ := List.forall_mem_cons.1 hfront
    have hnil : ¬ pattern <:+: [] := by simpa using hpattern
    rw [← ih hfront, List.cons_append, List.cons_append, ← List.nil_append (c :: _),
      infix_append_cons_iff hpattern hc, or_iff_right hnil]

/-! ### Matches -/

/-- Every match that is met puts the characters of the replacement for those of the pattern, and
there is one unless the text does not contain the pattern. -/
theorem exists_hits (hpattern : pattern ≠ []) (replacement cs : List Char) :
    ∃ n, (n = 0 ↔ ¬ pattern <:+: cs) ∧
      (replaceAll pattern replacement cs).length + n * pattern.length =
        cs.length + n * replacement.length ∧
      ∀ c ∉ pattern, (replaceAll pattern replacement cs).count c =
        cs.count c + n * replacement.count c := by
  induction cs using scan_induction hpattern with
  | nil => exact ⟨0, by simp [hpattern], by simp, by simp⟩
  | hit cs ih =>
    obtain ⟨n, -, hlength, hcount⟩ := ih
    refine ⟨n + 1, ?_, ?_, fun c hc => ?_⟩
    · have hoccurs : pattern <:+: pattern ++ cs := (List.prefix_append _ _).isInfix
      simp [hoccurs]
    · rw [replaceAll_append_self hpattern, List.length_append, List.length_append, Nat.succ_mul,
        Nat.succ_mul]
      omega
    · rw [replaceAll_append_self hpattern, List.count_append, List.count_append, hcount c hc,
        List.count_eq_zero.2 hc, Nat.succ_mul]
      omega
  | miss c cs hmiss ih =>
    obtain ⟨n, hzero, hlength, hcount⟩ := ih
    refine ⟨n, ?_, ?_, fun d hd => ?_⟩
    · rw [hzero, List.infix_cons_iff, or_iff_right hmiss]
    · rw [replaceAll_cons hmiss, List.length_cons, List.length_cons]
      omega
    · rw [replaceAll_cons hmiss, List.count_cons, List.count_cons, hcount d hd]
      omega

/-- A text is kept exactly if it does not contain the pattern, or if nothing else is put in. -/
theorem replaceAll_eq_self_iff (hpattern : pattern ≠ []) :
    replaceAll pattern replacement cs = cs ↔ ¬ pattern <:+: cs ∨ replacement = pattern := by
  induction cs using scan_induction hpattern with
  | nil => simp [hpattern]
  | hit cs ih =>
    have hoccurs : pattern <:+: pattern ++ cs := (List.prefix_append _ _).isInfix
    rw [replaceAll_append_self hpattern]
    constructor
    · intro h
      -- The lengths agree, so the replacement is as long as the pattern.
      obtain ⟨n, hzero, hlength, -⟩ := exists_hits hpattern replacement (pattern ++ cs)
      rw [replaceAll_append_self hpattern, h, Nat.add_left_cancel_iff] at hlength
      have hn : 0 < n := Nat.pos_of_ne_zero fun hn => hzero.1 hn hoccurs
      exact .inr (List.append_inj_left h (Nat.eq_of_mul_eq_mul_left hn hlength).symm)
    · rintro (h | rfl)
      · exact absurd hoccurs h
      · rw [ih.2 (.inr rfl)]
  | miss c cs hmiss ih =>
    rw [replaceAll_cons hmiss, List.cons.injEq, eq_self, true_and, ih, List.infix_cons_iff,
      or_iff_right hmiss]

/-- A character that the pattern does not have is never lost, and one that comes with every match
shows that there is none. -/
theorem not_infix_of_count (hpattern : pattern ≠ []) (hc : c ∉ pattern) (hr : c ∈ replacement)
    (h : (replaceAll pattern replacement cs).count c ≤ cs.count c) : ¬ pattern <:+: cs := by
  obtain ⟨n, hzero, -, hcount⟩ := exists_hits hpattern replacement cs
  rw [hcount c hc] at h
  have hpos : 0 < replacement.count c := List.count_pos_iff.2 hr
  refine hzero.1 (Nat.eq_zero_of_not_pos fun hn => ?_)
  have := Nat.mul_pos hn hpos
  omega

theorem count_le_count_replaceAll (hpattern : pattern ≠ []) (hc : c ∉ pattern) :
    cs.count c ≤ (replaceAll pattern replacement cs).count c := by
  obtain ⟨n, -, -, hcount⟩ := exists_hits hpattern replacement cs
  rw [hcount c hc]
  omega

end FieldRules.Text
