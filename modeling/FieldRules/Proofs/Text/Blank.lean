import FieldRules.Text.Blank
import Mathlib.Data.List.Infix
import Mathlib.Data.List.TakeWhile

/-!
# Blanks around a text

A text is its trimmed form between blanks (`exists_trim`), and blanks added at either end make no
difference to that form.
-/

namespace FieldRules.Text

/-- Trimming leaves a part of a text. -/
theorem trim_isInfix (cs : List Char) : trim cs <:+: cs :=
  (trimEnd_isPrefix _).isInfix.trans (List.dropWhile_suffix _).isInfix

theorem mem_of_mem_trim {cs : List Char} {c : Char} (h : c ∈ trim cs) : c ∈ cs :=
  (trim_isInfix cs).subset h

/-- A digit is not blank. -/
theorem isBlank_of_isDigit {c : Char} (h : c.isDigit = true) : isBlank c = false := by
  by_contra hblank
  simp only [isBlank, Char.isDigit] at hblank h
  simp [UInt32.le_iff_toNat_le] at hblank h
  omega

/-- A text without blanks is trimmed. -/
theorem trim_eq_self {cs : List Char} (h : ∀ c ∈ cs, isBlank c = false) : trim cs = cs :=
  trim_eq_self_iff.2 ⟨fun c hc => h c (List.mem_of_mem_head? hc),
    fun c hc => h c (List.mem_of_mem_getLast? hc)⟩

/-- A trimmed text has no leading blanks to cut off. -/
theorem trimStart_of_trim {cs : List Char} (h : trim cs = cs) : trimStart cs = cs :=
  trimStart_eq_self (trim_eq_self_iff.1 h).1

/-- Blanks behind a text are cut off. -/
theorem trim_append_blanks (cs : List Char) {blanks : List Char}
    (h : ∀ b ∈ blanks, isBlank b = true) : trim (cs ++ blanks) = trim cs := by
  have hstart : trimStart blanks = [] := List.dropWhile_eq_nil_iff.2 h
  have hend : ∀ ds, trimEnd (ds ++ blanks) = trimEnd ds := by
    intro ds
    rw [trimEnd, trimEnd, List.reverse_append, List.dropWhile_append_of_pos]
    exact fun b hb => h b (List.mem_reverse.1 hb)
  by_cases hcs : trimStart cs = []
  · have hall : trimStart (cs ++ blanks) = [] := by
      rw [trimStart, List.dropWhile_append, show cs.dropWhile isBlank = [] from hcs]
      exact hstart
    rw [trim, trim, hall, hcs]
  · have hsplit : trimStart (cs ++ blanks) = trimStart cs ++ blanks := by
      rw [trimStart, List.dropWhile_append, if_neg (by simpa [trimStart] using hcs)]
      rfl
    rw [trim, trim, hsplit, hend]

/-- So are blanks in front of it. -/
theorem trim_cons_blank (cs : List Char) {b : Char} (h : isBlank b = true) :
    trim (b :: cs) = trim cs := by
  rw [trim, trim, trimStart, List.dropWhile_cons_of_pos h, trimStart]

theorem trim_blanks_append {blanks : List Char} (cs : List Char)
    (h : ∀ b ∈ blanks, isBlank b = true) : trim (blanks ++ cs) = trim cs := by
  induction blanks with
  | nil => rfl
  | cons b blanks ih =>
    obtain ⟨hb, hblanks⟩ := List.forall_mem_cons.1 h
    rw [List.cons_append, trim_cons_blank _ hb, ih hblanks]

/-- Between two trimmed texts blanks are kept. -/
theorem trim_append_append {before behind : List Char} (middle : List Char) (hbefore : before ≠ [])
    (hbehind : behind ≠ []) (htrim : trim before = before) (htrim' : trim behind = behind) :
    trim (before ++ middle ++ behind) = before ++ middle ++ behind := by
  refine trim_eq_self_iff.2 ⟨fun c hc => (trim_eq_self_iff.1 htrim).1 c ?_,
    fun c hc => (trim_eq_self_iff.1 htrim').2 c ?_⟩
  · rwa [List.append_assoc, List.head?_append_of_ne_nil _ hbefore] at hc
  · rwa [List.getLast?_append_of_ne_nil _ hbehind] at hc

/-- A text is its trimmed form between blanks. -/
theorem exists_trim (cs : List Char) :
    ∃ before behind, cs = before ++ trim cs ++ behind ∧ (∀ b ∈ before, isBlank b = true) ∧
      ∀ b ∈ behind, isBlank b = true := by
  refine ⟨cs.takeWhile isBlank, ((trimStart cs).reverse.takeWhile isBlank).reverse, ?_,
    fun b hb => ?_, fun b hb => ?_⟩
  · have hend : trim cs ++ ((trimStart cs).reverse.takeWhile isBlank).reverse = trimStart cs := by
      rw [trim, trimEnd, ← List.reverse_append, List.takeWhile_append_dropWhile,
        List.reverse_reverse]
    rw [List.append_assoc, hend, trimStart, List.takeWhile_append_dropWhile]
  · exact List.mem_takeWhile_imp hb
  · exact List.mem_takeWhile_imp (List.mem_reverse.1 hb)

/-- Trimming keeps every character that is no blank. -/
theorem mem_trim_iff {cs : List Char} {c : Char} (h : isBlank c = false) :
    c ∈ trim cs ↔ c ∈ cs := by
  constructor
  · exact mem_of_mem_trim
  · intro hc
    obtain ⟨before, behind, hcs, hbefore, hbehind⟩ := exists_trim cs
    rw [hcs, List.mem_append, List.mem_append] at hc
    rcases hc with (hc | hc) | hc
    · exact absurd (hbefore c hc) (by simp [h])
    · exact hc
    · exact absurd (hbehind c hc) (by simp [h])

/-- Trimming leaves nothing of a blank text only. -/
theorem trim_ne_nil_iff {cs : List Char} : trim cs ≠ [] ↔ ∃ c ∈ cs, isBlank c = false := by
  constructor
  · intro h
    obtain ⟨c, rest, hcs⟩ := List.exists_cons_of_ne_nil h
    have hmem : c ∈ trim cs := by simp [hcs]
    exact ⟨c, mem_of_mem_trim hmem, @head?_trim cs c (by simp [hcs])⟩
  · rintro ⟨c, hc, hblank⟩
    exact List.ne_nil_of_mem ((mem_trim_iff hblank).2 hc)

end FieldRules.Text
