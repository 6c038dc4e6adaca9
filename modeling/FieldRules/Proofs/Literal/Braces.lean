import FieldRules.Literal
import Mathlib.Data.List.TakeWhile

/-!
# Targets without braces

A target that is read as anything but a text has no brace in it. The readers of numbers accept
digits, signs, points and exponents only, so what cannot be any of these is not in a number; the
truth values are two words.
-/

namespace FieldRules

/-- What does not satisfy a test stands behind the characters that do. -/
theorem mem_dropWhile {p : Char → Bool} {c : Char} (hc : p c = false) {cs : List Char}
    (h : c ∈ cs) : c ∈ cs.dropWhile p := by
  rw [← @List.takeWhile_append_dropWhile _ p cs, List.mem_append] at h
  exact h.resolve_left fun hmem => absurd (List.mem_takeWhile_imp hmem) (by simp [hc])

namespace Numeral

variable {cs : List Char}

theorem brace_notMem_of_readDigits {n : Nat} (h : readDigits cs = some n) : '\x7b' ∉ cs := by
  unfold readDigits at h
  split_ifs at h with hdigits
  exact fun hc => absurd (List.all_eq_true.1 hdigits.2 _ hc) (by decide)

theorem brace_notMem_of_readNatural {n : Nat} (h : readNatural cs = some n) : '\x7b' ∉ cs := by
  unfold readNatural at h
  split at h
  · simpa using brace_notMem_of_readDigits h
  · exact brace_notMem_of_readDigits h

theorem brace_notMem_of_readInteger {n : Int} (h : readInteger cs = some n) : '\x7b' ∉ cs := by
  unfold readInteger at h
  split at h
  · obtain ⟨m, hm, -⟩ := Option.map_eq_some_iff.1 h
    simpa using brace_notMem_of_readDigits hm
  · obtain ⟨m, hm, -⟩ := Option.map_eq_some_iff.1 h
    exact brace_notMem_of_readNatural hm

/-- Nor is one in an exponent. -/
theorem brace_notMem_of_exponent {c : Char} {n : Int}
    (h : (if c = 'e' ∨ c = 'E' then readInteger cs else none) = some n) : '\x7b' ∉ c :: cs := by
  split_ifs at h with hsign
  have hdigits := brace_notMem_of_readInteger h
  rcases hsign with rfl | rfl <;> simpa using hdigits

end Numeral

theorem Double.brace_notMem_of_read {cs : List Char} {x : Double} (h : read cs = some x) :
    '\x7b' ∉ cs := by
  intro hc
  unfold read at h
  simp only at h
  -- A brace is passed on from the sign to the digits, to the fraction and to the exponent.
  split at h
  all_goals
    split_ifs at h
    simp only at h
    split at h
    · rename_i fraction hpoint
      have hfraction : '\x7b' ∈ '.' :: fraction := by
        rw [← hpoint]
        exact mem_dropWhile rfl (by simpa using hc)
      obtain ⟨e, he, -⟩ := Option.map_eq_some_iff.1 h
      simp only at he
      split at he
      all_goals
        rename_i hrest
        have hexponent :=
          hrest ▸ @mem_dropWhile Char.isDigit '\x7b' rfl _ (by simpa using hfraction)
      · exact List.not_mem_nil hexponent
      · exact Numeral.brace_notMem_of_exponent he hexponent
    · obtain ⟨e, he, -⟩ := Option.map_eq_some_iff.1 h
      simp only at he
      split at he
      all_goals
        rename_i hrest
        have hexponent := hrest ▸ @mem_dropWhile Char.isDigit '\x7b' rfl _ (by simpa using hc)
      · exact List.not_mem_nil hexponent
      · exact Numeral.brace_notMem_of_exponent he hexponent

/-- **Only a text can have a brace in it.** -/
theorem TargetKind.brace_notMem_of_read {kind : TargetKind} {value : String} {l : Literal}
    (hkind : kind ≠ .text) (h : kind.read value = some l) :
    '\x7b' ∉ Text.trim value.toList := by
  unfold read at h
  generalize Text.trim value.toList = cs at h
  cases kind with
  | text => exact absurd rfl hkind
  | integer min max =>
    simp only [readTrimmed] at h
    split at h
    case h_1 n hn => exact Numeral.brace_notMem_of_readInteger hn
    case h_2 => cases h
  | float single =>
    simp only [readTrimmed] at h
    split at h
    case h_1 x hx => exact Double.brace_notMem_of_read hx
    case h_2 => cases h
  | bool =>
    simp only [readTrimmed] at h
    split_ifs at h with htrue hfalse
    · exact htrue ▸ by decide
    · exact hfalse ▸ by decide
  | size =>
    simp only [readTrimmed] at h
    split at h
    case h_1 n hn => exact Numeral.brace_notMem_of_readNatural hn
    case h_2 => cases h

end FieldRules
