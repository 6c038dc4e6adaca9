/-!
# Blanks

A blank is a character with the Unicode property White_Space. Every reader of this library treats
the same characters as blank: the spelling of a type, the entries of a tag, the segments of a path
and the text of a number. The operations come twice, on lists of characters for the readers and on
strings for the values that the library keeps.
-/

namespace FieldRules.Text

/-- The characters with the property White_Space. -/
def isBlank (c : Char) : Bool :=
  let n := c.toNat
  (0x09 ≤ n && n ≤ 0x0D) || n == 0x20 || n == 0x85 || n == 0xA0 || n == 0x1680 ||
    (0x2000 ≤ n && n ≤ 0x200A) || n == 0x2028 || n == 0x2029 || n == 0x202F || n == 0x205F ||
    n == 0x3000

/-- The text after its leading blanks. -/
def trimStart (cs : List Char) : List Char :=
  cs.dropWhile isBlank

/-- The text before its trailing blanks. -/
def trimEnd (cs : List Char) : List Char :=
  (cs.reverse.dropWhile isBlank).reverse

/-- The text without the blanks around it. -/
def trim (cs : List Char) : List Char :=
  trimEnd (trimStart cs)

/-- The string without the blanks around it. -/
def trimmed (s : String) : String :=
  String.ofList (trim s.toList)

@[simp] theorem toList_trimmed (s : String) : (trimmed s).toList = trim s.toList := by
  simp [trimmed]

/-! ### Trimmed texts -/

/-- Without a leading blank nothing is cut off at the start. -/
theorem trimStart_eq_self {cs : List Char} (h : ∀ c, cs.head? = some c → isBlank c = false) :
    trimStart cs = cs := by
  cases cs with
  | nil => rfl
  | cons c cs => simp [trimStart, h c rfl]

/-- Without a trailing blank nothing is cut off at the end. -/
theorem trimEnd_eq_self {cs : List Char} (h : ∀ c, cs.getLast? = some c → isBlank c = false) :
    trimEnd cs = cs := by
  have hr : trimStart cs.reverse = cs.reverse := by
    apply trimStart_eq_self
    intro c hc
    exact h c (by rw [List.head?_reverse] at hc; exact hc)
  exact (congrArg List.reverse hr).trans (List.reverse_reverse cs)

/-- After the leading blanks no blank comes first. -/
theorem head?_trimStart {cs : List Char} {c : Char} (h : (trimStart cs).head? = some c) :
    isBlank c = false := by
  induction cs with
  | nil => simp [trimStart] at h
  | cons d ds ih =>
    by_cases hd : isBlank d = true
    · exact ih (by simpa [trimStart, hd] using h)
    · have hcd : d = c := by simpa [trimStart, hd] using h
      rw [← hcd]
      simpa using hd

/-- Before the trailing blanks no blank comes last. -/
theorem getLast?_trimEnd {cs : List Char} {c : Char} (h : (trimEnd cs).getLast? = some c) :
    isBlank c = false := by
  rw [trimEnd, List.getLast?_reverse] at h
  exact head?_trimStart h

/-- Cutting off the end of a text leaves a beginning of it. -/
theorem trimEnd_isPrefix (cs : List Char) : trimEnd cs <+: cs := by
  have h : (trimStart cs.reverse) <:+ cs.reverse := List.dropWhile_suffix _
  have := List.reverse_prefix.2 h
  simpa [trimEnd, trimStart] using this

/-- A trimmed text does not begin with a blank. -/
theorem head?_trim {cs : List Char} {c : Char} (h : (trim cs).head? = some c) :
    isBlank c = false := by
  obtain ⟨rest, hrest⟩ := trimEnd_isPrefix (trimStart cs)
  have hfirst : (trimStart cs).head? = some c := by
    rw [trim] at h
    rw [← hrest, List.head?_append, h]
    rfl
  exact head?_trimStart hfirst

/-- A text is trimmed exactly if no blank stands at either end. -/
theorem trim_eq_self_iff {cs : List Char} :
    trim cs = cs ↔ (∀ c, cs.head? = some c → isBlank c = false) ∧
      ∀ c, cs.getLast? = some c → isBlank c = false := by
  constructor
  · intro h
    have hfirst : ∀ c, (trim cs).head? = some c → isBlank c = false := fun _ => head?_trim
    have hlast : ∀ c, (trim cs).getLast? = some c → isBlank c = false := fun _ => getLast?_trimEnd
    rw [h] at hfirst hlast
    exact ⟨hfirst, hlast⟩
  · rintro ⟨hfirst, hlast⟩
    rw [trim, trimStart_eq_self hfirst, trimEnd_eq_self hlast]

/-- Trimming twice is trimming once. -/
@[simp] theorem trim_trim (cs : List Char) : trim (trim cs) = trim cs :=
  trim_eq_self_iff.2 ⟨fun _ h => head?_trim h, fun _ h => getLast?_trimEnd h⟩

end FieldRules.Text
