import FieldRules.Proofs.Text.Blank
import FieldRules.Text.Path

/-!
# Cutting paths

A text is cut at the last double colon: what stands behind it has no double colon, nor a colon in
front (`cutLastSegment_eq_some_iff`). Blanks around a path do not change its trimmed segments
(`map_trim_pathSegments_trim`).

A path that is made of segments without colons is cut into these segments again
(`pathSegments_joinPath`), and it is not the path of any other segments (`joinPath_inj`).
-/

namespace FieldRules.Text

/-! ### The last double colon -/

section

variable {c : Char} {cs front name : List Char}

/-- A cut further right is the one that counts. -/
theorem cutLastSegment_cons_of_some (h : cutLastSegment cs = some (front, name)) :
    cutLastSegment (c :: cs) = some (c :: front, name) := by
  rw [cutLastSegment.eq_def]
  simp only [h]

/-- Without one, a text is cut at the double colon that it begins with. -/
theorem cutLastSegment_colons (h : cutLastSegment (':' :: name) = none) :
    cutLastSegment (':' :: ':' :: name) = some ([], name) := by
  rw [cutLastSegment.eq_def]
  simp only [h]

/-- If it does not begin with one, it is not cut. -/
theorem cutLastSegment_cons_of_none (h : cutLastSegment cs = none)
    (hcolons : ¬ [':', ':'] <+: c :: cs) : cutLastSegment (c :: cs) = none := by
  rw [cutLastSegment.eq_def]
  simp only [h]
  split
  · rename_i name
    exact absurd ⟨name, rfl⟩ hcolons
  · rfl

/-- Only a text without a double colon is not cut. -/
theorem cutLastSegment_eq_none_iff : cutLastSegment cs = none ↔ ¬ [':', ':'] <:+: cs := by
  induction cs with
  | nil => simp [cutLastSegment]
  | cons c cs ih =>
    rw [List.infix_cons_iff, not_or, ← ih]
    cases hcut : cutLastSegment cs with
    | some cut => simp [cutLastSegment_cons_of_some hcut]
    | none =>
      by_cases hcolons : [':', ':'] <+: c :: cs
      · obtain ⟨name, hname⟩ := hcolons
        simp only [List.cons_append, List.nil_append, List.cons.injEq] at hname
        obtain ⟨rfl, rfl⟩ := hname
        simp [cutLastSegment_colons hcut]
      · simp [cutLastSegment_cons_of_none hcut hcolons, hcolons]

/-- A text is cut where nothing behind makes another double colon, not even with the colon before. -/
theorem cutLastSegment_eq_some_iff :
    cutLastSegment cs = some (front, name) ↔
      cs = front ++ ':' :: ':' :: name ∧ ¬ [':', ':'] <:+: ':' :: name := by
  constructor
  · intro h
    induction cs generalizing front with
    | nil => cases h
    | cons c cs ih =>
      cases hcut : cutLastSegment cs with
      | some cut =>
        cases (cutLastSegment_cons_of_some hcut).symm.trans h
        obtain ⟨rfl, hname⟩ := ih hcut
        exact ⟨rfl, hname⟩
      | none =>
        by_cases hcolons : [':', ':'] <+: c :: cs
        · obtain ⟨rest, hrest⟩ := hcolons
          simp only [List.cons_append, List.nil_append, List.cons.injEq] at hrest
          obtain ⟨rfl, rfl⟩ := hrest
          cases (cutLastSegment_colons hcut).symm.trans h
          exact ⟨rfl, cutLastSegment_eq_none_iff.1 hcut⟩
        · cases (cutLastSegment_cons_of_none hcut hcolons).symm.trans h
  · rintro ⟨rfl, hname⟩
    induction front with
    | nil => exact cutLastSegment_colons (cutLastSegment_eq_none_iff.2 hname)
    | cons c front ih => exact cutLastSegment_cons_of_some ih

end

/-! ### Blanks around a path -/

/-- A colon is not blank. -/
theorem ne_colon_of_isBlank {c : Char} (h : isBlank c = true) : c ≠ ':' := by
  rintro rfl
  cases h

/-- A character that begins no double colon belongs to the first segment. -/
theorem pathSegments_cons {c : Char} {cs : List Char} (h : ¬ [':', ':'] <+: c :: cs) :
    pathSegments (c :: cs) = (pathSegments cs).modifyHead (c :: ·) :=
  pathSegments.eq_3 c cs fun rest hc hcs => h ⟨rest, by rw [hc, hcs]; rfl⟩

/-- A blank begins no double colon. -/
theorem not_colons_isPrefix {b : Char} (h : isBlank b = true) (cs : List Char) :
    ¬ [':', ':'] <+: b :: cs := by
  rintro ⟨rest, hrest⟩
  simp only [List.cons_append, List.cons.injEq] at hrest
  exact ne_colon_of_isBlank h hrest.1.symm

/-- Blanks are a single segment. -/
theorem pathSegments_blanks {blanks : List Char} (h : ∀ b ∈ blanks, isBlank b = true) :
    pathSegments blanks = [blanks] := by
  induction blanks with
  | nil => rfl
  | cons b blanks ih =>
    obtain ⟨hb, hblanks⟩ := List.forall_mem_cons.1 h
    rw [pathSegments_cons (not_colons_isPrefix hb blanks), ih hblanks]
    rfl

/-- Blanks behind a path belong to its last segment. -/
theorem exists_pathSegments_append_blanks (cs : List Char) {blanks : List Char}
    (h : ∀ b ∈ blanks, isBlank b = true) :
    ∃ front last, pathSegments cs = front ++ [last] ∧
      pathSegments (cs ++ blanks) = front ++ [last ++ blanks] := by
  fun_induction pathSegments cs with
  | case1 => exact ⟨[], [], rfl, pathSegments_blanks h⟩
  | case2 cs ih =>
    obtain ⟨front, last, hcs, happend⟩ := ih
    refine ⟨[] :: front, last, by rw [hcs]; rfl, ?_⟩
    rw [List.cons_append, List.cons_append, pathSegments, happend]
    rfl
  | case3 c cs hc ih =>
    obtain ⟨front, last, hcs, happend⟩ := ih
    have hcons : ¬ [':', ':'] <+: c :: (cs ++ blanks) := by
      rintro ⟨rest, hrest⟩
      simp only [List.cons_append, List.nil_append, List.cons.injEq] at hrest
      obtain ⟨rfl, hrest⟩ := hrest
      cases cs with
      | nil =>
        have hcolon : ':' ∈ blanks := by
          rw [← List.nil_append blanks, ← hrest]
          exact List.mem_cons_self
        exact ne_colon_of_isBlank (h ':' hcolon) rfl
      | cons d ds =>
        simp only [List.cons_append, List.cons.injEq] at hrest
        exact hc ds rfl (by rw [hrest.1])
    rw [List.cons_append, pathSegments_cons hcons, happend, hcs]
    cases front with
    | nil => exact ⟨[], c :: last, rfl, rfl⟩
    | cons first front => exact ⟨(c :: first) :: front, last, rfl, rfl⟩

/-- Blanks in front of a path do not change its trimmed segments. -/
theorem map_trim_pathSegments_blanks_append {blanks : List Char} (cs : List Char)
    (h : ∀ b ∈ blanks, isBlank b = true) :
    (pathSegments (blanks ++ cs)).map trim = (pathSegments cs).map trim := by
  induction blanks with
  | nil => rfl
  | cons b blanks ih =>
    obtain ⟨hb, hblanks⟩ := List.forall_mem_cons.1 h
    rw [← ih hblanks, List.cons_append, pathSegments_cons (not_colons_isPrefix hb _)]
    cases pathSegments (blanks ++ cs) with
    | nil => rfl
    | cons first rest => simp [trim_cons_blank first hb]

/-- **A path has the same trimmed segments with and without the blanks around it.** -/
theorem map_trim_pathSegments_trim (cs : List Char) :
    (pathSegments (trim cs)).map trim = (pathSegments cs).map trim := by
  obtain ⟨before, behind, hcs, hbefore, hbehind⟩ := exists_trim cs
  obtain ⟨front, last, htrim, happend⟩ := exists_pathSegments_append_blanks (trim cs) hbehind
  have hwhole : (pathSegments (trim cs ++ behind)).map trim = (pathSegments cs).map trim := by
    conv_rhs => rw [hcs, List.append_assoc]
    exact (map_trim_pathSegments_blanks_append _ hbefore).symm
  rw [← hwhole, htrim, happend]
  simp [trim_append_blanks last hbehind]

/-! ### Segments of a path -/

theorem infix_intercalate {sep xs : List Char} {xss : List (List Char)} (h : xs ∈ xss) :
    xs <:+: List.intercalate sep xss := by
  induction xss with
  | nil => cases h
  | cons ys xss ih =>
    cases xss with
    | nil =>
      rw [List.mem_singleton.1 h, List.intercalate_singleton]
    | cons zs xss =>
      rw [List.intercalate_cons_cons]
      rcases List.mem_cons.1 h with rfl | h
      · rw [List.append_assoc]
        exact (List.prefix_append xs _).isInfix
      · exact (ih h).trans (List.suffix_append _ _).isInfix

theorem mem_of_mem_intercalate {sep : List Char} {xss : List (List Char)} {c : Char}
    (h : c ∈ List.intercalate sep xss) : c ∈ sep ∨ ∃ xs ∈ xss, c ∈ xs := by
  induction xss with
  | nil => cases h
  | cons xs xss ih =>
    cases xss with
    | nil =>
      rw [List.intercalate_singleton] at h
      exact .inr ⟨xs, List.mem_cons_self, h⟩
    | cons ys xss =>
      rw [List.intercalate_cons_cons, List.mem_append, List.mem_append] at h
      rcases h with (h | h) | h
      · exact .inr ⟨xs, List.mem_cons_self, h⟩
      · exact .inl h
      · rcases ih h with hsep | ⟨zs, hzs, hc⟩
        · exact .inl hsep
        · exact .inr ⟨zs, List.mem_cons_of_mem _ hzs, hc⟩

theorem mem_of_mem_pathSegments {cs s : List Char} {c : Char} (hs : s ∈ pathSegments cs)
    (hc : c ∈ s) : c ∈ cs := by
  rw [← joinPath_pathSegments cs]
  exact (infix_intercalate hs).subset hc

/-- There is no double colon within a segment. -/
theorem not_colons_infix_of_mem_pathSegments {cs s : List Char} (hs : s ∈ pathSegments cs) :
    ¬ [':', ':'] <:+: s := by
  fun_induction pathSegments cs generalizing s with
  | case1 => simp [List.mem_singleton.1 hs]
  | case2 cs ih =>
    rcases List.mem_cons.1 hs with rfl | hs
    · simp
    · exact ih hs
  | case3 c cs hcolons ih =>
    obtain ⟨t, ts, ht⟩ := List.exists_cons_of_ne_nil (pathSegments_ne_nil cs)
    rw [ht] at ih hs
    rcases List.mem_cons.1 hs with rfl | hs
    · rw [List.infix_cons_iff, not_or]
      refine ⟨?_, ih List.mem_cons_self⟩
      rintro ⟨rest, hrest⟩
      simp only [List.cons_append, List.nil_append, List.cons.injEq] at hrest
      obtain ⟨rfl, rfl⟩ := hrest
      -- The text goes on as its first segment does, so it would begin with a double colon.
      have htext : joinPath ((':' :: rest) :: ts) = cs := by rw [← ht, joinPath_pathSegments]
      obtain ⟨more, hmore⟩ : ∃ more, cs = ':' :: more := by
        cases ts with
        | nil => exact ⟨rest, by rw [← htext, joinPath, List.intercalate_singleton]⟩
        | cons u us => exact ⟨_, by rw [← htext, joinPath, List.intercalate_cons_cons]; rfl⟩
      exact hcolons more rfl hmore
    · exact ih (List.mem_cons_of_mem _ hs)

section

variable {s rest name : List Char} {segments : List (List Char)}

@[simp] theorem joinPath_nil : joinPath [] = [] := rfl

@[simp] theorem joinPath_singleton (s : List Char) : joinPath [s] = s :=
  List.intercalate_singleton

theorem joinPath_cons (s : List Char) (h : segments ≠ []) :
    joinPath (s :: segments) = s ++ ':' :: ':' :: joinPath segments := by
  obtain ⟨t, ts, rfl⟩ := List.exists_cons_of_ne_nil h
  simp [joinPath, List.intercalate_cons_cons]

theorem joinPath_concat (h : segments ≠ []) (name : List Char) :
    joinPath (segments ++ [name]) = joinPath segments ++ ':' :: ':' :: name := by
  induction segments with
  | nil => exact absurd rfl h
  | cons s ss ih =>
    cases ss with
    | nil => simp [joinPath_cons]
    | cons t ts =>
      rw [List.cons_append, joinPath_cons s (by simp), ih (List.cons_ne_nil t ts),
        joinPath_cons s (List.cons_ne_nil t ts), List.append_assoc]
      rfl

/-- A text without colons is a single segment. -/
theorem pathSegments_of_notMem (h : ':' ∉ s) : pathSegments s = [s] := by
  induction s with
  | nil => rfl
  | cons c cs ih =>
    obtain ⟨hc, hcs⟩ := not_or.1 (mt List.mem_cons.2 h)
    rw [pathSegments_cons fun hcolons => hc (List.cons_prefix_cons.1 hcolons).1, ih hcs]
    rfl

/-- A text without colons in front of a double colon is the first segment. -/
theorem pathSegments_append_colons (h : ':' ∉ s) :
    pathSegments (s ++ ':' :: ':' :: rest) = s :: pathSegments rest := by
  induction s with
  | nil => rfl
  | cons c cs ih =>
    obtain ⟨hc, hcs⟩ := not_or.1 (mt List.mem_cons.2 h)
    rw [List.cons_append, pathSegments_cons fun hcolons => hc (List.cons_prefix_cons.1 hcolons).1,
      ih hcs]
    rfl

/-- **Segments without colons are found again in their path.** -/
theorem pathSegments_joinPath (hne : segments ≠ []) (h : ∀ s ∈ segments, ':' ∉ s) :
    pathSegments (joinPath segments) = segments := by
  induction segments with
  | nil => exact absurd rfl hne
  | cons s ss ih =>
    obtain ⟨hs, hss⟩ := List.forall_mem_cons.1 h
    by_cases hnil : ss = []
    · rw [hnil, joinPath_singleton, pathSegments_of_notMem hs]
    · rw [joinPath_cons s hnil, pathSegments_append_colons hs, ih hnil hss]

/-- A path of segments without colons does not begin with a colon if no segment is empty. -/
theorem head?_joinPath_ne (h : ∀ s ∈ segments, s ≠ [] ∧ ':' ∉ s) :
    (joinPath segments).head? ≠ some ':' := by
  cases segments with
  | nil => simp
  | cons s ss =>
    obtain ⟨hne, hcolon⟩ := h s List.mem_cons_self
    have hhead : (joinPath (s :: ss)).head? = s.head? := by
      by_cases hnil : ss = []
      · rw [hnil, joinPath_singleton]
      · rw [joinPath_cons s hnil, List.head?_append_of_ne_nil _ hne]
    rw [hhead]
    exact fun hfirst => hcolon (List.mem_of_mem_head? hfirst)

/-- What stands before a double colon is found again if there is no double colon in it. The text
behind must not begin with a colon, or the double colon could stand one place further right. -/
theorem append_colons_inj {x y more : List Char} (hx : ¬ [':', ':'] <:+: x) (hs : ':' ∉ s)
    (hmore : more.head? ≠ some ':') (h : x ++ ':' :: ':' :: y = s ++ ':' :: ':' :: more) :
    x = s ∧ y = more := by
  rcases List.append_eq_append_iff.1 h with ⟨z, hz, hy⟩ | ⟨z, hz, hy⟩
  · cases z with
    | nil => simp_all
    | cons c z =>
      -- The first double colon would begin within `s`.
      simp only [List.cons_append, List.cons.injEq] at hy
      exact absurd (by simp [hz, ← hy.1]) hs
  · match z with
    | [] => simp_all
    | [c] =>
      simp only [List.cons_append, List.nil_append, List.cons.injEq] at hy
      exact absurd (by rw [hy.2.2]; rfl) hmore
    | c :: d :: z =>
      simp only [List.cons_append, List.cons.injEq] at hy
      obtain ⟨rfl, rfl, -⟩ := hy
      exact absurd ⟨s, z, by rw [hz]; simp⟩ hx

/-- **A path has no other segments than those that it is made of**, if these have no colons and the
others no double colon. -/
theorem joinPath_inj {xs : List (List Char)} (hxs : ∀ x ∈ xs, x ≠ [] ∧ ¬ [':', ':'] <:+: x)
    (hsegments : ∀ s ∈ segments, s ≠ [] ∧ ':' ∉ s) (h : joinPath xs = joinPath segments) :
    xs = segments := by
  induction xs generalizing segments with
  | nil =>
    cases segments with
    | nil => rfl
    | cons s ss =>
      have hs := (hsegments s List.mem_cons_self).1
      by_cases hnil : ss = []
      · exact absurd (by simpa [hnil] using h.symm) hs
      · simp [joinPath_cons s hnil] at h
  | cons x xs ih =>
    obtain ⟨⟨hx, hcolons⟩, hrest⟩ := List.forall_mem_cons.1 hxs
    cases segments with
    | nil =>
      by_cases hnil : xs = []
      · exact absurd (by simpa [hnil] using h) hx
      · simp [joinPath_cons x hnil] at h
    | cons s ss =>
      obtain ⟨⟨hs, hcolon⟩, hss⟩ := List.forall_mem_cons.1 hsegments
      by_cases hxnil : xs = []
      · by_cases hsnil : ss = []
        · simpa [hxnil, hsnil] using h
        · rw [hxnil, joinPath_singleton, joinPath_cons s hsnil] at h
          exact absurd ⟨s, joinPath ss, by rw [h]; simp⟩ hcolons
      · rw [joinPath_cons x hxnil] at h
        by_cases hsnil : ss = []
        · rw [hsnil, joinPath_singleton] at h
          exact absurd (by simp [← h]) hcolon
        · rw [joinPath_cons s hsnil] at h
          obtain ⟨rfl, hjoin⟩ := append_colons_inj hcolons hcolon (head?_joinPath_ne hss) h
          rw [ih hrest hss hjoin]

/-- A name without colons behind a path is cut off. -/
theorem cutLastSegment_joinPath (hne : segments ≠ []) (h : ':' ∉ name) :
    cutLastSegment (joinPath (segments ++ [name])) = some (joinPath segments, name) := by
  refine cutLastSegment_eq_some_iff.2 ⟨joinPath_concat hne name, fun hcolons => ?_⟩
  rcases List.infix_cons_iff.1 hcolons with hfirst | hbehind
  · exact h ((List.cons_prefix_cons.1 hfirst).2.subset List.mem_cons_self)
  · exact h (hbehind.subset List.mem_cons_self)

/-- A text without colons is not cut. -/
theorem cutLastSegment_of_notMem (h : ':' ∉ name) : cutLastSegment name = none :=
  cutLastSegment_eq_none_iff.2 fun hcolons => h (hcolons.subset List.mem_cons_self)

end

end FieldRules.Text
