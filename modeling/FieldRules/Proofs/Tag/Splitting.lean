import FieldRules.Proofs.Tag.Pieces

/-!
# Splitting joined tags

Splitting a tag and joining texts with commas undo each other. A comma behind a tag that can be split
separates it from whatever follows, because no quote is open there, and the text behind it is split
as if it stood alone: an apostrophe opens a quote behind a comma as it does at the start. And an
entry is a single piece even without the blanks around it, since a blank in front of an apostrophe
opens a quote as well. So a tag that is made of entries has these entries again.
-/

namespace FieldRules.Tag

open Text

/-- Blanks behind a separator belong to the texts that follow. -/
theorem intercalate_append_blanks (blanks first : List Char) (rest : List (List Char)) :
    (',' :: blanks).intercalate (first :: rest) =
      [','].intercalate (first :: rest.map (blanks ++ ·)) := by
  induction rest generalizing first with
  | nil => simp [List.intercalate_singleton]
  | cons next rest ih =>
    rw [List.map_cons, List.intercalate_cons_cons, List.intercalate_cons_cons, ih]
    cases rest <;> simp [List.intercalate_singleton, List.intercalate_cons_cons]

/-- Texts that are entries are the entries of the tag that joins them. -/
theorem entries_intercalate {blanks : List Char} {texts : List String}
    (hblanks : ∀ b ∈ blanks, isBlank b = true)
    (h : ∀ text ∈ texts, IsPiece false none text.toList ∧ trim text.toList = text.toList ∧
      text ≠ "") :
    entries ((String.ofList (',' :: blanks)).intercalate texts) = .ok texts := by
  rw [entries_eq_ok_iff]
  cases texts with
  | nil => exact ⟨[[]], by simp [piecesFrom], rfl⟩
  | cons first rest =>
    obtain ⟨hfirst, hrest⟩ := List.forall_mem_cons.1 h
    have hopens : opensQuote none = opensQuote (some ',') := rfl
    refine ⟨first.toList :: (rest.map String.toList).map (blanks ++ ·), ?_, ?_⟩
    · rw [String.toList_intercalate, String.toList_ofList, List.map_cons, intercalate_append_blanks]
      refine piecesFrom_intercalate hfirst.1 (List.forall_mem_map.2 (List.forall_mem_map.2 ?_))
      intro text htext
      rw [isPiece_blanks_append hblanks rfl]
      exact (isPiece_congr hopens).1 (hrest text htext).1
    · have htrims : (first.toList :: (rest.map String.toList).map (blanks ++ ·)).map trim =
          (first :: rest).map String.toList := by
        rw [List.map_cons, List.map_cons, hfirst.2.1, List.map_map, List.map_map]
        congr 1
        refine List.map_congr_left fun text htext => ?_
        exact (trim_blanks_append _ hblanks).trans (hrest text htext).2.1
      have hkept : ((first :: rest).map String.toList).filter (· ≠ []) =
          (first :: rest).map String.toList := by
        refine List.filter_eq_self.2 (List.forall_mem_map.2 fun text htext => ?_)
        simpa using (h text htext).2.2
      rw [htrims, hkept, List.map_map]
      simp [Function.comp_def]

/-- Entries are trimmed, and none is blank. -/
theorem trim_of_mem_entries {tag e : String} {es : List String} (h : entries tag = .ok es)
    (he : e ∈ es) : trim e.toList = e.toList ∧ e ≠ "" := by
  obtain ⟨pieces, -, rfl⟩ := entries_eq_ok_iff.1 h
  obtain ⟨cs, hcs, rfl⟩ := List.mem_map.1 he
  obtain ⟨hmem, hne⟩ := List.mem_filter.1 hcs
  obtain ⟨piece, -, rfl⟩ := List.mem_map.1 hmem
  rw [String.toList_ofList, Ne, String.ofList_eq_empty_iff]
  exact ⟨trim_trim piece, by simpa using hne⟩

/-- A trimmed piece is its own only entry. -/
theorem entries_of_isPiece {text : String} (hpiece : IsPiece false none text.toList)
    (htrim : trim text.toList = text.toList) (hne : text ≠ "") : entries text = .ok [text] := by
  rw [entries_eq_ok_iff]
  exact ⟨[text.toList], hpiece, by simp [htrim, hne]⟩

/-- A comma behind a tag separates its entries from those of the text that follows. -/
theorem entries_append_comma_eq_ok_iff {a b : String} {es gs : List String}
    (h : entries a = .ok es) :
    entries (a ++ "," ++ b) = .ok gs ↔ ∃ fs, entries b = .ok fs ∧ gs = es ++ fs := by
  obtain ⟨pieces, hpieces, rfl⟩ := entries_eq_ok_iff.1 h
  have hopens : opensQuote (some ',') = opensQuote none := rfl
  have htext : (a ++ "," ++ b).toList = a.toList ++ ',' :: b.toList := by simp
  have hsplit : piecesFrom false none (a ++ "," ++ b).toList =
      (piecesFrom false none b.toList).map (pieces ++ ·) := by
    rw [htext, piecesFrom_append_comma _ hpieces, piecesFrom_congr hopens]
  simp only [entries_eq_ok_iff, hsplit, Option.map_eq_some_iff]
  constructor
  · rintro ⟨_, ⟨more, hmore, rfl⟩, rfl⟩
    exact ⟨_, ⟨more, hmore, rfl⟩, by simp⟩
  · rintro ⟨_, ⟨more, hmore, rfl⟩, rfl⟩
    exact ⟨_, ⟨more, hmore, rfl⟩, by simp⟩

/-- **Splitting distributes over commas.** Behind a tag that can be split, a comma and another text
add the entries of that text, and nothing is split if that text cannot be. Every entry is trimmed,
not empty, and its own only entry, so that the entries joined by commas are the entries again. -/
theorem entries_append_comma {a : String} {es : List String} (h : entries a = .ok es) :
    (∀ b gs, entries (a ++ "," ++ b) = .ok gs ↔ ∃ fs, entries b = .ok fs ∧ gs = es ++ fs) ∧
      (∀ e ∈ es, e ≠ "" ∧ trimmed e = e ∧ entries e = .ok [e]) ∧
        entries (",".intercalate es) = .ok es := by
  have hpiece : ∀ e ∈ es, IsPiece false none e.toList := by
    intro e he
    exact isPiece_of_mem_entries h he rfl
  refine ⟨fun b gs => entries_append_comma_eq_ok_iff h, ?_, ?_⟩
  · intro e he
    obtain ⟨htrim, hne⟩ := trim_of_mem_entries h he
    refine ⟨hne, ?_, entries_of_isPiece (hpiece e he) htrim hne⟩
    rw [trimmed, htrim, String.ofList_toList]
  · refine entries_intercalate (List.forall_mem_nil _) fun e he => ?_
    exact ⟨hpiece e he, trim_of_mem_entries h he⟩

/-- An apostrophe at the start of the second tag, where it opens a quote. -/
theorem notes_append_comma :
    entries "eq=o'neil ,, in= 'a,b'" = .ok ["eq=o'neil", "in= 'a,b'"] ∧
      entries ("eq=o'neil ,, in= 'a,b'" ++ "," ++ "'x, y' , email") =
        .ok ["eq=o'neil", "in= 'a,b'", "'x, y'", "email"] ∧
      entries "eq=o'neil,in= 'a,b'" = .ok ["eq=o'neil", "in= 'a,b'"] := by
  have hfirst : entries "eq=o'neil ,, in= 'a,b'" = .ok ["eq=o'neil", "in= 'a,b'"] := by decide
  have hsecond : entries "'x, y' , email" = .ok ["'x, y'", "email"] := by decide
  refine ⟨hfirst, ?_, (entries_append_comma hfirst).2.2⟩
  exact ((entries_append_comma hfirst).1 _ _).2 ⟨_, hsecond, rfl⟩

end FieldRules.Tag
