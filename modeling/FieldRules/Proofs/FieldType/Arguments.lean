import FieldRules.Proofs.FieldType.Spelling
import FieldRules.Proofs.Traversal

/-!
# Several arguments

Arguments with commas between them are taken apart into the same arguments (`arguments_split`). What
an argument can be is said by counting its brackets (`IsSingleArgument`). Nothing more is asked of
them: a bracket may be closed by one of another kind, or before it is opened, since only the numbers
decide which commas separate. And an argument ends at the comma behind it, whatever follows, so that
the first one does not depend on the others: it alone decides what a dictionary is taken for.
-/

namespace FieldRules.FieldType

open Text

variable {text : List Char}

/-! ### Counting brackets -/

/-- The number of brackets that a text opens. -/
def openings (text : List Char) : Nat :=
  text.countP fun c => c = '<' ∨ c = '(' ∨ c = '['

/-- The number of brackets that it closes. -/
def closings (text : List Char) : Nat :=
  text.countP fun c => c = '>' ∨ c = ')' ∨ c = ']'

theorem depthStep_eq (c : Char) : depthStep c = openings [c] - closings [c] := by
  unfold depthStep
  split_ifs with hopen hclose
  · rcases hopen with rfl | rfl | rfl <;> rfl
  · rcases hclose with rfl | rfl | rfl <;> rfl
  · simp [openings, closings, hopen, hclose]

/-- The depth is how many more brackets are opened than closed. -/
theorem depth_eq (text : List Char) : depth text = openings text - closings text := by
  induction text with
  | nil => rfl
  | cons c text ih =>
    have hopenings : openings (c :: text) = openings [c] + openings text :=
      @List.countP_append _ _ [c] text
    have hclosings : closings (c :: text) = closings [c] + closings text :=
      @List.countP_append _ _ [c] text
    rw [depth_cons, ih, depthStep_eq, hopenings, hclosings]
    omega

theorem depth_eq_zero_iff : depth text = 0 ↔ openings text = closings text := by
  rw [depth_eq]
  omega

/-! ### One argument -/

/-- A text that can be one of several arguments: it is not blank, as many brackets are closed in it
as are opened, and in front of its commas they are not as many. -/
structure IsSingleArgument (text : List Char) : Prop where
  not_blank : ∃ c ∈ text, isBlank c = false
  balanced : openings text = closings text
  comma_inside : ∀ before behind, text = before ++ ',' :: behind →
    openings before ≠ closings before

theorem isSingleArgument_iff : IsSingleArgument text ↔ trim text ≠ [] ∧ IsKey text := by
  constructor
  · rintro ⟨hblank, hbalanced, hcomma⟩
    refine ⟨trim_ne_nil_iff.2 hblank, depth_eq_zero_iff.2 hbalanced, ?_⟩
    intro before behind htext
    exact mt depth_eq_zero_iff.1 (hcomma before behind htext)
  · rintro ⟨hblank, hdepth, hcomma⟩
    refine ⟨trim_ne_nil_iff.1 hblank, depth_eq_zero_iff.1 hdepth, ?_⟩
    intro before behind htext
    exact mt depth_eq_zero_iff.2 (hcomma before behind htext)

instance : DecidablePred IsSingleArgument :=
  fun _ => decidable_of_iff' _ isSingleArgument_iff

/-! ### All arguments -/

/-- Keys with commas between them are taken apart into the same keys. -/
theorem topLevelPieces_intercalate {first : List Char} {others : List (List Char)}
    (h : ∀ key ∈ first :: others, IsKey key) :
    topLevelPieces 0 ([','].intercalate (first :: others)) = first :: others := by
  induction others generalizing first with
  | nil =>
    have hsingle := @topLevelPieces_key [] first (h first List.mem_cons_self)
    rw [List.append_nil] at hsingle
    rw [List.intercalate_singleton, hsingle, topLevelPieces]
    simp
  | cons second others ih =>
    obtain ⟨hfirst, hothers⟩ := List.forall_mem_cons.1 h
    rw [List.intercalate_cons_cons, List.append_assoc, List.singleton_append,
      topLevelPieces_key_comma hfirst, ih hothers]

/-- Trimmed, they are the arguments, since only a blank one at the end would be dropped. -/
theorem splitArguments_intercalate {first : List Char} {others : List (List Char)}
    (hkeys : ∀ key ∈ first :: others, IsKey key)
    (hblank : ∀ key ∈ first :: others, trim key ≠ []) :
    splitArguments ([','].intercalate (first :: others)) = (first :: others).map trim := by
  have hlast : ((first :: others).map trim).getLast? ≠ some [] := by
    intro hlast
    obtain ⟨key, hkey, htrim⟩ := List.mem_map.1 (List.mem_of_getLast? hlast)
    exact hblank key hkey htrim
  rw [splitArguments, topLevelPieces_intercalate hkeys]
  exact if_neg hlast

/-- **Arguments with commas between them are taken apart into the same arguments**, without the
blanks around them. The first one is found even if anything at all stands behind its comma. -/
theorem arguments_split {first : List Char} {others : List (List Char)}
    (harguments : ∀ text ∈ first :: others, IsSingleArgument text) :
    (∀ padded, List.Forall₂ Padded (first :: others) padded →
      splitArguments ([','].intercalate padded) = (first :: others).map trim) ∧
    ∀ padded rest, Padded first padded →
      (splitArguments (padded ++ ',' :: rest)).head? = some (trim first) := by
  have hkeys : ∀ text ∈ first :: others, trim text ≠ [] ∧ IsKey text :=
    fun text htext => isSingleArgument_iff.1 (harguments text htext)
  constructor
  · intro padded hpadded
    have htrims : (first :: others).map trim = padded.map trim :=
      map_eq_map_of_forall₂ hpadded fun _ _ h => h.trim_eq_trim.symm
    -- The blanks count as part of the texts until these are trimmed.
    have heach : ∀ text ∈ padded, trim text ≠ [] ∧ IsKey text := by
      intro text htext
      obtain ⟨argument, hargument, h⟩ := forall₂_mem_right hpadded htext
      obtain ⟨hblank, hkey⟩ := hkeys argument hargument
      rw [h.trim_eq_trim]
      exact ⟨hblank, hkey.padded h⟩
    rw [htrims]
    cases hpadded with
    | cons _ _ =>
      exact splitArguments_intercalate (fun text htext => (heach text htext).2)
        fun text htext => (heach text htext).1
  · intro padded rest hpadded
    exact head?_splitArguments hpadded (hkeys first List.mem_cons_self).2

/-- Commas inside of brackets, once of brackets that are closed before they are opened; and brackets
behind the first argument that no other brackets belong to. -/
theorem mixed_arguments_split :
    splitArguments " fn(u8, i8)\t,HashMap<String, [u8; 2]> , >,<".toList =
        ["fn(u8, i8)".toList, "HashMap<String, [u8; 2]>".toList, ">,<".toList] ∧
      (splitArguments "\tfn(u8, i8) ,)>,[, ".toList).head? = some "fn(u8, i8)".toList := by
  have hall := @arguments_split "fn(u8, i8)".toList
    ["HashMap<String, [u8; 2]>".toList, " >,<".toList] (by decide +kernel)
  have htrims : ["fn(u8, i8)".toList, "HashMap<String, [u8; 2]>".toList, " >,<".toList].map trim =
      ["fn(u8, i8)".toList, "HashMap<String, [u8; 2]>".toList, ">,<".toList] := by
    decide +kernel
  have htrim : trim "fn(u8, i8)".toList = "fn(u8, i8)".toList := by decide +kernel
  rw [htrims, htrim] at hall
  obtain ⟨hsplit, hfirst⟩ := hall
  have hspace : ∀ b ∈ [' '], isBlank b = true := List.forall_mem_singleton.2 rfl
  have htab : ∀ b ∈ ['\t'], isBlank b = true := List.forall_mem_singleton.2 rfl
  have hnone : ∀ b ∈ ([] : List Char), isBlank b = true := List.forall_mem_nil _
  constructor
  · refine hsplit [" fn(u8, i8)\t".toList, "HashMap<String, [u8; 2]> ".toList, " >,<".toList] ?_
    refine .cons ⟨_, _, hspace, htab, ?_⟩ (.cons ⟨_, _, hnone, hspace, ?_⟩
      (.cons ⟨_, _, hnone, hnone, ?_⟩ .nil))
    all_goals decide +kernel
  · exact hfirst "\tfn(u8, i8) ".toList ")>,[, ".toList ⟨_, _, htab, hspace, by decide +kernel⟩

end FieldRules.FieldType
