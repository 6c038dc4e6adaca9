import FieldRules.Proofs.Scope.References
import FieldRules.Proofs.Text.Path

/-!
# Packages and paths as segments

A package is a sequence of segments, the root being the empty one, and it can be written with or
without `crate` in front of them (`SpellsPackage`). Either way it has the same key. Here the packages
that a path can mean are computed from the segments of both, one lemma for each word that a path can
begin with, and with them the lookup of a reference that is a path.
-/

namespace FieldRules

open Text

/-- The words that stand for a place in a path, and not for a package. -/
def pathWords : List (List Char) :=
  ["crate".toList, "self".toList, "super".toList]

/-- An identifier, as far as paths are concerned: it is not empty, and neither colons nor blanks are
in it. -/
def IsIdentifier (cs : List Char) : Prop :=
  cs ≠ [] ∧ ∀ c ∈ cs, c ≠ ':' ∧ isBlank c = false

instance : DecidablePred IsIdentifier := fun cs =>
  decidable_of_iff (cs ≠ [] ∧ (cs.all fun c => c != ':' && !isBlank c) = true)
    (by simp [IsIdentifier])

/-- A segment of a package: an identifier that is not one of the words. -/
def IsSegment (cs : List Char) : Prop :=
  IsIdentifier cs ∧ cs ∉ pathWords

instance : DecidablePred IsSegment := fun cs =>
  inferInstanceAs (Decidable (IsIdentifier cs ∧ cs ∉ pathWords))

/-- The text of a path. -/
def pathText (segments : List (List Char)) : String :=
  String.ofList (joinPath segments)

/-- The package with the segments is written so. -/
structure SpellsPackage (segments : List (List Char)) (package : String) : Prop where
  isSegment : ∀ s ∈ segments, IsSegment s
  /-- The path of the segments, with or without `crate` in front. -/
  text : package = pathText segments ∨ package = pathText ("crate".toList :: segments)

variable {s name : List Char} {path segments : List (List Char)} {package : String}

/-! ### Segments -/

theorem IsIdentifier.colon_notMem (h : IsIdentifier s) : ':' ∉ s :=
  fun hcolon => (h.2 ':' hcolon).1 rfl

theorem IsIdentifier.trim_eq (h : IsIdentifier s) : trim s = s :=
  trim_eq_self fun c hc => (h.2 c hc).2

/-- The words are identifiers. -/
theorem isIdentifier_of_mem_pathWords (h : s ∈ pathWords) : IsIdentifier s := by
  have hall : ∀ s ∈ pathWords, IsIdentifier s := by decide +kernel
  exact hall s h

theorem isIdentifier_crate : IsIdentifier "crate".toList :=
  isIdentifier_of_mem_pathWords (by decide +kernel)

/-- There are no blanks in a path of identifiers. -/
theorem trim_joinPath (h : ∀ s ∈ segments, IsIdentifier s) :
    trim (joinPath segments) = joinPath segments := by
  refine trim_eq_self fun c hc => ?_
  rcases mem_of_mem_intercalate hc with hcolon | ⟨s, hs, hc⟩
  · obtain rfl : c = ':' := by simpa using hcolon
    rfl
  · exact ((h s hs).2 c hc).2

theorem map_trim_eq (h : ∀ s ∈ path, IsIdentifier s) : path.map trim = path := by
  rw [List.map_congr_left fun s hs => (h s hs).trim_eq, List.map_id']

/-- The segments of a path of identifiers. -/
theorem pathSegments_of_identifiers (hne : path ≠ []) (h : ∀ s ∈ path, IsIdentifier s) :
    pathSegments (joinPath path) = path :=
  pathSegments_joinPath hne fun s hs => (h s hs).colon_notMem

theorem joinSegments_of_identifiers (h : ∀ s ∈ path, IsIdentifier s) :
    TypeIndex.joinSegments path = joinPath path := by
  rw [TypeIndex.joinSegments, List.filter_eq_self.2 fun s hs => by simpa using (h s hs).1]

/-! ### Packages -/

namespace SpellsPackage

theorem isIdentifier (h : SpellsPackage segments package) : ∀ s ∈ segments, IsIdentifier s :=
  fun s hs => (h.isSegment s hs).1

/-- A package does not begin with `crate` of its own. -/
theorem not_crate_isPrefix (h : SpellsPackage segments package) :
    joinPath segments ≠ "crate".toList ∧ ¬ "crate::".toList <+: joinPath segments := by
  have hcrate : "crate".toList ∉ segments := fun hmem =>
    (h.isSegment _ hmem).2 List.mem_cons_self
  have hfirst : (pathSegments (joinPath segments)).head? ≠ some "crate".toList := by
    by_cases hnil : segments = []
    · rw [hnil]
      decide
    · rw [pathSegments_of_identifiers hnil h.isIdentifier]
      exact fun hhead => hcrate (List.mem_of_mem_head? hhead)
  constructor
  · intro heq
    rw [heq] at hfirst
    exact hfirst (by decide)
  · rintro ⟨rest, hrest⟩
    rw [← hrest] at hfirst
    have hcut : pathSegments ("crate".toList ++ ':' :: ':' :: rest) =
        "crate".toList :: pathSegments rest :=
      pathSegments_append_colons isIdentifier_crate.colon_notMem
    exact hfirst (congrArg List.head? hcut)

/-- **Both spellings of a package have the same key.** -/
theorem packageKey_eq (h : SpellsPackage segments package) :
    packageKey package = pathText segments := by
  obtain ⟨hne, hprefix⟩ := h.not_crate_isPrefix
  unfold packageKey
  rcases h.text with rfl | rfl
  · rw [pathText, String.toList_ofList, trim_joinPath h.isIdentifier]
    have hnone : "crate::".toList.isPrefixOf? (joinPath segments) = none := by
      rw [Option.eq_none_iff_forall_ne_some]
      intro rest hrest
      exact hprefix ⟨rest, List.isPrefixOf?_eq_some_iff_append_eq.1 hrest⟩
    simp only [if_neg hne, hnone, Option.getD_none]
  · have htrim : trim (joinPath ("crate".toList :: segments)) =
        joinPath ("crate".toList :: segments) :=
      trim_joinPath (List.forall_mem_cons.2 ⟨isIdentifier_crate, h.isIdentifier⟩)
    rw [pathText, String.toList_ofList, htrim]
    by_cases hnil : segments = []
    · rw [hnil]
      rfl
    · rw [joinPath_cons _ hnil]
      rfl

/-- The key of a package has its segments. The root has the empty text, which is one empty segment. -/
theorem pathSegments_packageKey (h : SpellsPackage segments package) :
    pathSegments (packageKey package).toList = if segments = [] then [[]] else segments := by
  rw [h.packageKey_eq, pathText, String.toList_ofList]
  split_ifs with hnil
  · rw [hnil]
    rfl
  · exact pathSegments_of_identifiers hnil h.isIdentifier

end SpellsPackage

/-! ### Walks through packages -/

namespace TypeIndex

/-- A walk along segments goes down one package after the other. -/
theorem foldl_walk_of_segments (h : ∀ s ∈ path, IsSegment s) (here : List (List Char)) :
    path.foldl walk here = here ++ path := by
  induction path generalizing here with
  | nil => simp
  | cons s path ih =>
    obtain ⟨⟨-, hs⟩, hpath⟩ := List.forall_mem_cons.1 h
    have hstep : walk here s = here ++ [s] := by
      simp only [pathWords, List.mem_cons, not_or] at hs
      rw [walk, if_neg hs.2.1, if_neg hs.2.2.1]
    rw [List.foldl_cons, hstep, ih hpath, List.append_assoc]
    rfl

/-- The text of the root is one empty segment. A step from it leads to the same package as a step from
the empty sequence of segments, or to one with that empty segment still in front. -/
theorem walk_root {here root : List (List Char)} (h : root = here ∨ root = [] :: here)
    (s : List Char) : walk root s = walk here s ∨ walk root s = [] :: walk here s := by
  rcases h with rfl | rfl
  · exact .inl rfl
  · unfold walk
    split_ifs
    · exact .inr rfl
    · cases here with
      | nil => exact .inl rfl
      | cons first rest => exact .inr rfl
    · exact .inr rfl

theorem foldl_walk_root {here root : List (List Char)} (h : root = here ∨ root = [] :: here)
    (path : List (List Char)) :
    path.foldl walk root = path.foldl walk here ∨
      path.foldl walk root = [] :: path.foldl walk here := by
  induction path generalizing here root with
  | nil => exact h
  | cons s path ih => exact ih (walk_root h s)

/-- **A walk starts at the segments of a package**, also at the root. -/
theorem joinSegments_walk (h : SpellsPackage segments package) (path : List (List Char)) :
    joinSegments (path.foldl walk (pathSegments (packageKey package).toList)) =
      joinSegments (path.foldl walk segments) := by
  rw [h.pathSegments_packageKey]
  split_ifs with hnil
  · rw [hnil]
    rcases foldl_walk_root (.inr rfl : [[]] = [] ∨ [[]] = [[]]) path with hwalk | hwalk
    · rw [hwalk]
    · rw [hwalk]
      simp [joinSegments]
  · rfl

/-! ### What a path can mean -/

/-- The packages that a path of identifiers can mean. -/
theorem candidatePackages_joinPath (hne : path ≠ []) (h : ∀ s ∈ path, IsIdentifier s)
    (here : List Char) :
    candidatePackages here (joinPath path) =
      if path.headD [] = "crate".toList then [joinSegments path.tail]
      else if path.headD [] = "self".toList ∨ path.headD [] = "super".toList then
        [joinSegments (path.foldl walk (pathSegments here))]
      else [joinSegments (pathSegments here ++ path), joinPath path] := by
  simp only [candidatePackages, pathSegments_of_identifiers hne h, map_trim_eq h,
    joinSegments_of_identifiers h]

section

variable (h : ∀ s ∈ path, IsIdentifier s) (here : List Char)
include h

theorem forall_mem_cons_word (hs : s ∈ pathWords) : ∀ t ∈ s :: path, IsIdentifier t :=
  List.forall_mem_cons.2 ⟨isIdentifier_of_mem_pathWords hs, h⟩

/-- A path from `crate` starts at the root. -/
theorem candidatePackages_crate :
    candidatePackages here (joinPath ("crate".toList :: path)) = [joinPath path] := by
  rw [candidatePackages_joinPath (List.cons_ne_nil _ _)
    (forall_mem_cons_word h (by decide +kernel)), List.headD_cons, if_pos rfl, List.tail_cons,
    joinSegments_of_identifiers h]

/-- A path from `self` starts at the package that it is written in. -/
theorem candidatePackages_self :
    candidatePackages here (joinPath ("self".toList :: path)) =
      [joinSegments (path.foldl walk (pathSegments here))] := by
  rw [candidatePackages_joinPath (List.cons_ne_nil _ _)
    (forall_mem_cons_word h (by decide +kernel))]
  rfl

/-- A path from `super` starts one package above it. -/
theorem candidatePackages_super :
    candidatePackages here (joinPath ("super".toList :: path)) =
      [joinSegments (path.foldl walk (pathSegments here).dropLast)] := by
  rw [candidatePackages_joinPath (List.cons_ne_nil _ _)
    (forall_mem_cons_word h (by decide +kernel))]
  rfl

end

/-- Any other path is looked for below that package, and then from the root. -/
theorem candidatePackages_segments (hne : path ≠ []) (h : ∀ s ∈ path, IsSegment s)
    (here : List Char) :
    candidatePackages here (joinPath path) =
      [joinSegments (pathSegments here ++ path), joinPath path] := by
  rw [candidatePackages_joinPath hne fun s hs => (h s hs).1]
  obtain ⟨s, rest, rfl⟩ := List.exists_cons_of_ne_nil hne
  have hs := (h s List.mem_cons_self).2
  simp only [pathWords, List.mem_cons, not_or] at hs
  rw [List.headD_cons, if_neg hs.1, if_neg (not_or.2 ⟨hs.2.1, hs.2.2.1⟩)]

/-! ### References -/

/-- A name is looked up in the package that it is written in. -/
theorem resolve_name (index : TypeIndex) (fromPackage : String) (h : IsIdentifier name) :
    index.resolve fromPackage (String.ofList name) =
      index.lookup (packageKey fromPackage) (String.ofList name) := by
  have hcut : cutLastSegment (trim (String.ofList name).toList) = none := by
    rw [String.toList_ofList, h.trim_eq, cutLastSegment_of_notMem h.colon_notMem]
  rw [resolve_eq, referenceKeys_bare hcut, List.findSome?_singleton, trimmed,
    String.toList_ofList, h.trim_eq]

/-- A name behind a path is looked up in the packages that the path can mean. -/
theorem resolve_path (index : TypeIndex) (fromPackage : String) (hne : path ≠ [])
    (hpath : ∀ s ∈ path, IsIdentifier s) (hname : IsIdentifier name) :
    index.resolve fromPackage (pathText (path ++ [name])) =
      (candidatePackages (packageKey fromPackage).toList (joinPath path)).findSome? fun package =>
        index.lookup (String.ofList package) (String.ofList name) := by
  have hall : ∀ s ∈ path ++ [name], IsIdentifier s :=
    List.forall_mem_append.2 ⟨hpath, List.forall_mem_singleton.2 hname⟩
  have hcut : cutLastSegment (trim (pathText (path ++ [name])).toList) =
      some (joinPath path, name) := by
    rw [pathText, String.toList_ofList, trim_joinPath hall,
      cutLastSegment_joinPath hne hname.colon_notMem]
  rw [resolve_eq, referenceKeys_path hcut, List.findSome?_map]
  rfl

/-- Both spellings of a package give every reference the same meaning. -/
theorem resolve_congr (index : TypeIndex) {there : String} (h : SpellsPackage segments package)
    (h' : SpellsPackage segments there) (reference : String) :
    index.resolve there reference = index.resolve package reference := by
  rw [resolve_eq, resolve_eq, referenceKeys, referenceKeys, h.packageKey_eq, h'.packageKey_eq]

end TypeIndex

end FieldRules
