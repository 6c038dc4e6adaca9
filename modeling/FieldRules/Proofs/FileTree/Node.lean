import FieldRules.FileTree

/-!
# What a change of a tree leaves as it is

`Node.put` sets a node in a tree. What the names of the node lead to is then that node, its siblings
are what they were, and a directory stays a directory unless the node takes its place. The last
property is all that a walk through the tree depends on.
-/

namespace FieldRules

namespace Node

/-! ### Entries -/

theorem lookup_putEntry_self {name : String} {node : Node} {entries : List (String × Node)} :
    (putEntry name node entries).lookup name = some node := List.lookup_cons_self

theorem lookup_putEntry_of_ne {name other : String} {node : Node}
    {entries : List (String × Node)} (h : other ≠ name) :
    (putEntry name node entries).lookup other = entries.lookup other := by
  have hfilter : (entries.filter (·.1 != name)).lookup other = entries.lookup other := by
    induction entries with
    | nil => rfl
    | cons entry entries ih =>
      obtain ⟨n, inner⟩ := entry
      by_cases hn : n = name
      · have hother : (other == n) = false := by simpa [hn] using h
        simp [hn, ih, List.lookup_cons, hn ▸ hother]
      · simp [hn, ih, List.lookup_cons]
  have hname : (other == name) = false := by simpa using h
  rw [putEntry, List.lookup_cons, hname]
  exact hfilter

/-! ### Places -/

theorem find?_append {node : Node} {names more : List String} :
    node.find? (names ++ more) = (node.find? names).bind (·.find? more) := by
  induction names generalizing node with
  | nil => rfl
  | cons name names ih =>
    rw [List.cons_append, find?, find?]
    cases node.child? name with
    | none => rfl
    | some inner => exact ih

/-- What a name leads to behind a directory is the entry of that name. -/
theorem find?_append_name {node : Node} {place : List String} {entries : List (String × Node)}
    {name : String} (h : node.find? place = some (.directory entries)) :
    node.find? (place ++ [name]) = entries.lookup name := by
  rw [find?_append, h, Option.bind_some, find?, child?]
  cases entries.lookup name <;> rfl

/-- Only a directory has something in it. -/
theorem exists_directory_of_find?_cons {node found : Node} {name : String} {names : List String}
    (h : node.find? (name :: names) = some found) :
    ∃ entries inner, node = .directory entries ∧ entries.lookup name = some inner ∧
      inner.find? names = some found := by
  cases node with
  | directory entries =>
    rw [find?, child?] at h
    cases hinner : entries.lookup name with
    | none => simp [hinner] at h
    | some inner =>
      rw [hinner] at h
      exact ⟨entries, inner, rfl, hinner, h⟩
  | text s => cases h
  | binary => cases h
  | null => cases h

/-- The entries of the directory that something is put into; a file counts as an empty one. -/
def entriesOf : Node → List (String × Node)
  | .directory entries => entries
  | _ => []

theorem put_cons {node new : Node} {name : String} {names : List String} :
    node.put (name :: names) new =
      .directory (putEntry name
        (((node.entriesOf.lookup name).getD (.directory [])).put names new) node.entriesOf) := by
  cases node <;> rfl

/-- What is put at a place is there. -/
theorem find?_put_text {node : Node} {place : List String} {s : String} :
    (node.put place (.text s)).find? place = some (.text s) := by
  induction place generalizing node with
  | nil => cases node <;> rfl
  | cons name names ih =>
    rw [put_cons, find?, child?, lookup_putEntry_self]
    exact ih

/-- What stands beside the place is as it was. -/
theorem find?_put_sibling {node new : Node} {above : List String} {name other : String}
    (h : other ≠ name) :
    (node.put (above ++ [name]) new).find? (above ++ [other]) = node.find? (above ++ [other]) := by
  induction above generalizing node with
  | nil =>
    rw [List.nil_append, List.nil_append, put_cons, find?, child?, lookup_putEntry_of_ne h]
    cases node <;> rfl
  | cons outer above ih =>
    rw [List.cons_append, List.cons_append, put_cons, find?, child?, lookup_putEntry_self]
    show (Node.put _ (above ++ [name]) new).find? (above ++ [other]) = _
    rw [ih, find?]
    cases node with
    | directory entries =>
      show ((entries.lookup outer).getD (.directory [])).find? _ = _
      cases hinner : entries.lookup outer with
      | none => cases above <;> simp [child?, hinner, find?]
      | some inner => simp [child?, hinner]
    | text s => cases above <;> rfl
    | binary => cases above <;> rfl
    | null => cases above <;> rfl

/-- A directory at some place. -/
def IsDirectory (node : Node) (place : List String) : Prop :=
  ∃ entries, node.find? place = some (.directory entries)

/-- Unless it is in place of a directory, what is put into a tree leaves the directories there. -/
theorem IsDirectory.put {node new : Node} {place other : List String}
    (h : node.IsDirectory other) (hplace : ¬ node.IsDirectory place) :
    (node.put place new).IsDirectory other := by
  induction place generalizing node other with
  | nil =>
    obtain ⟨entries, hentries⟩ := h
    cases other with
    | nil => exact absurd ⟨entries, hentries⟩ hplace
    | cons name names =>
      obtain ⟨es, inner, rfl, -, -⟩ := exists_directory_of_find?_cons hentries
      exact absurd ⟨es, rfl⟩ hplace
  | cons name names ih =>
    rw [put_cons]
    cases other with
    | nil => exact ⟨_, rfl⟩
    | cons first rest =>
      obtain ⟨entries, hentries⟩ := h
      obtain ⟨es, inner, rfl, hinner, hrest⟩ := exists_directory_of_find?_cons hentries
      by_cases hfirst : first = name
      · subst hfirst
        have hinside : ¬ inner.IsDirectory names := by
          rintro ⟨es', hes'⟩
          refine hplace ⟨es', ?_⟩
          rw [find?, child?, hinner]
          exact hes'
        obtain ⟨es', hes'⟩ := ih ⟨entries, hrest⟩ hinside
        refine ⟨es', ?_⟩
        rw [find?, child?, lookup_putEntry_self]
        simpa [entriesOf, hinner] using hes'
      · refine ⟨entries, ?_⟩
        rw [find?, child?, lookup_putEntry_of_ne hfirst]
        simpa [entriesOf, hinner] using hrest

end Node

end FieldRules
