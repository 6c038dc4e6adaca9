import FieldRules.Proofs.FileTree.Node
import Mathlib.Tactic.SplitIfs

/-!
# Writing a file and reading it back

What is written to a file of a directory is read back, and the other files of the directory keep
their texts. Only names without slashes are considered, so that two of them are two places. The
directory may be given by any path: the walk to it passes the same places before and after the
change, because a change keeps the directories that are there (`walk_of_keeps`).

A file that swallows what is written to it stays empty. It is recognised by what the path leads to
afterwards.
-/

namespace FieldRules

namespace FileTree

/-! ### Walks -/

/-- The way to a node: each directory was entered from the one before it. -/
inductive Reached (root : Node) : List (String × Node) → Node → Prop where
  /-- Nothing lies above the root. -/
  | root : Reached root [] root
  /-- An entry lies below its directory. -/
  | enter {above : List (String × Node)} {outer inner : Node} {name : String} :
      Reached root above outer → outer.child? name = some inner →
      Reached root ((name, outer) :: above) inner

/-- The names on the way from the root. -/
def placeOf (above : List (String × Node)) : List String :=
  (above.map (·.1)).reverse

theorem placeOf_cons {name : String} {node : Node} {above : List (String × Node)} :
    placeOf ((name, node) :: above) = placeOf above ++ [name] := by
  simp [placeOf]

/-- The name of an entry: it leads neither to the directory itself nor to the one above. -/
structure IsEntryName (name : String) : Prop where
  ne_empty : name ≠ ""
  ne_point : name ≠ "."
  ne_points : name ≠ ".."

section Steps

variable {above : List (String × Node)} {es : List (String × Node)} {names : List String}

theorem walk_stay {name : String} (h : name = "" ∨ name = ".") :
    walk above (.directory es) (name :: names) = walk above (.directory es) names :=
  if_pos h

theorem walk_up_root :
    walk [] (.directory es) (".." :: names) = walk [] (.directory es) names := rfl

theorem walk_up {name : String} {outer : Node} :
    walk ((name, outer) :: above) (.directory es) (".." :: names) = walk above outer names := rfl

theorem walk_enter {name : String} (h : IsEntryName name) :
    walk above (.directory es) (name :: names) =
      if maxNameBytes < name.utf8ByteSize then .error .nameTooLong
      else
        match es.lookup name with
        | some inner => walk ((name, .directory es) :: above) inner names
        | none => .error .notFound := by
  have hstay : ¬ (name = "" ∨ name = ".") := fun hstay => hstay.elim h.ne_empty h.ne_point
  show (if _ then _ else if _ then _ else if _ then _ else _) = _
  rw [if_neg hstay, if_neg h.ne_points]
  rfl

end Steps

variable {root root' : Node}

/-- A node is what the names on the way to it lead to. -/
theorem Reached.find? {above : List (String × Node)} {node : Node} (h : Reached root above node) :
    root.find? (placeOf above) = some node := by
  induction h with
  | root => rfl
  | enter _ hchild ih =>
    rw [placeOf_cons, Node.find?_append, ih, Option.bind_some, Node.find?, hchild]
    rfl

/-- Every directory of one tree is a directory of the other. -/
def Keeps (root root' : Node) : Prop :=
  ∀ place, root.IsDirectory place → root'.IsDirectory place

/-- At the place of a directory there is a directory in the other tree as well. -/
theorem exists_directory_of_keeps (hkeeps : Keeps root root') {above above' : List (String × Node)}
    {es : List (String × Node)} {node' : Node} (hnode : Reached root above (.directory es))
    (hnode' : Reached root' above' node') (hplace : placeOf above = placeOf above') :
    ∃ es', node' = .directory es' := by
  obtain ⟨es', hes'⟩ := hkeeps _ ⟨es, hnode.find?⟩
  rw [hplace, hnode'.find?] at hes'
  exact ⟨es', Option.some.inj hes'⟩

/-- A walk to a directory, step by step; it only meets directories. -/
inductive WalksTo : List (String × Node) → List (String × Node) → List String → List String →
    List (String × Node) → Prop where
  /-- Without names it ends where it is. -/
  | done {above es : List (String × Node)} : WalksTo above es [] (placeOf above) es
  /-- Some names lead to the directory itself. -/
  | stay {above es entries : List (String × Node)} {name : String} {names place : List String} :
      name = "" ∨ name = "." → WalksTo above es names place entries →
      WalksTo above es (name :: names) place entries
  /-- Above the root is the root. -/
  | top {es entries : List (String × Node)} {names place : List String} :
      WalksTo [] es names place entries → WalksTo [] es (".." :: names) place entries
  /-- The directory above. -/
  | up {above es outer entries : List (String × Node)} {name : String} {names place : List String} :
      WalksTo above outer names place entries →
      WalksTo ((name, .directory outer) :: above) es (".." :: names) place entries
  /-- A directory in this one. -/
  | enter {above es inner entries : List (String × Node)} {name : String}
      {names place : List String} : IsEntryName name → ¬ maxNameBytes < name.utf8ByteSize →
      es.lookup name = some (.directory inner) →
      WalksTo ((name, .directory es) :: above) inner names place entries →
      WalksTo above es (name :: names) place entries

/-- A walk that ends at a directory has only met directories. -/
theorem exists_walksTo_of_walk {above : List (String × Node)} {node : Node}
    {names place : List String} {entries : List (String × Node)}
    (h : walk above node names = .ok (place, .directory entries)) :
    ∃ es, node = .directory es ∧ WalksTo above es names place entries := by
  induction names generalizing above node with
  | nil =>
    cases h
    exact ⟨entries, rfl, .done⟩
  | cons name names ih =>
    cases node with
    | text | binary | null => cases h
    | directory es =>
      refine ⟨es, rfl, ?_⟩
      by_cases hstay : name = "" ∨ name = "."
      · rw [walk_stay hstay] at h
        obtain ⟨_, heq, hrest⟩ := ih h
        cases heq
        exact .stay hstay hrest
      by_cases hup : name = ".."
      · subst hup
        cases above with
        | nil =>
          rw [walk_up_root] at h
          obtain ⟨_, heq, hrest⟩ := ih h
          cases heq
          exact .top hrest
        | cons first =>
          obtain ⟨_, _⟩ := first
          rw [walk_up] at h
          obtain ⟨outer, heq, hrest⟩ := ih h
          cases heq
          exact .up hrest
      have hname : IsEntryName name :=
        ⟨fun h => hstay (.inl h), fun h => hstay (.inr h), hup⟩
      rw [walk_enter hname] at h
      split_ifs at h with hlong
      cases hchild : es.lookup name with
      | none =>
        rw [hchild] at h
        cases h
      | some child =>
        rw [hchild] at h
        obtain ⟨inner, rfl, hrest⟩ := ih h
        exact .enter hname hlong hchild hrest

/-- What more names lead to after a walk to a directory. -/
theorem WalksTo.walk_append {above es entries : List (String × Node)} {names place : List String}
    (h : WalksTo above es names place entries) (more : List String) :
    ∃ above', placeOf above' = place ∧
      walk above (.directory es) (names ++ more) = walk above' (.directory entries) more := by
  induction h with
  | done => exact ⟨_, rfl, rfl⟩
  | stay hstay _ ih =>
    rw [List.cons_append, walk_stay hstay]
    exact ih
  | top _ ih => exact ih
  | up _ ih => exact ih
  | enter hname hlong hchild _ ih =>
    rw [List.cons_append, walk_enter hname, if_neg hlong, hchild]
    exact ih

/-- The node at the end of a walk is the one at its place. -/
theorem WalksTo.find? {above es entries : List (String × Node)} {names place : List String}
    (h : WalksTo above es names place entries) (hnode : Reached root above (.directory es)) :
    root.find? place = some (.directory entries) := by
  induction h with
  | done => exact hnode.find?
  | stay _ _ ih => exact ih hnode
  | top _ ih => exact ih hnode
  | up _ ih =>
    cases hnode with
    | enter houter _ => exact ih houter
  | enter _ _ hchild _ ih => exact ih (hnode.enter hchild)

/-- Where the directories are kept, a walk to a directory passes the same places. -/
theorem WalksTo.of_keeps (hkeeps : Keeps root root')
    {above above' es es' entries : List (String × Node)} {names place : List String}
    (h : WalksTo above es names place entries)
    (hnode : Reached root above (.directory es)) (hnode' : Reached root' above' (.directory es'))
    (hplace : placeOf above = placeOf above') :
    ∃ entries', WalksTo above' es' names place entries' := by
  induction h generalizing above' es' with
  | done => exact ⟨es', hplace ▸ .done⟩
  | stay hstay _ ih =>
    obtain ⟨entries', h'⟩ := ih hnode hnode' hplace
    exact ⟨entries', .stay hstay h'⟩
  | top _ ih =>
    cases hnode' with
    | root =>
      obtain ⟨entries', h'⟩ := ih hnode .root rfl
      exact ⟨entries', .top h'⟩
    | enter => simp [placeOf] at hplace
  | up _ ih =>
    cases hnode with
    | enter houter _ =>
      cases hnode' with
      | root => simp [placeOf] at hplace
      | enter houter' _ =>
        rw [placeOf_cons, placeOf_cons] at hplace
        have habove := (List.append_inj' hplace rfl).1
        obtain ⟨_, rfl⟩ := exists_directory_of_keeps hkeeps houter houter' habove
        obtain ⟨entries', h'⟩ := ih houter houter' habove
        exact ⟨entries', .up h'⟩
  | @enter above es inner entries name names place hname hlong hchild _ ih =>
    have hinner : Reached root ((name, .directory es) :: above) (.directory inner) :=
      hnode.enter hchild
    -- The entry is a directory, so there is one of this name in the other tree.
    obtain ⟨found, hfound⟩ := hkeeps _ ⟨_, hinner.find?⟩
    rw [placeOf_cons, hplace, Node.find?_append, hnode'.find?, Option.bind_some] at hfound
    obtain ⟨_, inner', heq, hchild', hinner'⟩ := Node.exists_directory_of_find?_cons hfound
    cases heq
    cases hinner'
    obtain ⟨entries', h'⟩ := ih hinner (hnode'.enter hchild') (by
      rw [placeOf_cons, placeOf_cons, hplace])
    exact ⟨entries', .enter hname hlong hchild' h'⟩

/-- Where the directories are kept, a walk from the root leads to the same place. -/
theorem walk_of_keeps (hkeeps : Keeps root root') {names place : List String}
    {entries : List (String × Node)} (h : walk [] root names = .ok (place, .directory entries)) :
    root.find? place = some (.directory entries) ∧ ∃ entries',
      root'.find? place = some (.directory entries') ∧
        walk [] root' names = .ok (place, .directory entries') := by
  obtain ⟨es, rfl, hwalks⟩ := exists_walksTo_of_walk h
  obtain ⟨es', rfl⟩ := exists_directory_of_keeps hkeeps .root .root rfl
  obtain ⟨entries', hwalks'⟩ := hwalks.of_keeps hkeeps .root .root rfl
  refine ⟨hwalks.find? .root, entries', hwalks'.find? .root, ?_⟩
  obtain ⟨above, rfl, hend⟩ := hwalks'.walk_append []
  rw [List.append_nil] at hend
  exact hend

/-- What the name of an entry leads to, after a walk to its directory. -/
theorem walk_append_name {node : Node} {names place : List String}
    {entries : List (String × Node)} {last : String}
    (h : walk [] node names = .ok (place, .directory entries)) (hlast : IsEntryName last) :
    walk [] node (names ++ [last]) =
      if maxNameBytes < last.utf8ByteSize then .error .nameTooLong
      else
        match entries.lookup last with
        | some inner => .ok (place ++ [last], inner)
        | none => .error .notFound := by
  obtain ⟨es, rfl, hwalks⟩ := exists_walksTo_of_walk h
  obtain ⟨above, rfl, hmore⟩ := hwalks.walk_append [last]
  rw [hmore, walk_enter hlast]
  simp only [walk, placeOf, List.map_cons, List.reverse_cons]

/-! ### Files of a directory -/

/-- The name is that of an entry, and no slash is in it. -/
structure IsFileName (name : String) : Prop extends IsEntryName name where
  no_slash : '/' ∉ name.toList

theorem IsFileName.isAbsolute_eq_false {name : String} (h : IsFileName name) :
    isAbsolute name = false := by
  unfold isAbsolute
  cases hname : name.toList with
  | nil => rfl
  | cons c cs =>
    have hc : c ≠ '/' := fun hc => h.no_slash (by rw [hname, hc]; exact List.mem_cons_self)
    simpa using hc

theorem IsFileName.namesOf {name : String} (h : IsFileName name) : namesOf name = [name] := by
  rw [FieldRules.namesOf, List.splitOn_eq_singleton h.no_slash]
  simp

/-- A file is found from where its directory is found. -/
theorem isAbsolute_joinName {directory name : String} (h : IsFileName name) :
    isAbsolute (joinName directory name) = isAbsolute directory := by
  rw [joinName, h.isAbsolute_eq_false, if_neg Bool.false_ne_true]
  by_cases hempty : directory = ""
  · subst hempty
    exact h.isAbsolute_eq_false
  have hne : directory.toList ≠ [] := by simpa using hempty
  obtain ⟨c, cs, hcs⟩ := List.exists_cons_of_ne_nil hne
  split_ifs <;> simp [isAbsolute, hcs]

/-- The names of a path to a directory; the last slash need not be there. -/
def directoryNames (directory : String) : List String :=
  if directory = "" then []
  else if directory.toList.getLast? = some '/' then (namesOf directory).dropLast
  else namesOf directory

/-- The names of a path to a file: those of its directory, and its own. -/
theorem namesOf_joinName {directory name : String} (h : IsFileName name) :
    namesOf (joinName directory name) = directoryNames directory ++ [name] := by
  unfold joinName directoryNames
  rw [h.isAbsolute_eq_false, if_neg Bool.false_ne_true]
  by_cases hempty : directory = ""
  · rw [if_pos (.inl hempty), if_pos hempty, hempty, String.empty_append]
    exact h.namesOf
  rw [if_neg hempty]
  by_cases hslash : directory.toList.getLast? = some '/'
  · obtain ⟨cs, hcs⟩ := List.getLast?_eq_some_iff.1 hslash
    rw [if_pos (.inr hslash), if_pos hslash, namesOf, namesOf, String.toList_append, hcs,
      List.append_assoc, List.singleton_append, List.splitOn_append_cons_self,
      List.splitOn_append_cons_self, List.splitOn_eq_singleton h.no_slash]
    simp
  · rw [if_neg (fun hor => hor.elim hempty hslash), if_neg hslash, namesOf,
      String.toList_append, String.toList_append]
    show ((directory.toList ++ ['/'] ++ name.toList).splitOn '/').map String.ofList = _
    rw [List.append_assoc, List.singleton_append, List.splitOn_append_cons_self,
      List.splitOn_eq_singleton h.no_slash, List.map_append]
    simp [namesOf]

/-- The names that lead from the root to a directory. -/
def wayTo (tree : FileTree) (directory : String) : List String :=
  if isAbsolute directory then directoryNames directory
  else tree.workingDirectory ++ directoryNames directory

variable {tree tree' : FileTree} {directory name : String}

theorem follow_directoryNames :
    tree.follow (isAbsolute directory) (directoryNames directory) =
      walk [] tree.root (tree.wayTo directory) := rfl

/-- A path to a file is followed by the way to its directory. -/
theorem locate_joinName (h : IsFileName name)
    (hpath : pathFault? (joinName directory name) = none) :
    tree.locate (joinName directory name) =
      walk [] tree.root (tree.wayTo directory ++ [name]) := by
  rw [locate, hpath, isAbsolute_joinName h, namesOf_joinName h]
  unfold wayTo
  cases isAbsolute directory with
  | true => rfl
  | false => exact congrArg _ (List.append_assoc _ _ _).symm

/-- A file can be written if there is a directory for it and no directory in its place. Then the
text is in its place, unless the file swallows it. -/
theorem write_joinName {text : String} (hname : IsFileName name)
    (h : tree.write (joinName directory name) text = .ok tree') :
    pathFault? (joinName directory name) = none ∧ ¬ maxNameBytes < name.utf8ByteSize ∧
      ∃ place entries,
        walk [] tree.root (tree.wayTo directory) = .ok (place, .directory entries) ∧
          (entries.lookup name = some .null ∧ tree' = tree ∨
            (∀ es, entries.lookup name ≠ some (.directory es)) ∧
              tree' = { tree with root := tree.root.put (place ++ [name]) (.text text) }) := by
  unfold write at h
  cases hpath : pathFault? (joinName directory name) with
  | some e =>
    rw [hpath] at h
    cases h
  | none =>
    rw [hpath] at h
    simp only [isAbsolute_joinName hname, namesOf_joinName hname, List.dropLast_concat,
      List.getLastD_concat, locateLast, follow_directoryNames] at h
    cases hwalk : walk [] tree.root (tree.wayTo directory) with
    | error e =>
      rw [hwalk] at h
      cases h
    | ok found =>
      obtain ⟨place, node⟩ := found
      rw [hwalk] at h
      cases node with
      | text | binary | null => cases h
      | directory entries =>
        have hentryName : ¬ (name = "" ∨ name = "." ∨ name = "..") := fun hor =>
          hor.elim hname.ne_empty fun hor => hor.elim hname.ne_point hname.ne_points
        simp only [if_neg hentryName] at h
        by_cases hlong : maxNameBytes < name.utf8ByteSize
        · simp only [if_pos hlong] at h
          cases h
        simp only [if_neg hlong] at h
        refine ⟨rfl, hlong, place, entries, rfl, ?_⟩
        cases hentry : entries.lookup name with
        | none =>
          rw [hentry] at h
          exact .inr ⟨fun es => nofun, (Except.ok.inj h).symm⟩
        | some node =>
          rw [hentry] at h
          cases node with
          | directory es => cases h
          | null => exact .inl ⟨rfl, (Except.ok.inj h).symm⟩
          | text | binary => exact .inr ⟨fun es => nofun, (Except.ok.inj h).symm⟩

/-- With a text in the place of a file, the way to its directory ends at the same place, where the
file is the text and the other entries are what they were. -/
theorem exists_walk_of_put {way place : List String} {entries : List (String × Node)}
    {text : String} (hwalk : walk [] root way = .ok (place, .directory entries))
    (hentry : ∀ es, entries.lookup name ≠ some (.directory es)) :
    ∃ entries',
      walk [] (root.put (place ++ [name]) (.text text)) way = .ok (place, .directory entries') ∧
        entries'.lookup name = some (.text text) ∧
        ∀ other, other ≠ name → entries'.lookup other = entries.lookup other := by
  have hfind : root.find? place = some (.directory entries) :=
    (walk_of_keeps (fun _ h => h) hwalk).1
  have hnot : ¬ root.IsDirectory (place ++ [name]) := by
    rintro ⟨es, hes⟩
    rw [Node.find?_append_name hfind] at hes
    exact hentry es hes
  have hkeeps : Keeps root (root.put (place ++ [name]) (.text text)) := fun _ h => h.put hnot
  obtain ⟨-, entries', hfind', hwalk'⟩ := walk_of_keeps hkeeps hwalk
  refine ⟨entries', hwalk', ?_, fun other hne => ?_⟩
  · rw [← Node.find?_append_name hfind']
    exact Node.find?_put_text
  · rw [← Node.find?_append_name hfind', ← Node.find?_append_name hfind]
    exact Node.find?_put_sibling hne

/-- A path leads to a file with the text, or to one that swallows every text. -/
def Holds (tree : FileTree) (path text : String) : Prop :=
  ∃ place node, tree.locate path = .ok (place, node) ∧ (node = .text text ∨ node = .null)

/-- A path leads to a file that swallows every text. -/
def Swallows (tree : FileTree) (path : String) : Prop :=
  ∃ place, tree.locate path = .ok (place, .null)

/-- A file that swallows every text reads as empty. -/
theorem Swallows.read_eq {path : String} (h : tree.Swallows path) : tree.read path = .ok "" := by
  obtain ⟨place, hplace⟩ := h
  rw [read, hplace]

/-- What a file holds is read from it. -/
theorem Holds.read_eq {path text : String} (h : tree.Holds path text)
    (hkept : ¬ tree.Swallows path) :
    tree.read path = .ok text := by
  obtain ⟨place, node, hplace, rfl | rfl⟩ := h
  · rw [read, hplace]
  · exact absurd ⟨place, hplace⟩ hkept

/-- What is written to a file is in the file. -/
theorem holds_of_write {text : String} (hname : IsFileName name)
    (h : tree.write (joinName directory name) text = .ok tree') :
    tree'.Holds (joinName directory name) text := by
  obtain ⟨hpath, hlong, place, entries, hwalk, hcase⟩ := write_joinName hname h
  rcases hcase with ⟨hnull, rfl⟩ | ⟨hentry, rfl⟩
  · refine ⟨place ++ [name], .null, ?_, .inr rfl⟩
    rw [locate_joinName hname hpath, walk_append_name hwalk hname.toIsEntryName, if_neg hlong,
      hnull]
  · obtain ⟨entries', hwalk', htext, -⟩ := exists_walk_of_put hwalk hentry
    refine ⟨place ++ [name], .text text, ?_, .inl rfl⟩
    rw [locate_joinName hname hpath]
    refine (walk_append_name hwalk' hname.toIsEntryName).trans ?_
    rw [if_neg hlong, htext]

/-- Writing a file leaves the other files of its directory as they are. -/
theorem locate_of_write {text other : String} (hname : IsFileName name)
    (hother : IsFileName other) (hne : other ≠ name)
    (h : tree.write (joinName directory name) text = .ok tree') :
    tree'.locate (joinName directory other) = tree.locate (joinName directory other) := by
  obtain ⟨-, -, place, entries, hwalk, ⟨-, rfl⟩ | ⟨hentry, rfl⟩⟩ := write_joinName hname h
  · rfl
  obtain ⟨entries', hwalk', -, hsame⟩ := exists_walk_of_put hwalk hentry
  cases hpath : pathFault? (joinName directory other) with
  | some e => rw [locate, locate, hpath]
  | none =>
    rw [locate_joinName hother hpath, locate_joinName hother hpath,
      walk_append_name hwalk hother.toIsEntryName]
    refine (walk_append_name hwalk' hother.toIsEntryName).trans ?_
    rw [hsame other hne]

end FileTree

end FieldRules
