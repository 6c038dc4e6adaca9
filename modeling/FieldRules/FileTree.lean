import FieldRules.FileSystem

/-!
# Directory trees

A file system as a value: a root, all that is in it, and the working directory that relative paths
start from. Paths are followed as a system follows them: every place on the way has to be a
directory that is there, two points lead to the directory above, and names and paths have a greatest
length.
-/

namespace FieldRules

/-- What is at a place of a tree. -/
inductive Node where
  /-- A file with a text. -/
  | text (s : String)
  /-- A file whose bytes are no text. -/
  | binary
  /-- A file that is always empty: what is written to it is gone. -/
  | null
  /-- A directory with its entries; of two with the same name the first counts. -/
  | directory (entries : List (String × Node))

namespace Node

/-- The kind of a node. -/
def kind : Node → EntryKind
  | .directory _ => .directory
  | _ => .file

/-- The entry of a directory with a name. -/
def child? (name : String) : Node → Option Node
  | .directory entries => entries.lookup name
  | _ => none

/-- What some names lead to. -/
def find? : Node → List String → Option Node
  | node, [] => some node
  | node, name :: names =>
    match node.child? name with
    | some inner => inner.find? names
    | none => none

/-- The entries with another one in place of those with its name. -/
def putEntry (name : String) (node : Node) (entries : List (String × Node)) :
    List (String × Node) :=
  (name, node) :: entries.filter (·.1 != name)

/-- The tree with a node in place of what some names lead to. The directories on the way are made,
and a directory that is to be made where one is stays as it is. -/
def put : Node → List String → Node → Node
  | .directory entries, [], .directory [] => .directory entries
  | _, [], new => new
  | old, name :: names, new =>
    let entries :=
      match old with
      | .directory entries => entries
      | _ => []
    let inner := (entries.lookup name).getD (.directory [])
    .directory (putEntry name (inner.put names new) entries)

mutual

/-- The files with a text and the names that lead to them. -/
def texts : Node → List (List String × String)
  | .directory entries => entryTexts entries
  | .text s => [([], s)]
  | _ => []

/-- The files with a text in some entries. -/
def entryTexts : List (String × Node) → List (List String × String)
  | [] => []
  | (name, node) :: entries =>
    (texts node).map (fun (names, s) => (name :: names, s)) ++ entryTexts entries

end

end Node

/-- A tree and a place in it. -/
structure FileTree where
  /-- What is at the root. -/
  root : Node
  /-- The names that lead from the root to the working directory. -/
  workingDirectory : List String

namespace FileTree

/-- The directories that stand at the root of every system. -/
def rootNames : List String :=
  ["bin", "boot", "etc", "home", "lib", "media", "mnt", "opt", "proc", "root", "run", "sbin", "srv",
    "sys", "tmp", "usr", "var"]

/-- The root of a system that nobody has worked on yet. -/
def emptyRoot : Node :=
  .directory (("dev", .directory [("null", .null), ("stdin", .null)]) ::
    rootNames.map fun name => (name, .directory []))

/-- The tree with some files and directories in the working directory. -/
def ofEntries (entries : List (String × Node)) : FileTree :=
  let workingDirectory := ["tmp", "field-rules"]
  let start := emptyRoot.put workingDirectory (.directory [])
  ⟨entries.foldl (fun root (path, node) => root.put (workingDirectory ++ stepsOf path) node) start,
    workingDirectory⟩

/-- The number of bytes that a name may have. -/
def maxNameBytes : Nat := 255

/-- The number of bytes that a path may have. -/
def maxPathBytes : Nat := 4095

/-- What is wrong with a path wherever it leads. -/
def pathFault? (path : String) : Option FileError :=
  if path.toList.contains '\x00' then some .nulInPath
  else if path = "" then some .notFound
  else if maxPathBytes < path.utf8ByteSize then some .nameTooLong
  else none

/-- Where some names lead to from a node. `above` holds the way to the node: the names and the
directories that they were entered from, the last one first. -/
def walk (above : List (String × Node)) (node : Node) :
    List String → Except FileError (List String × Node)
  | [] => .ok ((above.map (·.1)).reverse, node)
  | name :: names =>
    match node with
    | .directory _ =>
      if name = "" ∨ name = "." then walk above node names
      else if name = ".." then
        match above with
        | [] => walk [] node names
        | (_, outer) :: above => walk above outer names
      else if maxNameBytes < name.utf8ByteSize then .error .nameTooLong
      else
        match node.child? name with
        | some inner => walk ((name, node) :: above) inner names
        | none => .error .notFound
    | _ => .error .notDirectory

/-- Where some names lead to from the root or from the working directory. -/
def follow (tree : FileTree) (fromRoot : Bool) (names : List String) :
    Except FileError (List String × Node) :=
  walk [] tree.root (if fromRoot then names else tree.workingDirectory ++ names)

/-- What a path leads to. -/
def locate (tree : FileTree) (path : String) : Except FileError (List String × Node) :=
  match pathFault? path with
  | some e => .error e
  | none => tree.follow (isAbsolute path) (namesOf path)

/-- The directory that the last of some names is in, and what that name stands for there. -/
def locateLast (tree : FileTree) (fromRoot : Bool) (names : List String) (last : String) :
    Except FileError (List String × Option Node) :=
  match tree.follow fromRoot names with
  | .error e => .error e
  | .ok (place, .directory entries) =>
    if last = "" ∨ last = "." ∨ last = ".." then .ok (place, some (.directory entries))
    else if maxNameBytes < last.utf8ByteSize then .error .nameTooLong
    else .ok (place ++ [last], entries.lookup last)
  | .ok _ => .error .notDirectory

/-- The text of the file at a path. -/
def read (tree : FileTree) (path : String) : Except FileError String :=
  match tree.locate path with
  | .error e => .error e
  | .ok (_, .text s) => .ok s
  | .ok (_, .binary) => .error .notText
  | .ok (_, .null) => .ok ""
  | .ok (_, .directory _) => .error .isDirectory

/-- The kind of what is at a path. -/
def kind? (tree : FileTree) (path : String) : Option EntryKind :=
  match tree.locate path with
  | .error _ => none
  | .ok (_, node) => some node.kind

/-- The names in the directory at a path, with their kinds. -/
def entries (tree : FileTree) (path : String) : Except FileError (List (String × EntryKind)) :=
  match tree.locate path with
  | .error e => .error e
  | .ok (_, .directory entries) => .ok (entries.map fun (name, node) => (name, node.kind))
  | .ok _ => .error .notDirectory

/-- Makes the directory at a path; slashes behind its name do not count. -/
def makeDirectory (tree : FileTree) (path : String) : Except FileError FileTree :=
  match pathFault? path with
  | some e => .error e
  | none =>
    let reversed := (namesOf path).reverse.dropWhile (· == "")
    match tree.locateLast (isAbsolute path) reversed.tail.reverse (reversed.headD "") with
    | .error e => .error e
    | .ok (_, some _) => .error .alreadyExists
    | .ok (place, none) => .ok { tree with root := tree.root.put place (.directory []) }

/-- Writes the file at a path, whose directory has to be there. -/
def write (tree : FileTree) (path text : String) : Except FileError FileTree :=
  match pathFault? path with
  | some e => .error e
  | none =>
    let names := namesOf path
    match tree.locateLast (isAbsolute path) names.dropLast (names.getLastD "") with
    | .error e => .error e
    | .ok (_, some (.directory _)) => .error .isDirectory
    | .ok (_, some .null) => .ok tree
    | .ok (place, _) => .ok { tree with root := tree.root.put place (.text text) }

/-- Runs a change of the tree; a change that fails leaves the tree as it is. -/
def change (f : FileTree → Except FileError FileTree) : StateM FileTree (Except FileError Unit) :=
  fun tree =>
    match f tree with
    | .ok tree => (.ok (), tree)
    | .error e => (.error e, tree)

/-- The file system of a tree. -/
def fileSystem : FileSystem (StateM FileTree) where
  kind? path := return (← get).kind? path
  entries path := return (← get).entries path
  read path := return (← get).read path
  makeDirectory path := change (·.makeDirectory path)
  write path text := change (·.write path text)

/-- What is in the working directory. -/
def workingNode (tree : FileTree) : Node :=
  (tree.root.find? tree.workingDirectory).getD (.directory [])

/-- The files with a text in the working directory that are not there in `before`, or there with
another text. -/
def writtenSince (before after : FileTree) : List (String × String) :=
  after.workingNode.texts.filterMap fun (names, s) =>
    match before.workingNode.find? names with
    | some (.text t) => if t = s then none else some ("/".intercalate names, s)
    | _ => some ("/".intercalate names, s)

end FileTree

end FieldRules
