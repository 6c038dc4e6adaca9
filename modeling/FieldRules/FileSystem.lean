import FieldRules.Numeral.Integer

/-!
# File systems

What the command line needs of a file system, in any monad. A path is a text with slashes. An
operation that can fail says why, in the words of the system. `makeDirectories` is made of the
single steps of a file system: it makes a directory and, where they are missing, those above it.
-/

namespace FieldRules

/-- Why an operation on a file fails. -/
inductive FileError where
  /-- Nothing is there. -/
  | notFound
  /-- A directory is there. -/
  | isDirectory
  /-- A file is there where the path needs a directory. -/
  | notDirectory
  /-- Something is already there. -/
  | alreadyExists
  /-- A name or the whole path is longer than the system takes. -/
  | nameTooLong
  /-- The path contains the character that ends a path. -/
  | nulInPath
  /-- The bytes of the file are no text. -/
  | notText
  /-- Anything else, with the words and the number of the system. -/
  | other (message : String) (code : Nat)
  deriving DecidableEq, Repr

/-- The wording of a failure. -/
def FileError.message : FileError → String
  | .notFound => "No such file or directory (os error 2)"
  | .isDirectory => "Is a directory (os error 21)"
  | .notDirectory => "Not a directory (os error 20)"
  | .alreadyExists => "File exists (os error 17)"
  | .nameTooLong => "File name too long (os error 36)"
  | .nulInPath => "file name contained an unexpected NUL byte"
  | .notText => "stream did not contain valid UTF-8"
  | .other message code =>
    message ++ " (os error " ++ String.ofList (Numeral.digits code) ++ ")"

/-- What a path leads to. -/
inductive EntryKind where
  /-- A file. -/
  | file
  /-- A directory. -/
  | directory
  deriving DecidableEq, Repr

/-- The operations of a file system. -/
structure FileSystem (m : Type → Type) where
  /-- What is at a path. -/
  kind? : String → m (Option EntryKind)
  /-- The names in a directory and what they stand for there, in any order. -/
  entries : String → m (Except FileError (List (String × EntryKind)))
  /-- The text of a file. -/
  read : String → m (Except FileError String)
  /-- Makes a directory in one that is there. -/
  makeDirectory : String → m (Except FileError Unit)
  /-- Makes a file with the given text, or replaces its text. -/
  write : String → String → m (Except FileError Unit)

/-! ### Paths -/

/-- A path that starts at the root. -/
def isAbsolute (path : String) : Bool :=
  path.toList.head? == some '/'

/-- The texts between the slashes of a path. -/
def namesOf (path : String) : List String :=
  (path.toList.splitOn '/').map String.ofList

/-- The names of a path that are steps: an empty name and a point lead nowhere. -/
def stepsOf (path : String) : List String :=
  (namesOf path).filter fun name => name ≠ "" ∧ name ≠ "."

/-- What a path means for somebody in a directory. A slash is put between them unless the directory
ends with one, and a path from the root stays as it is. -/
def joinName (directory path : String) : String :=
  if isAbsolute path then path
  else if directory = "" ∨ directory.toList.getLast? = some '/' then directory ++ path
  else directory ++ "/" ++ path

/-- A path and those of the directories above it, from the innermost to the outermost. The root and
the place that relative paths start from are not among them. -/
def placesTo (path : String) : List String :=
  let steps := stepsOf path
  let above := (List.range steps.length).tail.reverse.map fun n => "/".intercalate (steps.take n)
  path :: above.map fun place => if isAbsolute path then "/" ++ place else place

namespace FileSystem

variable {m : Type → Type} [Monad m]

/-- Whether a path leads to a directory. -/
def isDirectory (fs : FileSystem m) (path : String) : m Bool := do
  return (← fs.kind? path) == some .directory

/-- Makes a directory that may be there already. -/
def ensureDirectory (fs : FileSystem m) (path : String) : m (Except FileError Unit) := do
  match ← fs.makeDirectory path with
  | .error .alreadyExists =>
    return if ← fs.isDirectory path then .ok () else .error .alreadyExists
  | result => return result

/-- Makes the first of some places, each in the next one. Where the place around it is missing, that
one is made first. -/
def ensurePlaces (fs : FileSystem m) : List String → m (Except FileError Unit)
  | [] => return .ok ()
  | place :: places => do
    match ← fs.ensureDirectory place with
    | .error .notFound =>
      match ← fs.ensurePlaces places with
      | .error e => return .error e
      | .ok () => fs.ensureDirectory place
    | result => return result

/-- Makes a directory and the directories above it, unless they are there. -/
def makeDirectories (fs : FileSystem m) (path : String) : m (Except FileError Unit) :=
  fs.ensurePlaces (placesTo path)

end FileSystem

end FieldRules
