import FieldRules.FileSystem
import FieldRules.Glob.Pattern

/-!
# Finding files by pattern

A pattern for paths is cut at its slashes. A component without wildcards is looked up, and any other
is matched against the names in the directory, in the order of their code points. A directory comes
before what is inside it. A pattern that ends with a slash finds directories only.
-/

namespace FieldRules.Glob

variable {m : Type → Type} [Monad m]

/-- No directory is entered below more directories than a path can have. -/
def maxDepth : Nat := 4096

/-- Why a pattern finds nothing. -/
inductive GlobError where
  /-- The pattern is not well formed. -/
  | pattern (e : PatternError)
  /-- A directory on the way cannot be read. -/
  | unreadable (path : String) (e : FileError)
  /-- No path matches. -/
  | noMatch (pattern : String)
  deriving DecidableEq, Repr

/-- The wording of a failure. -/
def GlobError.message : GlobError → String
  | .pattern e =>
    "Pattern syntax error near position " ++ String.ofList (Numeral.digits e.position) ++ ": " ++
      e.fault.message
  | .unreadable path e =>
    "attempting to read `" ++ path ++ "` resulted in an error: " ++ e.message
  | .noMatch text => "glob pattern matched no files: " ++ text

/-- A path that has been found. -/
structure Place where
  /-- The path. -/
  path : String
  /-- Whether a directory is there. What a directory says of its entries counts, even if the path of
  the entry is too long to ask for it. -/
  isDirectory : Bool
  deriving DecidableEq, Repr

/-- What is found at a path. -/
def Place.ofPath (fs : FileSystem m) (path : String) : m Place := do
  return ⟨path, ← fs.isDirectory path⟩

/-- The path of an entry; entries of the working directory go by their names alone, however many
points and slashes the path of that directory has. -/
def entryPath (directory name : String) : String :=
  if directory ≠ "" ∧ !isAbsolute directory ∧ stepsOf directory = [] then name
  else joinName directory name

/-- The names that stand for a directory itself and for the one above it; only a pattern that starts
with a point matches them. The one above comes first. -/
def dotNames : List Token → List String
  | .char '.' :: ts =>
    ["..", "."].filter fun name => matchesName (.char '.' :: ts) name.toList
  | _ => []

/-- The paths below a place that match the components of a pattern, in order, and among them the
failures to read a directory. -/
def expand (fs : FileSystem m) (onlyDirectories : Bool) :
    Nat → List (List Token) → Place → m (List (Except GlobError String))
  | 0, _, _ => return []
  | _, [], _ => return []
  | depth + 1, component :: rest, here => do
    -- a place that matches the last component
    let result (place : Place) : List (Except GlobError String) :=
      if onlyDirectories && !place.isDirectory then [] else [.ok place.path]
    -- what a place leads to that matches the components before `later`
    let continued (later : List (List Token)) (place : Place) :
        m (List (Except GlobError String)) :=
      if later = [] then return result place else expand fs onlyDirectories depth later place
    match literalName component with
    | some name =>
      let name := String.ofList name
      let path := entryPath here.path name
      let present ←
        if name = "." ∨ name = ".." then pure here.isDirectory
        else pure (← fs.kind? path).isSome
      if present then continued rest (← Place.ofPath fs path) else return []
    | none =>
      if !here.isDirectory then return []
      match ← fs.entries here.path with
      | .error e => return [.error (.unreadable here.path e)]
      | .ok entries =>
        let sorted := entries.mergeSort fun a b => decide (a.1 ≤ b.1)
        let dots ← (dotNames component).mapM fun name => do
          continued rest (← Place.ofPath fs (joinName here.path name))
        let found ← sorted.mapM fun (name, kind) => do
          let place : Place := ⟨entryPath here.path name, kind == .directory⟩
          if isRecursive component then
            let later := rest.dropWhile isRecursive
            let own ←
              match later with
              | [] => pure (if place.isDirectory then [.ok place.path] else [])
              | next :: after =>
                if matchesName next name.toList then continued after place else pure []
            let inner ←
              if place.isDirectory then expand fs onlyDirectories depth (component :: later) place
              else pure []
            return own ++ inner
          else if matchesName component name.toList then continued rest place
          else return []
        return dots.flatten ++ found.flatten

/-- The components of a pattern behind its root; one slash at its end is not counted. -/
def components (pattern : List Char) : List (List Char) :=
  let cs := if pattern.head? = some '/' then pattern.tail else pattern
  (if cs.getLast? = some '/' then cs.dropLast else cs).splitOn '/'

/-- The paths that match a pattern, at least one, or the first failure. -/
def find (fs : FileSystem m) (pattern : String) : m (Except GlobError (List String)) :=
  let cs := pattern.toList
  match tokens cs, (components cs).mapM tokens with
  | .error e, _ => return .error (.pattern e)
  | _, .error e => return .error (.pattern e)
  | .ok _, .ok parts => do
    let start ← Place.ofPath fs (if isAbsolute pattern then "/" else ".")
    let found ← expand fs (cs.getLast? == some '/') (parts.length + maxDepth) parts start
    return if found = [] then .error (.noMatch pattern) else found.mapM id

/-- The text contains a character that only patterns use. -/
def isPattern (text : String) : Bool :=
  text.toList.any fun c => c == '*' || c == '?' || c == '[' || c == '\x7b'

/-- The paths that some arguments name: patterns are expanded, and other arguments are paths. -/
def resolve (fs : FileSystem m) : List String → m (Except GlobError (List String))
  | [] => return .ok []
  | argument :: arguments => do
    let first ← if isPattern argument then find fs argument else pure (.ok [argument])
    match first with
    | .error e => return .error e
    | .ok paths =>
      match ← resolve fs arguments with
      | .error e => return .error e
      | .ok more => return .ok (paths ++ more)

end FieldRules.Glob
