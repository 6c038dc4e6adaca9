import FieldRules.CommandLine.Arguments
import FieldRules.Glob
import FieldRules.Manifest

/-!
# The command line

`run` carries out a command over any file system. A command first reads all manifests and compiles
them, and only then prints or writes: a failure before that leaves no trace but its message. Files
are written one after the other, so a failure to write one leaves the earlier ones behind.
-/

namespace FieldRules.CommandLine

/-- Why a command fails. -/
inductive RunError where
  /-- The arguments name no files. -/
  | inputs (e : Glob.GlobError)
  /-- A manifest cannot be read. -/
  | read (path : String) (e : FileError)
  /-- A manifest is not well formed. -/
  | parse (path : String) (e : Json.Failure)
  /-- The declarations do not compile. -/
  | compile (e : Error)
  /-- The output directory cannot be made. -/
  | create (path : String) (e : FileError)
  /-- A file cannot be written. -/
  | write (path : String) (e : FileError)
  deriving DecidableEq, Repr

/-- The wordings of a failure, from the outermost to the innermost. -/
def RunError.chain : RunError → List String
  | .inputs e => ["failed to resolve input file paths", e.message]
  | .read path e => ["failed to read " ++ path, e.message]
  | .parse path e => ["failed to parse manifest " ++ path, e.message]
  | .compile e => e.chain
  | .create path e => ["failed to create " ++ path, e.message]
  | .write path e => ["failed to write " ++ path, e.message]

/-- What a run leaves besides files. -/
structure Outcome where
  /-- The exit code. -/
  code : Nat
  /-- What is printed on the standard output. -/
  stdout : String
  /-- What is printed on the standard error. -/
  stderr : String
  deriving DecidableEq, Repr

/-- The outcome of a failure. -/
def RunError.outcome (e : RunError) : Outcome :=
  ⟨1, "", "error: " ++ ": ".intercalate e.chain ++ "\n"⟩

/-- The number as it is printed. -/
def count (n : Nat) : String :=
  String.ofList (Numeral.digits n)

/-- The file name of a package: its segments between underscores, without its root. -/
def packageFileName (package : String) : String :=
  let segments := (Text.pathSegments package.toList).map Text.trim
  let stem :=
    List.intercalate ['_'] (segments.filter fun s => s ≠ [] ∧ s ≠ "crate".toList)
  if stem = [] then "validators.rs" else String.ofList stem ++ "_validators.rs"

/-! ### Operations -/

/-- A text with spaces behind it up to a width. -/
def padded (width : Nat) (s : String) : String :=
  s ++ String.ofList (List.replicate (width - s.length) ' ')

/-- The line of an operation: its name, its arity and whether it compares fields. -/
def operationLine (op : Operation) : String :=
  padded 16 op.name ++ " " ++ padded 5 op.arity.name ++ " " ++
    (if op.comparesFields then "field" else "") ++ "\n"

/-- The list of all operations. -/
def operationList : String :=
  String.join (Operation.all.map operationLine)

/-! ### Manifests -/

variable {m : Type → Type} [Monad m]

/-- Reads the manifests at some paths, in order. -/
def readManifests (fs : FileSystem m) : List String → m (Except RunError (List Manifest))
  | [] => return .ok []
  | path :: paths => do
    match ← fs.read path with
    | .error e => return .error (.read path e)
    | .ok text =>
      match Manifest.ofJson text with
      | .error e => return .error (.parse path e)
      | .ok manifest =>
        match ← readManifests fs paths with
        | .error e => return .error e
        | .ok manifests => return .ok (manifest :: manifests)

/-- The manifests that the arguments name, as one. -/
def load (fs : FileSystem m) (inputs : List String) : m (Except RunError Manifest) := do
  match ← Glob.resolve fs inputs with
  | .error e => return .error (.inputs e)
  | .ok paths => return (← readManifests fs paths).map Manifest.merge

/-! ### Commands -/

/-- The outcome of checking a manifest. -/
def checkOutcome (manifest : Manifest) : Outcome :=
  match analyze manifest.types with
  | .error e => (RunError.compile e).outcome
  | .ok types =>
    let validated := types.countP (·.hasValidations)
    ⟨0, "", "ok " ++ count manifest.types.length ++ " types, " ++ count validated ++
      " with validations\n"⟩

/-- The output of compiling a manifest; a support path in the arguments counts before the one that
the manifest chooses. -/
def compileManifest (o : GenerateOptions) (manifest : Manifest) (schedule : Schedule) :
    Except Error Output :=
  let options := manifest.options.getD {}
  compile manifest.types
    (match o.supportPath with
    | some supportPath => { options with supportPath }
    | none => options)
    schedule

/-- The files of an output, with their names. -/
def outputFiles (o : GenerateOptions) (output : Output) : List (String × String) :=
  (output.packages.map fun p => (packageFileName p.package, p.source)) ++
    if o.emitSupport then [("support.rs", output.support)] else []

/-- The output as it is printed, with an empty line after each file. -/
def printed (o : GenerateOptions) (output : Output) : String :=
  (if o.emitSupport then output.support ++ "\n" else "") ++
    String.join (output.packages.map fun p => p.source ++ "\n")

/-- Writes some files into a directory, in order. -/
def writeFiles (fs : FileSystem m) (directory : String) :
    List (String × String) → m (Except RunError Unit)
  | [] => return .ok ()
  | (name, text) :: files => do
    let path := joinName directory name
    match ← fs.write path text with
    | .error e => return .error (.write path e)
    | .ok () => writeFiles fs directory files

/-- Writes an output into a directory, which is made first. -/
def writeOutput (fs : FileSystem m) (o : GenerateOptions) (directory : String) (output : Output) :
    m Outcome := do
  match ← fs.makeDirectories directory with
  | .error e => return (RunError.create directory e).outcome
  | .ok () =>
    match ← writeFiles fs directory (outputFiles o output) with
    | .error e => return e.outcome
    | .ok () =>
      return ⟨0, "", "wrote " ++ count output.validators.length ++ " validators in " ++
        count output.packages.length ++ " files\n"⟩

/-- Carries out `generate`. -/
def runGenerate (fs : FileSystem m) (o : GenerateOptions) (schedule : Schedule) : m Outcome := do
  match ← load fs o.inputs with
  | .error e => return e.outcome
  | .ok manifest =>
    match compileManifest o manifest schedule with
    | .error e => return (RunError.compile e).outcome
    | .ok output =>
      match o.directory with
      | none => return ⟨0, printed o output, ""⟩
      | some directory => writeOutput fs o directory output

/-- Carries out `check`. -/
def runCheck (fs : FileSystem m) (inputs : List String) : m Outcome := do
  match ← load fs inputs with
  | .error e => return e.outcome
  | .ok manifest => return checkOutcome manifest

/-- Carries out a command. -/
def runCommand (fs : FileSystem m) (schedule : Schedule) : Command → m Outcome
  | .version => return ⟨0, "valtag 0.1.0\n", ""⟩
  | .operations => return ⟨0, operationList, ""⟩
  | .check inputs => runCheck fs inputs
  | .generate o => runGenerate fs o schedule

/-- What is printed when the arguments make no command. -/
def usage : String :=
  "usage: valtag [-v] generate|check|ops\n" ++
    "  generate -i FILE... [-o DIRECTORY] [--support-path PATH] [--emit-support]\n" ++
    "  check -i FILE...\n"

/-- Carries out the command that the arguments make. -/
def run (fs : FileSystem m) (arguments : List String) (schedule : Schedule := .inOrder) :
    m Outcome :=
  match readCommand arguments with
  | none => return ⟨2, "", usage⟩
  | some command => runCommand fs schedule command

end FieldRules.CommandLine
