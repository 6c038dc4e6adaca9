/-!
# Arguments

The arguments of the command line. Options may be clustered behind one hyphen, and the value of an
option stands in the same argument, after an equals sign or not, or in the next one. The option for
manifests takes every following argument up to the next that starts with a hyphen; a value in the
same argument stands alone.
-/

namespace FieldRules.CommandLine

/-- What `generate` is asked to do. -/
structure GenerateOptions where
  /-- The manifests: paths or patterns. -/
  inputs : List String := []
  /-- The directory for the files; nothing stands for the standard output. -/
  directory : Option String := none
  /-- The path of the support module, instead of the one a manifest chooses. -/
  supportPath : Option String := none
  /-- Whether to write the support file too. -/
  emitSupport : Bool := false
  deriving DecidableEq, Repr

/-- A command. -/
inductive Command where
  /-- Prints the version. -/
  | version
  /-- Lists the operations. -/
  | operations
  /-- Analyses manifests. -/
  | check (inputs : List String)
  /-- Writes the validators of manifests. -/
  | generate (options : GenerateOptions)
  deriving DecidableEq, Repr

/-- What takes a value. -/
inductive ValueOption where
  /-- The manifests. -/
  | input
  /-- The directory for the files. -/
  | directory
  /-- The path of the support module. -/
  | supportPath
  deriving DecidableEq, Repr

/-- What stands by itself. -/
inductive Flag where
  /-- More logging. -/
  | verbose
  /-- Write the support file too. -/
  | emitSupport
  deriving DecidableEq, Repr

/-- The value options that a command knows, with the letter and the word for each. -/
def valueOptions (generates : Bool) : List (ValueOption × Option Char × String) :=
  (.input, some 'i', "input") ::
    if generates then
      [(.directory, some 'o', "out"), (.supportPath, none, "support-path")]
    else []

/-- The flags that a command knows, with the letter and the word for each. -/
def flags (generates : Bool) : List (Flag × Option Char × String) :=
  (.verbose, some 'v', "verbose") ::
    if generates then [(.emitSupport, none, "emit-support")] else []

/-- A value given to an option. A directory needs a name, and what is not a list is given once. -/
def setValue (o : GenerateOptions) (option : ValueOption) (value : String) :
    Option GenerateOptions :=
  match option with
  | .input => some { o with inputs := o.inputs ++ [value] }
  | .directory =>
    if o.directory.isSome ∨ value = "" then none else some { o with directory := some value }
  | .supportPath =>
    if o.supportPath.isSome then none else some { o with supportPath := some value }

/-- A flag given. Flags but `verbose` are given once. -/
def setFlag (o : GenerateOptions) : Flag → Option GenerateOptions
  | .verbose => some o
  | .emitSupport => if o.emitSupport then none else some { o with emitSupport := true }

/-- What an argument asks for by itself, and the option that waits for a value in the next one. -/
abbrev Reading := GenerateOptions × Option ValueOption

/-- Reads the letters of a cluster. -/
def readCluster (generates : Bool) (o : GenerateOptions) : List Char → Option Reading
  | [] => some (o, none)
  | c :: cs =>
    match (flags generates).find? fun f => f.2.1 == some c with
    | some (flag, _) => (setFlag o flag).bind fun o => readCluster generates o cs
    | none =>
      match (valueOptions generates).find? fun v => v.2.1 == some c with
      | none => none
      | some (option, _) =>
        match cs with
        | [] => some (o, some option)
        | '=' :: value => (setValue o option (String.ofList value)).map (·, none)
        | value => (setValue o option (String.ofList value)).map (·, none)

/-- Reads a word behind two hyphens. -/
def readLong (generates : Bool) (o : GenerateOptions) (cs : List Char) : Option Reading :=
  let word := String.ofList (cs.takeWhile (· != '='))
  let value : Option String :=
    match cs.dropWhile (· != '=') with
    | _ :: value => some (String.ofList value)
    | [] => none
  match (flags generates).find? fun f => f.2.2 == word with
  | some (flag, _) => if value.isSome then none else (setFlag o flag).map (·, none)
  | none =>
    match (valueOptions generates).find? fun v => v.2.2 == word, value with
    | some (option, _), some value => (setValue o option value).map (·, none)
    | some (option, _), none => some (o, some option)
    | none, _ => none

/-- Reads the arguments of a command. `waiting` is the option that the next argument is a value of,
and `needed` says that it has no value yet. -/
def readArguments (generates : Bool) (o : GenerateOptions) (waiting : Option ValueOption)
    (needed : Bool) : List String → Option GenerateOptions
  | [] => if needed then none else some o
  | argument :: arguments =>
    let next (r : Option Reading) : Option GenerateOptions :=
      if needed then none
      else
        match r with
        | none => none
        | some (o, waiting) => readArguments generates o waiting waiting.isSome arguments
    match argument.toList with
    | '-' :: '-' :: [] => if needed ∨ arguments ≠ [] then none else some o
    | '-' :: '-' :: cs => next (readLong generates o cs)
    | '-' :: c :: cs => next (readCluster generates o (c :: cs))
    | _ =>
      match waiting with
      | none => none
      | some option =>
        match setValue o option argument with
        | none => none
        | some o =>
          readArguments generates o (if option = .input then waiting else none) false arguments

/-- Reads the arguments of a command that needs manifests. -/
def readWithInputs (generates : Bool) (arguments : List String) : Option GenerateOptions :=
  (readArguments generates {} none false arguments).filter (·.inputs ≠ [])

/-- Whether the arguments of a command that takes none are in order. -/
def readNothing : List String → Bool
  | [] => true
  | argument :: arguments =>
    if argument = "--" then arguments.isEmpty
    else
      match argument.toList with
      | '-' :: 'v' :: cs => cs.all (· == 'v') && readNothing arguments
      | _ => argument == "--verbose" && readNothing arguments

/-- Reads the arguments in front of the name of the command, and the command. -/
def readCommand : List String → Option Command
  | [] => none
  | argument :: arguments =>
    match argument with
    | "generate" => (readWithInputs true arguments).map .generate
    | "check" => (readWithInputs false arguments).map fun o => .check o.inputs
    | "ops" => if readNothing arguments then some .operations else none
    | "--version" => some .version
    | "--verbose" => readCommand arguments
    | _ =>
      match argument.toList with
      | '-' :: c :: cs =>
        match (c :: cs).dropWhile (· == 'v') with
        | [] => readCommand arguments
        | 'V' :: _ => some .version
        | _ => none
      | _ => none

end FieldRules.CommandLine
