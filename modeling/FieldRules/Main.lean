import FieldRules.CommandLine

/-!
# The program

The command line over the files of the system.
-/

namespace FieldRules

/-- The failure with a number of the system. Some operations give the number, and some its
negative. -/
def fileErrorOfNumber (code : UInt32) (message : String) : FileError :=
  match min code.toNat (0 - code).toNat with
  | 20 => .notDirectory
  | 21 => .isDirectory
  | 36 => .nameTooLong
  | n => .other message n

/-- The failure of an operation of the system. -/
def fileErrorOf : IO.Error → FileError
  | .noFileOrDirectory .. => .notFound
  | .alreadyExists .. => .alreadyExists
  | .inappropriateType _ code message => fileErrorOfNumber code message
  | .invalidArgument _ code message => fileErrorOfNumber code message
  | .permissionDenied _ code message => fileErrorOfNumber code message
  | e => .other (toString e) 0

/-- Runs an operation of the system on a path. -/
def attempt {α : Type} (path : String) (action : IO α) : IO (Except FileError α) := do
  if path.toList.contains '\x00' then return .error .nulInPath
  match ← action.toBaseIO with
  | .ok x => return .ok x
  | .error e => return .error (fileErrorOf e)

/-- What is at a path of the system. -/
def kindOf (path : String) : IO (Option EntryKind) := do
  let place := System.mkFilePath [path]
  if ← place.isDir then return some .directory
  else if ← place.pathExists then return some .file
  else return none

/-- The files of the system. -/
def systemFiles : FileSystem IO where
  kind? := kindOf
  entries path := do
    match ← attempt path (System.mkFilePath [path]).readDir with
    | .ok entries =>
      return .ok (← entries.toList.mapM fun entry => do
        return (entry.fileName, (← kindOf entry.path.toString).getD .file))
    | .error e => return .error e
  read path := do
    match ← attempt path (IO.FS.readBinFile path) with
    | .ok bytes =>
      match String.fromUTF8? bytes with
      | some text => return .ok text
      | none => return .error .notText
    | .error e => return .error e
  makeDirectory path := attempt path (IO.FS.createDir path)
  write path text := attempt path (IO.FS.writeFile path text)

end FieldRules

/-- Runs the program with its arguments. -/
def main (arguments : List String) : IO UInt32 := do
  let outcome ← FieldRules.CommandLine.run FieldRules.systemFiles arguments
  IO.print outcome.stdout
  IO.eprint outcome.stderr
  return outcome.code.toUInt32
