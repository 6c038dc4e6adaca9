import FieldRules.Compilation
import FieldRules.Json.Record

/-!
# Manifests

A manifest is a JSON text with declarations: an array of them, or a document that also chooses
options. The text starts with a bracket in the first case, after any blanks. What follows the array
or the document is not looked at.

In a declaration the package, the location, the tag of a field and the line of a location may be
left out, and members that are not known are passed over; a document has no members but its own.
-/

namespace FieldRules

/-- The declarations of a manifest, and the options that it chooses. -/
structure Manifest where
  /-- The options, if the manifest chooses any. -/
  options : Option Options
  /-- The declarations. -/
  types : List Declaration
  deriving DecidableEq, Repr

namespace Manifest

open Json

/-! ### The forms of records -/

/-- A location while it is read. -/
structure LocationDraft where
  /-- The file. -/
  file : Option String := none
  /-- The line. -/
  line : Option Nat := none

/-- How a location is read. -/
def locationForm : RecordForm LocationDraft SourceLocation where
  title := "struct SourceLocation"
  slots := [
    ⟨"file", (·.file.isSome), fun d => readString.map fun x => { d with file := some x }⟩,
    ⟨"line", (·.line.isSome), fun d => readWord.map fun x => { d with line := some x }⟩]
  closed := false
  blank := {}
  finish d :=
    match d.file with
    | some file => .ok ⟨file, d.line.getD 0⟩
    | none => .error "file"

/-- A field while it is read. -/
structure FieldDraft where
  /-- The name. -/
  name : Option String := none
  /-- The spelling of the type. -/
  type : Option String := none
  /-- The tag. -/
  tag : Option String := none

/-- How a field is read. -/
def fieldForm : RecordForm FieldDraft Field where
  title := "struct Field"
  slots := [
    ⟨"name", (·.name.isSome), fun d => readString.map fun x => { d with name := some x }⟩,
    ⟨"type", (·.type.isSome), fun d => readString.map fun x => { d with type := some x }⟩,
    ⟨"tag", (·.tag.isSome), fun d => readString.map fun x => { d with tag := some x }⟩]
  closed := false
  blank := {}
  finish d :=
    match d.name, d.type with
    | some name, some type => .ok { name, type, tag := d.tag.getD "" }
    | none, _ => .error "name"
    | _, none => .error "type"

/-- A declaration while it is read. -/
structure DeclarationDraft where
  /-- The name. -/
  name : Option String := none
  /-- The package. -/
  package : Option String := none
  /-- The location, which may be given as `null`. -/
  location : Option (Option SourceLocation) := none
  /-- The fields. -/
  fields : Option (List Field) := none

/-- How a declaration is read. -/
def declarationForm : RecordForm DeclarationDraft Declaration where
  title := "struct DeclaredType"
  slots := [
    ⟨"name", (·.name.isSome), fun d => readString.map fun x => { d with name := some x }⟩,
    ⟨"package", (·.package.isSome), fun d => readString.map fun x => { d with package := some x }⟩,
    ⟨"location", (·.location.isSome), fun d =>
      (readOptional (readRecord locationForm)).map fun x => { d with location := some x }⟩,
    ⟨"fields", (·.fields.isSome), fun d =>
      (readList (readRecord fieldForm)).map fun x => { d with fields := some x }⟩]
  closed := false
  blank := {}
  finish d :=
    match d.name, d.fields with
    | some name, some fields =>
      .ok { name, package := d.package.getD "", location := d.location.getD none, fields }
    | none, _ => .error "name"
    | _, none => .error "fields"

/-- How options are read; the draft is the path of the support module. -/
def optionsForm : RecordForm (Option String) Options where
  title := "struct CodegenOptions"
  slots := [
    ⟨"support_path", (·.isSome), fun _ => readString.map some⟩]
  closed := false
  blank := none
  finish d := .ok ((d.map Options.mk).getD {})

/-- A document while it is read. -/
structure DocumentDraft where
  /-- The options, which may be given as `null`. -/
  options : Option (Option Options) := none
  /-- The declarations. -/
  types : Option (List Declaration) := none

/-- How a document is read. -/
def documentForm : RecordForm DocumentDraft Manifest where
  title := "struct Document"
  slots := [
    ⟨"options", (·.options.isSome), fun d =>
      (readOptional (readRecord optionsForm)).map fun x => { d with options := some x }⟩,
    ⟨"types", (·.types.isSome), fun d =>
      (readList (readRecord declarationForm)).map fun x => { d with types := some x }⟩]
  closed := true
  blank := {}
  finish d :=
    match d.types with
    | some types => .ok ⟨d.options.getD none, types⟩
    | none => .error "types"

/-! ### Manifests -/

/-- The manifest that a text holds. -/
def ofJson (text : String) : Except Failure Manifest :=
  let cs := text.toList
  if (Text.trimStart cs).head? = some '[' then
    ((readList (readRecord declarationForm)).read (.start cs)).map fun (types, _) => ⟨none, types⟩
  else ((readRecord documentForm).read (.start cs)).map (·.1)

/-- The declarations of all manifests in order, with the first options that are chosen. -/
def merge (manifests : List Manifest) : Manifest :=
  ⟨manifests.findSome? (·.options), manifests.flatMap (·.types)⟩

end Manifest

end FieldRules
