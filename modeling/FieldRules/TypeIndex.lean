import FieldRules.Error
import FieldRules.Text.Path

/-!
# The index of declared types

Finding the declaration that a type reference means. A declaration is known by its package and its
name, the root package being written as nothing or as `crate`; the number of a declaration is its
place in the list of declarations.

A reference without a path is looked up in the package it is written in. A path from `crate` starts
at the root, and one from `self` or `super` at the package of the reference. Any other path is tried
below that package first, and then from the root.
-/

namespace FieldRules

open Text

/-- The packages and names of the declarations, in declaration order. -/
structure TypeIndex where
  /-- The package, without its root, and the name of each declaration. -/
  keys : List (String × String)
  deriving DecidableEq, Repr

/-- A package without the blanks around it and without its root. -/
def packageKey (package : String) : String :=
  let cs := trim package.toList
  if cs = "crate".toList then ""
  else String.ofList (("crate::".toList.isPrefixOf? cs).getD cs)

/-- What a declaration is known by. -/
def Declaration.key (d : Declaration) : String × String :=
  (packageKey d.package, d.name)

namespace TypeIndex

/-- The first declaration whose key is among `seen` or the keys of the declarations before it. -/
def firstRepeated (seen : List (String × String)) : List Declaration → Option Declaration
  | [] => none
  | d :: ds => if seen.contains d.key then some d else firstRepeated (d.key :: seen) ds

/-- The index of some declarations, no two of which may have the same key. -/
def build (types : List Declaration) : Except SemanticError TypeIndex :=
  match firstRepeated [] types with
  | some d => .error (.duplicateType d.name d.package)
  | none => .ok ⟨types.map Declaration.key⟩

/-- The number of the declaration with the given key. -/
def lookup (index : TypeIndex) (package name : String) : Option Nat :=
  index.keys.findIdx? (· == (package, name))

/-- A package made of the segments that are not empty. -/
def joinSegments (segments : List (List Char)) : List Char :=
  joinPath (segments.filter (· ≠ []))

/-- One step of a walk through packages. -/
def walk (package : List (List Char)) (segment : List Char) : List (List Char) :=
  if segment = "self".toList then package
  else if segment = "super".toList then package.dropLast
  else package ++ [segment]

/-- The packages that a path can mean, the first choice first. -/
def candidatePackages (fromPackage path : List Char) : List (List Char) :=
  let segments := (pathSegments path).map trim
  let here := pathSegments fromPackage
  let start := segments.headD []
  if start = "crate".toList then [joinSegments segments.tail]
  else if start = "self".toList ∨ start = "super".toList then
    [joinSegments (segments.foldl walk here)]
  else [joinSegments (here ++ segments), joinSegments segments]

/-- The number of the declaration that a reference written in `fromPackage` means. -/
def resolve (index : TypeIndex) (fromPackage reference : String) : Option Nat :=
  let here := packageKey fromPackage
  let cs := trim reference.toList
  match cutLastSegment cs with
  | none => index.lookup here (String.ofList cs)
  | some (path, name) =>
    (candidatePackages here.toList path).findSome? fun package =>
      index.lookup (String.ofList package) (String.ofList name)

end TypeIndex

end FieldRules
