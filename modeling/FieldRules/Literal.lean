import FieldRules.Numeral.Shortest
import FieldRules.Operation
import FieldRules.Text.Blank

/-!
# Literals

The constants of a check, and how they are read from the targets of a tag. `TargetKind.of` says what
an operation expects its targets to be on a field of a given type, and `TargetKind.read` reads one
target: an integer must lie within the range of the field's type, and a number must be finite, in
single precision where the field is single.
-/

namespace FieldRules

/-- A constant of a check. -/
inductive Literal where
  /-- A text. -/
  | text (s : String)
  /-- An integer within the signed integers of 128 bits. -/
  | int (n : Int)
  /-- An integer above the signed integers of 128 bits. -/
  | unsigned (n : Nat)
  /-- A floating-point number. -/
  | float (x : Double)
  /-- A truth value. -/
  | bool (b : Bool)
  /-- A length or an element count. -/
  | size (n : Nat)
  deriving DecidableEq, Repr

/-- What a target has to be. -/
inductive TargetKind where
  /-- Any text. -/
  | text
  /-- An integer from `min` to `max`. -/
  | integer (min max : Int)
  /-- A finite number; `single` if it has to stay finite in single precision. -/
  | float (single : Bool)
  /-- A truth value. -/
  | bool
  /-- A length or an element count. -/
  | size
  deriving DecidableEq, Repr

namespace TargetKind

/-- The least and the greatest signed integer of some bits, the sign being one of them. -/
def signedBounds (bits : Nat) : Int × Int :=
  let half : Int := (1 <<< (bits - 1) : Nat)
  (-half, half - 1)

/-- The least and the greatest unsigned integer of some bits. -/
def unsignedBounds (bits : Nat) : Int × Int :=
  (0, (1 <<< bits : Nat) - 1)

/-- The largest signed integer of 128 bits. -/
def maxInt : Int := (signedBounds 128).2

/-- The least and the greatest value of the integer type with the given spelling. A spelling that is
no integer type by itself, such as a reference to one, counts as the widest signed type. -/
def integerBounds (base : String) : Int × Int :=
  match Text.trimmed base with
  | "i8" => signedBounds 8
  | "i16" => signedBounds 16
  | "i32" => signedBounds 32
  | "i64" | "isize" => signedBounds 64
  | "u8" => unsignedBounds 8
  | "u16" => unsignedBounds 16
  | "u32" => unsignedBounds 32
  | "u64" | "usize" => unsignedBounds 64
  | "u128" => unsignedBounds 128
  | _ => signedBounds 128

/-- What a value of the type is written as. -/
def ofCategory (ty : FieldType) : TargetKind :=
  match ty.category with
  | .integer => .integer (integerBounds ty.base).1 (integerBounds ty.base).2
  | .float => .float (Text.trimmed ty.base == "f32")
  | .bool => .bool
  | .string | .other => .text

/-- What the operation expects its targets to be on a field of the type. -/
def of (op : Operation) (ty : FieldType) : TargetKind :=
  match op with
  | .limit _ =>
    if ty.toClass.shape.isSized || ty.category == .string then .size else ofCategory ty
  | .sameText _ => .text
  | _ => ofCategory ty

/-- An integer as a literal: signed if the signed integers of 128 bits reach it. -/
def integerLiteral (n : Int) : Literal :=
  if n ≤ maxInt then .int n else .unsigned n.toNat

/-- Reads a target, without the blanks around it. -/
def readTrimmed (kind : TargetKind) (cs : List Char) : Option Literal :=
  match kind with
  | .text => some (.text (String.ofList cs))
  | .integer min max =>
    match Numeral.readInteger cs with
    | some n => if min ≤ n ∧ n ≤ max then some (integerLiteral n) else none
    | none => none
  | .float single =>
    match Double.read cs with
    | some x => if x.isFinite && !(single && !x.fitsSingle) then some (.float x) else none
    | none => none
  | .bool =>
    if cs = "true".toList then some (.bool true)
    else if cs = "false".toList then some (.bool false)
    else none
  | .size =>
    match Numeral.readNatural cs with
    | some n => if n ≤ Numeral.maxSize then some (.size n) else none
    | none => none

/-- Reads a target; `none` if it is not of the kind. -/
def read (kind : TargetKind) (value : String) : Option Literal :=
  kind.readTrimmed (Text.trim value.toList)

/-- What the kind asks for, as an error names it. -/
def description : TargetKind → String
  | .text => "a string"
  | .integer .. => "an integer within the field's range"
  | .float false => "a finite number"
  | .float true => "a number within `f32` range"
  | .bool => "`true` or `false`"
  | .size => "a non-negative size"

end TargetKind

end FieldRules
