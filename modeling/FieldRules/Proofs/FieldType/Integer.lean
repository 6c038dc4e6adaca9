import FieldRules.FieldType.Spelling
import FieldRules.Literal

/-!
# Integer types

The integer types with their ranges, and the one that a field is declared with. The category of a
field is found behind a reference, so the type is, too (`integerType?`). The bounds of targets are
looked up by the whole spelling: they are those of the type if it is spelled without a reference,
and of the widest signed type otherwise (`boundsType`).
-/

namespace FieldRules

open Text

/-- The width of an integer type. -/
inductive Width where
  | w8
  | w16
  | w32
  | w64
  | w128
  deriving DecidableEq, Repr

/-- The number of bits. -/
def Width.bits : Width → Nat
  | .w8 => 8
  | .w16 => 16
  | .w32 => 32
  | .w64 => 64
  | .w128 => 128

/-- An integer type. -/
inductive IntegerType where
  /-- In two's complement. -/
  | signed (w : Width)
  /-- Without a sign. -/
  | unsigned (w : Width)
  deriving DecidableEq, Repr

namespace IntegerType

/-- The type of the given name. The types without a width have 64 bits. -/
def ofName? (name : String) : Option IntegerType :=
  match name with
  | "i8" => some (.signed .w8)
  | "i16" => some (.signed .w16)
  | "i32" => some (.signed .w32)
  | "i64" | "isize" => some (.signed .w64)
  | "i128" => some (.signed .w128)
  | "u8" => some (.unsigned .w8)
  | "u16" => some (.unsigned .w16)
  | "u32" => some (.unsigned .w32)
  | "u64" | "usize" => some (.unsigned .w64)
  | "u128" => some (.unsigned .w128)
  | _ => none

/-- The least value. -/
def least : IntegerType → Int
  | .signed w => -(Nat.pow 2 (w.bits - 1) : Nat)
  | .unsigned _ => 0

/-- The greatest value. -/
def greatest : IntegerType → Int
  | .signed w => (Nat.pow 2 (w.bits - 1) : Nat) - 1
  | .unsigned w => (Nat.pow 2 w.bits : Nat) - 1

/-- The integer is a value of the type. -/
def Holds (T : IntegerType) (n : Int) : Prop :=
  T.least ≤ n ∧ n ≤ T.greatest

variable {S T : IntegerType} {n : Int}

instance : Decidable (T.Holds n) := by
  unfold Holds
  infer_instance

/-- A type with wider bounds holds the same integers. -/
theorem Holds.mono (h : T.Holds n) (hleast : S.least ≤ T.least)
    (hgreatest : T.greatest ≤ S.greatest) : S.Holds n :=
  ⟨Int.le_trans hleast h.1, Int.le_trans h.2 hgreatest⟩

/-- The signed type of 128 bits holds the values of all types but one. -/
theorem Holds.signed_w128 (h : T.Holds n) (hT : T ≠ .unsigned .w128) :
    (signed .w128).Holds n := by
  cases T with
  | signed w => cases w <;> exact h.mono (by decide) (by decide)
  | unsigned w =>
    cases w with
    | w128 => exact absurd rfl hT
    | w8 | w16 | w32 | w64 => exact h.mono (by decide) (by decide)

/-- The unsigned type of 128 bits holds the values of all unsigned types. -/
theorem Holds.unsigned_w128 {w : Width} (h : (unsigned w).Holds n) : (unsigned .w128).Holds n := by
  cases w <;> exact h.mono (by decide) (by decide)

/-- Every type has a zero. -/
theorem holds_zero (T : IntegerType) : T.Holds 0 := by
  cases T with
  | signed w | unsigned w => cases w <;> decide

/-- Every signed type goes below zero. -/
theorem signed_holds_neg_one {w : Width} : (signed w).Holds (-1) := by
  cases w <;> decide

end IntegerType

namespace FieldType

/-- The integer type that a base type names, behind a reference or not. -/
def integerType? (type : FieldType) : Option IntegerType :=
  IntegerType.ofName? (String.ofList (referent type.base.toList))

/-- The integer type that a base type is spelled as, without a reference. -/
def spelledType? (type : FieldType) : Option IntegerType :=
  IntegerType.ofName? (Text.trimmed type.base)

/-- The integer type whose bounds targets must lie within. -/
def boundsType (type : FieldType) : IntegerType :=
  type.spelledType?.getD (.signed .w128)

theorem category_ofSpelling (raw : String) :
    (ofSpelling raw).category = categoryOf (ofSpelling raw).base.toList := by
  simp [ofSpelling]

/-- The integers are the types that name one. -/
theorem categoryOf_eq_integer_iff {base : List Char} :
    categoryOf base = .integer ↔
      ∃ T, IntegerType.ofName? (String.ofList (referent base)) = some T := by
  unfold categoryOf
  generalize String.ofList (referent base) = name
  constructor
  · intro h
    have hnames : ∀ name ∈ primitiveNames .integer,
        (IntegerType.ofName? name).isSome = true := by decide
    rcases Option.getD_eq_iff.1 h with hfind | ⟨-, hother⟩
    · have hfound := List.find?_some hfind
      exact Option.isSome_iff_exists.1 (hnames name (by simpa using hfound))
    · cases hother
  · rintro ⟨T, h⟩
    unfold IntegerType.ofName? at h
    split at h
    all_goals first | rfl | cases h

theorem exists_integerType? {raw : String} (h : (ofSpelling raw).category = .integer) :
    ∃ T, (ofSpelling raw).integerType? = some T :=
  categoryOf_eq_integer_iff.1 ((category_ofSpelling raw).symm.trans h)

/-- The bounds of targets are those of `boundsType`. -/
theorem integerBounds_eq (type : FieldType) :
    TargetKind.integerBounds type.base = (type.boundsType.least, type.boundsType.greatest) := by
  unfold TargetKind.integerBounds boundsType spelledType? IntegerType.ofName?
  generalize Text.trimmed type.base = name
  split
  case h_12 =>
    -- The only name left that has a type is that of the widest signed one.
    split
    all_goals first | rfl | contradiction
  all_goals rfl

/-- A name of an integer type refers to itself. -/
theorem referent_of_ofName? {name : String} {T : IntegerType}
    (h : IntegerType.ofName? name = some T) {cs : List Char} (hcs : trim cs = name.toList) :
    referent cs = name.toList := by
  unfold referent
  rw [hcs]
  unfold IntegerType.ofName? at h
  split at h
  all_goals first | rfl | cases h

/-- What is spelled as an integer type names it. -/
theorem integerType?_of_spelledType? {type : FieldType} {T : IntegerType}
    (h : type.spelledType? = some T) : type.integerType? = some T := by
  have hbase : referent type.base.toList = (Text.trimmed type.base).toList :=
    referent_of_ofName? h (toList_trimmed type.base).symm
  rw [integerType?, hbase, String.ofList_toList]
  exact h

end FieldType

end FieldRules
