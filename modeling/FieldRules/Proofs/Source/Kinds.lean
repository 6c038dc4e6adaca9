import FieldRules.Proofs.Source.Tokens

/-!
# Kinds of constants

An integer constant is signed, unsigned or a size, and in source it is the same digits whichever of
these it is. `Expr.unkinded` forgets the difference, and the source of an expression does not show
it (`source_unkinded`).
-/

namespace FieldRules

/-- The constant as a signed integer, if it is an integer of any kind. -/
def Literal.unkinded : Literal → Literal
  | .unsigned n | .size n => .int n
  | l => l

namespace Expr

mutual

/-- The expression with its integer constants as signed ones. -/
def unkinded : Expr → Expr
  | .const b => .const b
  | .value place => .value place
  | .literal l => .literal l.unkinded
  | .len e => .len e.unkinded
  | .lower e => .lower e.unkinded
  | .asStr e => .asStr e.unkinded
  | .widen w e => .widen w e.unkinded
  | .isEmail e => .isEmail e.unkinded
  | .compare c lhs rhs => .compare c lhs.unkinded rhs.unkinded
  | .not e => .not e.unkinded
  | .connect op terms => .connect op (unkindedAll terms)
  | .inSet item set => .inSet item.unkinded (set.map Literal.unkinded)
  | .every collection keys body => .every collection.unkinded keys body.unkinded
  | .someAnd option body => .someAnd option.unkinded body.unkinded

/-- Some expressions, each with its integer constants as signed ones. -/
def unkindedAll : List Expr → List Expr
  | [] => []
  | e :: es => e.unkinded :: unkindedAll es

end

theorem unkindedAll_eq_map (es : List Expr) : unkindedAll es = es.map unkinded := by
  induction es with
  | nil => rfl
  | cons e es ih => rw [unkindedAll, ih, List.map_cons]

variable {support s : String}

theorem receiver_unkinded (e : Expr) (s : String) : receiver e.unkinded s = receiver e s := by
  cases e with
  | value place => cases place <;> rfl
  | const | literal | len | lower | asStr | widen | isEmail | compare | not | connect | inSet
  | every | someAnd => rfl

theorem operand_unkinded (e : Expr) (s : String) : operand e.unkinded s = operand e s := by
  cases e <;> rfl

theorem isTrue_unkinded (e : Expr) : e.unkinded.isTrue = e.isTrue := by
  cases e with
  | const b => cases b <;> rfl
  | value | literal | len | lower | asStr | widen | isEmail | compare | not | connect | inSet
  | every | someAnd => rfl

end Expr

theorem Literal.source_unkinded (l : Literal) : l.unkinded.source = l.source := by
  cases l with
  | unsigned n | size n =>
    have hn : ¬ (n : Int) < 0 := by omega
    simp [unkinded, source, Numeral.integerText, hn]
  | text | int | float | bool => rfl

namespace Expr

variable {support : String}

mutual

/-- **Source does not show the kind of an integer.** -/
theorem source_unkinded : ∀ e : Expr, e.unkinded.source support = e.source support
  | .const _ => rfl
  | .value _ => rfl
  | .literal l => l.source_unkinded
  | .len e | .lower e | .asStr e | .widen _ e | .isEmail e | .not e => by
    simp only [unkinded, source, receiver_unkinded, operand_unkinded, source_unkinded e]
  | .compare _ lhs rhs => by
    simp only [unkinded, source, operand_unkinded, source_unkinded lhs, source_unkinded rhs]
  | .connect _ terms => by
    rw [unkinded, source, operandSources_unkinded terms, source]
  | .inSet item set => by
    have hset : (set.map Literal.unkinded).map Literal.source = set.map Literal.source := by
      rw [List.map_map]
      exact List.map_congr_left fun l _ => l.source_unkinded
    simp only [unkinded, source, setSource, hset, source_unkinded item]
  | .every collection _ body => by
    simp only [unkinded, source, receiver_unkinded, source_unkinded collection,
      source_unkinded body]
  | .someAnd option body => by
    simp only [unkinded, source, receiver_unkinded, isTrue_unkinded, source_unkinded option,
      source_unkinded body]

theorem operandSources_unkinded :
    ∀ es : List Expr, operandSources support (unkindedAll es) = operandSources support es
  | [] => rfl
  | e :: es => by
    rw [unkindedAll, operandSources, operandSources, operand_unkinded, source_unkinded e,
      operandSources_unkinded es]

end

end Expr

end FieldRules
