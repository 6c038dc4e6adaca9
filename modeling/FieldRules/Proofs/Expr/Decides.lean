import FieldRules.Proofs.Expr.Meaning
import FieldRules.Proofs.Traversal

/-!
# What an expression decides

A check is an expression whose value is true or false. `Expr.Decides` says that it is true exactly
if a given statement holds; there is one lemma for each kind of expression, so that the statement
that a check decides is read off its shape.
-/

namespace FieldRules

/-! ### Kinds of value -/

/-- The category of a primitive value. -/
def Scalar.category : Scalar → Category
  | .text _ => .string
  | .number _ => .integer
  | .truth _ => .bool

theorem Scalar.exists_text {x : Scalar} (h : x.category = .string) : ∃ s, x = .text s := by
  cases x with
  | text s => exact ⟨s, rfl⟩
  | number | truth => cases h

theorem Scalar.exists_number {x : Scalar} (h : x.category = .integer) : ∃ n, x = .number n := by
  cases x with
  | number n => exact ⟨n, rfl⟩
  | text | truth => cases h

/-- The first number is less than the second. -/
def Scalar.Less (x y : Scalar) : Prop :=
  ∃ m n, x = .number m ∧ y = .number n ∧ m < n

/-- The first number is at most the second. -/
def Scalar.AtMost (x y : Scalar) : Prop :=
  ∃ m n, x = .number m ∧ y = .number n ∧ m ≤ n

/-- What a comparison of two values states. -/
def Comparison.Holds (c : Comparison) (x y : Scalar) : Prop :=
  match c with
  | .eq => x = y
  | .ne => x ≠ y
  | .gt => y.Less x
  | .ge => y.AtMost x
  | .lt => x.Less y
  | .le => x.AtMost y

/-- Values of one category can be compared by what is legal for the category. -/
theorem Comparison.test?_of_comparableBy {c : Comparison} {x y : Scalar}
    (hxy : y.category = x.category) (hc : Operation.comparableBy c x.category = true) :
    ∃ b, c.test? x y = some b ∧ (b = true ↔ c.Holds x y) := by
  cases x <;> cases y <;> cases hxy
  case number.number m n =>
    refine ⟨_, rfl, ?_⟩
    cases c <;> simp [testNumbers, Holds, Scalar.Less, Scalar.AtMost]
  case text.text s t => cases c <;> cases hc <;> exact ⟨_, rfl, by simp [Holds]⟩
  case truth.truth a b => cases c <;> cases hc <;> exact ⟨_, rfl, by simp [Holds]⟩

/-- What a connective states of some values: that all of them have a property, or that one has. -/
def Connective.States (op : Connective) (P : Scalar → Prop) (xs : List Scalar) : Prop :=
  match op with
  | .and => ∀ x ∈ xs, P x
  | .or => ∃ x ∈ xs, P x

/-- Truth values joined say what the connective states. -/
theorem Connective.combine_iff (op : Connective) {P : Scalar → Prop} {bs : List Bool}
    {xs : List Scalar} (h : List.Forall₂ (fun b x => b = true ↔ P x) bs xs) :
    op.combine bs = true ↔ op.States P xs := by
  induction h with
  | nil => cases op <;> simp [combine, States]
  | cons hP _ ih =>
    cases op with
    | and =>
      simp only [combine, States, List.all_cons, Bool.and_eq_true, List.forall_mem_cons] at ih ⊢
      exact and_congr hP ih
    | or =>
      simp only [combine, States, List.any_cons, Bool.or_eq_true, List.exists_mem_cons_iff] at ih ⊢
      exact or_congr hP ih

namespace Expr

variable {rt : Runtime} {env : Env} {P Q : Prop}

attribute [local simp] eval evalTruths

/-- The value of the expression is true if the statement holds, and false if not. -/
def Decides (rt : Runtime) (env : Env) (e : Expr) (P : Prop) : Prop :=
  ∃ b, e.eval rt env = some (.ofBool b) ∧ (b = true ↔ P)

theorem Decides.congr {e : Expr} (h : e.Decides rt env P) (hPQ : P ↔ Q) : e.Decides rt env Q := by
  obtain ⟨b, hb, hP⟩ := h
  exact ⟨b, hb, hP.trans hPQ⟩

theorem Decides.truth {e : Expr} (h : e.Decides rt env P) :
    ∃ b, (e.eval rt env).bind (·.truth?) = some b ∧ (b = true ↔ P) := by
  obtain ⟨b, hb, hP⟩ := h
  exact ⟨b, by rw [hb]; rfl, hP⟩

theorem decides_true : (Expr.const true).Decides rt env True :=
  ⟨true, by simp, by simp⟩

theorem Decides.not {e : Expr} (h : e.Decides rt env P) : (Expr.not e).Decides rt env (¬ P) := by
  obtain ⟨b, hb, hP⟩ := h.truth
  refine ⟨!b, by rw [eval, hb]; rfl, ?_⟩
  rw [← hP]
  simp

theorem decides_isEmail {e : Expr} {s : String}
    (h : e.eval rt env = some (.scalar (.text s))) :
    (Expr.isEmail e).Decides rt env (rt.isEmail s = true) :=
  ⟨rt.isEmail s, by rw [eval, h]; rfl, Iff.rfl⟩

/-- A comparison decides what it states. -/
theorem decides_compare {c : Comparison} {lhs rhs : Expr} {x y : Scalar}
    (hx : lhs.eval rt env = some (.scalar x)) (hy : rhs.eval rt env = some (.scalar y))
    (hxy : y.category = x.category) (hc : Operation.comparableBy c x.category = true) :
    (Expr.compare c lhs rhs).Decides rt env (c.Holds x y) := by
  obtain ⟨b, hb, hP⟩ := Comparison.test?_of_comparableBy hxy hc
  refine ⟨b, ?_, hP⟩
  rw [eval, hx, hy]
  show (c.test? x y).map Value.ofBool = _
  rw [hb]
  rfl

/-- Membership in a set of constants decides membership among their values. -/
theorem decides_inSet {item : Expr} {set : List Literal} {x : Scalar} {ys : List Scalar}
    (hx : item.eval rt env = some (.scalar x))
    (hys : List.Forall₂ (fun l y => l.scalar? = some y) set ys) :
    (Expr.inSet item set).Decides rt env (x ∈ ys) := by
  refine ⟨ys.contains x, ?_, List.contains_iff_mem⟩
  rw [eval, hx, mapM_eq_some_iff.2 hys]
  rfl

/-! ### Several terms -/

/-- Terms that decide a property of some values have its truth values. -/
theorem evalTruths_of_forall₂ {terms : List Expr} {P : Scalar → Prop} {xs : List Scalar}
    (h : List.Forall₂ (fun e x => Decides rt env e (P x)) terms xs) :
    ∃ bs, evalTruths rt env terms = some bs ∧ List.Forall₂ (fun b x => b = true ↔ P x) bs xs := by
  induction h with
  | nil => exact ⟨[], by simp, .nil⟩
  | cons he _ ih =>
    obtain ⟨b, hb, hP⟩ := he.truth
    obtain ⟨bs, hbs, hPs⟩ := ih
    exact ⟨b :: bs, by rw [evalTruths, hb, hbs]; rfl, .cons hP hPs⟩

/-- Terms joined by a connective decide what it states. -/
theorem decides_join {op : Connective} {terms : List Expr} {P : Scalar → Prop} {xs : List Scalar}
    (h : List.Forall₂ (fun e x => Decides rt env e (P x)) terms xs) :
    (join op terms).Decides rt env (op.States P xs) := by
  unfold join
  split
  case h_1 term =>
    -- A single term is not wrapped in a connective, but decides the same.
    obtain ⟨x, _, hterm, hnil, rfl⟩ := List.forall₂_cons_left_iff.1 h
    cases hnil
    refine hterm.congr ?_
    cases op <;> simp [Connective.States]
  case h_2 =>
    obtain ⟨bs, hbs, hP⟩ := evalTruths_of_forall₂ h
    exact ⟨op.combine bs, by rw [eval, hbs]; rfl, op.combine_iff hP⟩

/-! ### Collections and guards -/

/-- An expression about all elements decides that they have what its body decides. -/
theorem decides_every {collection body : Expr} {keys : Bool} {v : Value} {xs : List Scalar}
    {P : Scalar → Prop} (hv : collection.eval rt env = some v) (hxs : v.items? keys = some xs)
    (hbody : ∀ x ∈ xs, body.Decides rt { env with element := some x } (P x)) :
    (Expr.every collection keys body).Decides rt env (∀ x ∈ xs, P x) := by
  obtain ⟨bs, hbs⟩ := exists_forall₂_iff.2 fun x hx => (hbody x hx).truth
  have hmap := mapM_eq_some_iff.2 (hbs.imp fun _ _ h => h.1)
  have hP : List.Forall₂ (fun b x => b = true ↔ P x) bs xs := hbs.flip.imp fun _ _ h => h.2
  refine ⟨bs.all id, ?_, Connective.combine_iff .and hP⟩
  rw [eval, hv, Option.bind_some, hxs, Option.bind_some, hmap]
  rfl

/-- A guarded check decides nothing but false if the value is not set. -/
theorem decides_someAnd_absent {option body : Expr} (h : option.eval rt env = some .absent) :
    (Expr.someAnd option body).Decides rt env False :=
  ⟨false, by simp [h], by simp⟩

/-- If the value is set, a guarded check decides what its body decides of the content. -/
theorem decides_someAnd_present {option body : Expr} {v : Value}
    (h : option.eval rt env = some (.present v))
    (hbody : body.Decides rt { env with bound := some v } P) :
    (Expr.someAnd option body).Decides rt env P := by
  obtain ⟨b, hb, hP⟩ := hbody
  exact ⟨b, by rw [eval, h]; exact hb, hP⟩

end Expr

end FieldRules
