/-!
# Parallel work

Computations that may fail can be carried out at the same time. Their values are collected in the
order in which the computations were listed. If several of them fail, the fault that is noticed
first is reported, and which one that is depends on how the work was scheduled. No more is promised
of it than that it is the fault of one of the computations.
-/

namespace FieldRules

/-- How some parallel work was scheduled, as far as its outcome tells: which of several faults is
noticed first. Nothing is assumed of the choice. -/
structure Schedule where
  /-- The place of the noticed one among `n + 1` faults. -/
  noticed : (n : Nat) → Fin (n + 1)

namespace Schedule

variable {ε α : Type}

/-- One computation after the other. -/
def inOrder : Schedule :=
  ⟨fun _ => 0⟩

instance : Inhabited Schedule :=
  ⟨inOrder⟩

/-- The faults among some results. -/
def faults : List (Except ε α) → List ε
  | [] => []
  | .error fault :: results => fault :: faults results
  | .ok _ :: results => faults results

/-- The values among some results. -/
def values : List (Except ε α) → List α
  | [] => []
  | .error _ :: results => values results
  | .ok value :: results => value :: values results

/-- All results as one: their values, or the fault that was noticed first. -/
def collect (schedule : Schedule) (results : List (Except ε α)) : Except ε (List α) :=
  match faults results with
  | [] => .ok (values results)
  | fault :: others => .error ((fault :: others).get (schedule.noticed others.length))

end Schedule

end FieldRules
