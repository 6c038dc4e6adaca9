import FieldRules.FileTree
import FieldRules.Glob
import Mathlib.Tactic.SplitIfs

/-!
# Runs that only read

A run over a tree that neither makes a directory nor writes a file leaves every tree as it is.
`OnlyReads` says so of a run. It holds of the three operations that look at a tree, and every way of
putting runs together keeps it; so it holds of the search for the files that some arguments name
(`OnlyReads.resolve`), whatever the tree and the patterns are.
-/

namespace FieldRules

/-- A run that leaves every tree as it is. -/
def OnlyReads {α : Type} (x : StateM FileTree α) : Prop :=
  ∀ tree, (x tree).2 = tree

namespace OnlyReads

variable {α β : Type} {x y : StateM FileTree α}

/-- What follows such a run starts from the same tree. -/
theorem bind_run (h : OnlyReads x) (f : α → StateM FileTree β) (tree : FileTree) :
    (x >>= f) tree = f (x tree).1 tree :=
  congrArg (f (x tree).1) (h tree)

/-! ### Runs put together -/

theorem pure (a : α) : OnlyReads (Pure.pure a) := fun _ => rfl

theorem bind {f : α → StateM FileTree β} (hx : OnlyReads x) (hf : ∀ a, OnlyReads (f a)) :
    OnlyReads (x >>= f) := fun tree => by
  rw [hx.bind_run]
  exact hf _ tree

theorem ite {c : Prop} [Decidable c] (hx : OnlyReads x) (hy : OnlyReads y) :
    OnlyReads (if c then x else y) := by
  split_ifs
  · exact hx
  · exact hy

theorem mapM {f : α → StateM FileTree β} (hf : ∀ a, OnlyReads (f a)) (as : List α) :
    OnlyReads (as.mapM f) := by
  induction as with
  | nil => exact .pure []
  | cons a as ih =>
    rw [List.mapM_cons]
    exact .bind (hf a) fun b => .bind ih fun bs => .pure (b :: bs)

/-! ### Looking at a tree -/

theorem kind? (path : String) : OnlyReads (FileTree.fileSystem.kind? path) := fun _ => rfl

theorem entries (path : String) : OnlyReads (FileTree.fileSystem.entries path) := fun _ => rfl

theorem read (path : String) : OnlyReads (FileTree.fileSystem.read path) := fun _ => rfl

/-! ### Finding files -/

open Glob

theorem ofPath (path : String) : OnlyReads (Place.ofPath FileTree.fileSystem path) :=
  .bind (.bind (.kind? path) fun _ => .pure _) fun _ => .pure _

/-- By induction on the depth: whatever a component matches, the search goes on below with one level
less, or it ends. -/
theorem expand (onlyDirectories : Bool) (depth : Nat) (components : List (List Token))
    (here : Place) :
    OnlyReads (Glob.expand FileTree.fileSystem onlyDirectories depth components here) := by
  induction depth generalizing components here with
  | zero => exact .pure _
  | succ depth ih =>
    cases components with
    | nil => exact .pure _
    | cons component rest =>
      rw [Glob.expand]
      cases literalName component with
      | some name =>
        refine .ite (.bind (.pure _) fun present => ?_)
          (.bind (.kind? _) fun kind => .bind (.pure _) fun present => ?_)
        all_goals
          exact .ite (.bind (.ofPath _) fun place => .ite (.pure _) (ih rest place)) (.pure _)
      | none =>
        refine .ite (.pure _) (.bind (.entries _) fun listing => ?_)
        cases listing with
        | error e => exact .pure _
        | ok entries =>
          refine .bind (.mapM (fun name => ?_) _) fun dots =>
            .bind (.mapM (fun entry => ?_) _) fun found => .pure _
          · exact .bind (.ofPath _) fun place => .ite (.pure _) (ih rest place)
          · refine .ite ?_ (.ite (.ite (.pure _) (ih rest _)) (.pure _))
            cases rest.dropWhile isRecursive with
            | nil =>
              exact .bind (.pure _) fun own =>
                .ite (.bind (ih _ _) fun inner => .pure _) (.bind (.pure _) fun inner => .pure _)
            | cons next after =>
              refine .ite (.bind (.ite (.pure _) (ih after _)) fun own => ?_)
                (.bind (.pure _) fun own => ?_)
              all_goals
                exact .ite (.bind (ih _ _) fun inner => .pure _)
                  (.bind (.pure _) fun inner => .pure _)

theorem find (pattern : String) : OnlyReads (Glob.find FileTree.fileSystem pattern) := by
  unfold Glob.find
  dsimp only
  split
  · exact .pure _
  · exact .pure _
  · exact .bind (.ofPath _) fun start => .bind (.expand _ _ _ _) fun found => .pure _

/-- **The search for files leaves the tree as it is**, whether it finds them or not. -/
theorem resolve (inputs : List String) :
    OnlyReads (Glob.resolve FileTree.fileSystem inputs) := by
  induction inputs with
  | nil => exact .pure _
  | cons argument arguments ih =>
    refine .ite (.bind (.find argument) fun first => ?_) (.bind (.pure _) fun first => ?_)
    all_goals
      cases first with
      | error e => exact .pure _
      | ok paths =>
        refine .bind ih fun others => ?_
        cases others <;> exact .pure _

end OnlyReads

end FieldRules
