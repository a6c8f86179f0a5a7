/-!
# Branches

A branch is the control transfer that ends a basic block. It is generic in the condition that it
tests and in the labels that it names, so that one branch can be read over names, over indexes or
over the labels of another label space. The slots of a branch have a fixed order, `Branch.labels`,
and every traversal visits them in that order.
-/

namespace Flowgraph

/-- The control transfer at the end of a block. -/
inductive Branch (Cond L : Type) where
  /-- Go to the target. -/
  | jump (target : L)
  /-- Go to `whenTrue` if the condition holds, and to `whenFalse` if it does not. -/
  | conditional (test : Cond) (whenTrue whenFalse : L)
  /-- Stop; control goes nowhere. -/
  | halt
  deriving DecidableEq, Repr

namespace Branch

variable {Cond L M : Type}

/-- The labels that a branch can transfer control to, in slot order. -/
def labels : Branch Cond L → List L
  | jump target => [target]
  | conditional _ whenTrue whenFalse => [whenTrue, whenFalse]
  | halt => []

/-- Whether a branch ends execution. -/
def isHalt : Branch Cond L → Bool
  | halt => true
  | _ => false

/-- Replace every label by its value under `f`. -/
def mapLabels (f : L → M) : Branch Cond L → Branch Cond M
  | jump target => jump (f target)
  | conditional test whenTrue whenFalse => conditional test (f whenTrue) (f whenFalse)
  | halt => halt

/-- Replace every label by the answer of `f`, which is asked slot by slot and may have effects. In
a monad with failure, the first slot that fails ends the traversal. -/
def mapLabelsM {m : Type → Type} [Monad m] (f : L → m M) : Branch Cond L → m (Branch Cond M)
  | jump target => do return jump (← f target)
  | conditional test whenTrue whenFalse => do
    let whenTrue ← f whenTrue
    let whenFalse ← f whenFalse
    return conditional test whenTrue whenFalse
  | halt => return halt

/-- Write a branch, given how conditions and labels are written. -/
def render (condText : Cond → String) (labelText : L → String) : Branch Cond L → String
  | jump target => s!"jmp {labelText target}"
  | conditional test whenTrue whenFalse =>
    s!"br {condText test}, {labelText whenTrue}, {labelText whenFalse}"
  | halt => "halt"

/-- Mapping changes the labels of a branch and keeps their order. -/
@[simp] theorem labels_mapLabels (f : L → M) (branch : Branch Cond L) :
    (branch.mapLabels f).labels = branch.labels.map f := by
  cases branch <;> rfl

/-- Mapping never turns a branch into a halt, nor a halt into something else. -/
@[simp] theorem isHalt_mapLabels (f : L → M) (branch : Branch Cond L) :
    (branch.mapLabels f).isHalt = branch.isHalt := by
  cases branch <;> rfl

/-- Only the values of `f` on the labels of a branch matter to the mapped branch. -/
theorem mapLabels_congr {f g : L → M} {branch : Branch Cond L}
    (agree : ∀ label ∈ branch.labels, f label = g label) :
    branch.mapLabels f = branch.mapLabels g := by
  cases branch <;> simp_all [mapLabels, labels]

/-- Mapping twice is mapping by the composite. -/
theorem mapLabels_mapLabels {N : Type} (f : L → M) (g : M → N) (branch : Branch Cond L) :
    (branch.mapLabels f).mapLabels g = branch.mapLabels fun label => g (f label) := by
  cases branch <;> rfl

/-- Mapping by the identity changes nothing. -/
@[simp] theorem mapLabels_id (branch : Branch Cond L) :
    branch.mapLabels (fun label => label) = branch := by
  cases branch <;> rfl

end Branch

end Flowgraph
