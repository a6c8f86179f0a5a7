import Flowgraph.Block.Branch

/-!
# Basic blocks

A basic block is a list of instructions that ends in exactly one branch. The instructions know
nothing of labels: whatever is said about the labels of a block is said about its branch.
-/

namespace Flowgraph

/-- Straight-line instructions, then one branch. -/
structure Block (Inst Cond L : Type) where
  insts : List Inst
  branch : Branch Cond L
  deriving DecidableEq, Repr

namespace Block

variable {Inst Cond L M : Type}

/-- Blocks are equal as soon as their instructions and branches are. -/
@[ext] theorem ext {left right : Block Inst Cond L} (insts : left.insts = right.insts)
    (branches : left.branch = right.branch) : left = right := by
  cases left
  cases right
  cases insts
  cases branches
  rfl

/-- The block that consists of a branch alone. -/
def terminal (branch : Branch Cond L) : Block Inst Cond L := ⟨[], branch⟩

/-- The block that does one instruction more, before all others. -/
def cons (inst : Inst) (block : Block Inst Cond L) : Block Inst Cond L :=
  ⟨inst :: block.insts, block.branch⟩

/-- The block that goes straight to a target. -/
def jump (target : L) : Block Inst Cond L := terminal (.jump target)

/-- The block that stops at once. -/
def halt : Block Inst Cond L := terminal .halt

/-- The labels that a block can transfer control to, in slot order. -/
def successors (block : Block Inst Cond L) : List L := block.branch.labels

/-- Replace every label by its value under `f`. -/
def mapLabels (f : L → M) (block : Block Inst Cond L) : Block Inst Cond M :=
  ⟨block.insts, block.branch.mapLabels f⟩

/-- Replace every label by the answer of `f`, asked in slot order. -/
def mapLabelsM {m : Type → Type} [Monad m] (f : L → m M) (block : Block Inst Cond L) :
    m (Block Inst Cond M) := do
  return ⟨block.insts, ← block.branch.mapLabelsM f⟩

/-- Mapping changes the successors of a block and keeps their order. -/
@[simp] theorem successors_mapLabels (f : L → M) (block : Block Inst Cond L) :
    (block.mapLabels f).successors = block.successors.map f :=
  Branch.labels_mapLabels f block.branch

/-- Mapping leaves the instructions alone. -/
@[simp] theorem insts_mapLabels (f : L → M) (block : Block Inst Cond L) :
    (block.mapLabels f).insts = block.insts := rfl

/-- Only the values of `f` on the successors of a block matter to the mapped block. -/
theorem mapLabels_congr {f g : L → M} {block : Block Inst Cond L}
    (agree : ∀ label ∈ block.successors, f label = g label) :
    block.mapLabels f = block.mapLabels g :=
  ext rfl (Branch.mapLabels_congr agree)

/-- Mapping twice is mapping by the composite. -/
theorem mapLabels_mapLabels {N : Type} (f : L → M) (g : M → N) (block : Block Inst Cond L) :
    (block.mapLabels f).mapLabels g = block.mapLabels fun label => g (f label) :=
  ext rfl (Branch.mapLabels_mapLabels f g block.branch)

/-- Mapping by the identity changes nothing. -/
@[simp] theorem mapLabels_id (block : Block Inst Cond L) :
    block.mapLabels (fun label => label) = block :=
  ext rfl (Branch.mapLabels_id block.branch)

end Block

end Flowgraph
