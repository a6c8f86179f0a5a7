import Flowgraph.Block.Basic

/-!
# Machines

A machine gives meaning to the instructions and conditions of an instruction set, as operations on
its state that can fail. A failure leaves the state as it was when the operation failed, so what
ran before it stays visible.
-/

namespace Flowgraph

/-- What instructions do and what conditions answer, on states of type `State` and with failures of
type `Fault`. A test may change the state as well. -/
structure Machine (Inst Cond State Fault : Type) where
  exec : Inst → EStateM Fault State Unit
  test : Cond → EStateM Fault State Bool

/-- Run a block: all instructions in order, then the branch. The answer is the label that control
goes to, or nothing if the block halts. -/
def Block.exec {Inst Cond L State Fault : Type} (machine : Machine Inst Cond State Fault)
    (block : Block Inst Cond L) : EStateM Fault State (Option L) := do
  block.insts.forM machine.exec
  match block.branch with
  | .jump target => return some target
  | .conditional test whenTrue whenFalse =>
    let holds ← machine.test test
    return some (if holds then whenTrue else whenFalse)
  | .halt => return none

end Flowgraph
