import Flowgraph.Proofs.Run.Step

/-!
# The same instructions on other states

Two machines for the same instructions can differ in what they keep in their states. `Machine.Carries` says
that every state of the one has a counterpart among the states of the other, and that no operation tells
them apart: it answers or fails in the same way, and leaves counterparts behind. Blocks are made of
operations, so they keep to that as well, and runs are made of blocks. Different states may have one
counterpart, and there may be states that are nobody's counterpart.
-/

namespace Flowgraph

variable {Inst Cond State Other Fault A B : Type}

/-- What comes of an operation, with the state that it leaves taken to its counterpart. -/
def mapState (carry : State → Other) :
    EStateM.Result Fault State A → EStateM.Result Fault Other A
  | .ok value after => .ok value (carry after)
  | .error fault after => .error fault (carry after)

section Operations

/-- On the counterpart of a state, `other` does what `operation` does on the state. -/
def Commutes (carry : State → Other) (operation : EStateM Fault State A)
    (other : EStateM Fault Other A) : Prop :=
  ∀ state, other.run (carry state) = mapState carry (operation.run state)

variable {carry : State → Other}

theorem commutes_pure (value : A) :
    Commutes carry (pure value : EStateM Fault State A) (pure value) :=
  fun _ => rfl

/-- A sequence commutes when its first operation does, and the others do after it. -/
theorem Commutes.bind {first : EStateM Fault State A} {other : EStateM Fault Other A}
    {next : A → EStateM Fault State B} {otherNext : A → EStateM Fault Other B}
    (commutes : Commutes carry first other)
    (later : ∀ value, Commutes carry (next value) (otherNext value)) :
    Commutes carry (first >>= next) (other >>= otherNext) := by
  intro state
  rw [EStateM.run_bind, EStateM.run_bind, commutes state]
  cases first.run state with
  | ok value after => exact later value after
  | error fault after => rfl

/-- So does what is done for each item of a list. -/
theorem commutes_forM {operation : A → EStateM Fault State Unit}
    {other : A → EStateM Fault Other Unit}
    (commutes : ∀ item, Commutes carry (operation item) (other item)) (items : List A) :
    Commutes carry (items.forM operation) (items.forM other) := by
  induction items with
  | nil => exact commutes_pure ()
  | cons item rest inductionHypothesis => exact (commutes item).bind fun _ => inductionHypothesis

end Operations

/-- Each state of `machine` has a counterpart on which `other` does the same. -/
structure Machine.Carries (machine : Machine Inst Cond State Fault)
    (other : Machine Inst Cond Other Fault) (carry : State → Other) : Prop where
  exec : ∀ inst, Commutes carry (machine.exec inst) (other.exec inst)
  test : ∀ test, Commutes carry (machine.test test) (other.test test)

/-- A run with the state that it leaves taken to its counterpart. -/
def Run.mapState (carry : State → Other) (run : Run State Fault) : Run Other Fault where
  verdict := run.verdict
  visited := run.visited
  state := carry run.state

namespace Machine.Carries

variable {machine : Machine Inst Cond State Fault} {other : Machine Inst Cond Other Fault}
  {carry : State → Other} (carries : machine.Carries other carry)

include carries

/-- Blocks do the same on counterparts. -/
theorem exec_block {L : Type} (block : Block Inst Cond L) :
    Commutes carry (block.exec machine) (block.exec other) := by
  obtain ⟨insts, branch⟩ := block
  refine (commutes_forM carries.exec insts).bind fun _ => ?_
  cases branch with
  | jump target => exact commutes_pure _
  | conditional test whenTrue whenFalse =>
    exact (carries.test test).bind fun holds => commutes_pure _
  | halt => exact commutes_pure _

/-- Runs do the same from counterparts, block by block. -/
theorem runFrom_eq (fragment : Fragment Inst Cond) (fuel : Nat) (label : fragment.CodeLabel)
    (state : State) :
    fragment.runFrom other fuel label #[] (carry state) =
      (fragment.runFrom machine fuel label #[] state).mapState carry := by
  induction fuel generalizing label state with
  | zero => rfl
  | succ fuel inductionHypothesis =>
    have proceeds (target : Label) (after : State) :
        fragment.proceed other target fuel (carry after) =
          (fragment.proceed machine target fuel after).mapState carry := by
      unfold Fragment.proceed
      split
      · exact inductionHypothesis _ after
      · rfl
    rw [Fragment.runFrom_succ, Fragment.runFrom_succ, carries.exec_block _ state]
    cases ((fragment.blockAt label).exec machine).run state with
    | error fault after => rfl
    | ok answer after =>
      cases answer with
      | none => rfl
      | some target =>
        simp only [Flowgraph.mapState]
        rw [proceeds]
        rfl

/-- From an entry of the interface, too; and a label that is no entry is refused by both. -/
theorem run_eq (fragment : Fragment Inst Cond) (entry : Label) (fuel : Nat) (state : State) :
    fragment.run other entry fuel (carry state) =
      (fragment.run machine entry fuel state).mapState carry := by
  by_cases inside : entry.Within fragment.inputs
  · rw [Fragment.run_of_within fragment other inside, Fragment.run_of_within fragment machine inside]
    exact carries.runFrom_eq fragment fuel _ state
  · rw [Fragment.run_of_not_within fragment other inside,
      Fragment.run_of_not_within fragment machine inside]
    rfl

end Machine.Carries

end Flowgraph
