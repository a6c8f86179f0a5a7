import Flowgraph.Fragment.Basic
import Flowgraph.Machine.Basic

/-!
# Running fragments

A run enters a fragment at one of its entries, goes on from block to block while control goes to
hidden labels, and ends when control leaves through an exit, when a block halts, when the machine
fails, or when as many blocks have run as the fuel allows. A `Run` keeps everything that there is to
see of it: the verdict, the labels of the blocks that were entered, in order, and the state that
the machine was left in.
-/

namespace Flowgraph

/-- How control left a fragment. -/
inductive Exit where
  /-- Through an exit of the interface. -/
  | label (exit : Label)
  /-- By a block that halts. -/
  | halt
  deriving DecidableEq, Repr

/-- Why control did not leave a fragment. -/
inductive RunError (Fault : Type) where
  /-- The machine failed. -/
  | machine (fault : Fault)
  /-- The entry is not in the interface. -/
  | badEntry (error : FragmentError)
  /-- Control was still inside after as many blocks as the fuel allows. -/
  | outOfFuel (blocks : Nat)
  deriving DecidableEq, Repr

namespace RunError

variable {Fault : Type}

/-- What a failure is reported as, given the reports of machine faults. -/
def message (faultText : Fault → String) : RunError Fault → String
  | machine fault => s!"machine error: {faultText fault}"
  | badEntry error => s!"bad entry label: {error.message}"
  | outOfFuel blocks => s!"out of fuel after {blocks} blocks"

/-- The reports of the failures that led to this one, nearest first. -/
def causes (faultText : Fault → String) : RunError Fault → List String
  | machine fault => [faultText fault]
  | badEntry error => error.message :: error.causes
  | outOfFuel _ => []

end RunError

/-- What a run of a fragment comes to. -/
structure Run (State Fault : Type) where
  verdict : Except (RunError Fault) Exit
  visited : Array Label
  state : State

namespace Fragment

variable {Inst Cond State Fault : Type}

/-- The fuel of a run that asks for no particular amount. -/
def defaultFuel : Nat := 1048576

/-- Go on with a run at a label of the code, after the blocks in `visited`. -/
def runFrom (fragment : Fragment Inst Cond) (machine : Machine Inst Cond State Fault) :
    (fuel : Nat) → (label : fragment.CodeLabel) → (visited : Array Label) → (state : State) →
    Run State Fault
  | 0, _, visited, state => ⟨.error (.outOfFuel visited.size), visited, state⟩
  | fuel + 1, label, visited, state =>
    let visited := visited.push label.val
    match ((fragment.blockAt label).exec machine).run state with
    | .error fault state => ⟨.error (.machine fault), visited, state⟩
    | .ok none state => ⟨.ok .halt, visited, state⟩
    | .ok (some target) state =>
      if hidden : target.Within fragment.internal then
        fragment.runFrom machine fuel ⟨target, fragment.within_entries_of_hidden hidden⟩ visited
          state
      else
        ⟨.ok (.label ⟨target.index - fragment.internal.count⟩), visited, state⟩

/-- Run a fragment from an entry of its interface, for at most `fuel` blocks. An entry outside the
interface is refused before the fuel is looked at, and the machine is not touched. -/
def run (fragment : Fragment Inst Cond) (machine : Machine Inst Cond State Fault) (entry : Label)
    (fuel : Nat) (state : State) : Run State Fault :=
  match fragment.codeLabel entry with
  | .error error => ⟨.error (.badEntry error), #[], state⟩
  | .ok label => fragment.runFrom machine fuel label #[] state

end Fragment

end Flowgraph
