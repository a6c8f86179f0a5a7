import Flowgraph.Fragment.Run
import Flowgraph.Proofs.Label

/-!
# Runs, one block at a time

A run carries the labels that it has visited along, which no single block looks at. Here that is
split off: `runFrom_succ` says what the next block does, and `Run.after` puts the blocks that came
before in front of what comes after. Whatever holds along all runs is shown from `runFrom_succ` by
induction on the fuel.
-/

namespace Flowgraph

variable {Inst Cond State Fault : Type}

section Blocks

variable {L M : Type}

/-- Running a block does not depend on the names of its labels, and its answer is renamed as they
are. -/
theorem Block.exec_mapLabels (machine : Machine Inst Cond State Fault) (f : L → M)
    (block : Block Inst Cond L) :
    (block.mapLabels f).exec machine = Option.map f <$> block.exec machine := by
  obtain ⟨insts, branch⟩ := block
  cases branch with
  | jump target => simp [Block.exec, Block.mapLabels, Branch.mapLabels]
  | conditional test whenTrue whenFalse =>
    simp only [Block.exec, Block.mapLabels, Branch.mapLabels, map_bind, map_pure, Option.map_some,
      apply_ite f]
  | halt => simp [Block.exec, Block.mapLabels, Branch.mapLabels]

/-- The same for the result that a renamed block has on a state. -/
theorem Block.run_exec_mapLabels (machine : Machine Inst Cond State Fault) (f : L → M)
    (block : Block Inst Cond L) (state : State) :
    ((block.mapLabels f).exec machine).run state =
      match (block.exec machine).run state with
      | .ok answer after => .ok (answer.map f) after
      | .error fault after => .error fault after := by
  rw [Block.exec_mapLabels, map_eq_pure_bind, EStateM.run_bind]
  cases (block.exec machine).run state <;> rfl

/-- A block goes on only to one of its successors. -/
theorem Block.mem_successors_of_exec {machine : Machine Inst Cond State Fault}
    {block : Block Inst Cond L} {state after : State} {target : L}
    (ran : (block.exec machine).run state = .ok (some target) after) :
    target ∈ block.successors := by
  obtain ⟨insts, branch⟩ := block
  simp only [exec, EStateM.run_bind] at ran
  split at ran
  · cases branch with
    | jump destination =>
      simp only [EStateM.run_pure, EStateM.Result.ok.injEq, Option.some.injEq] at ran
      simp [successors, Branch.labels, ran.1]
    | conditional test whenTrue whenFalse =>
      simp only [EStateM.run_bind] at ran
      split at ran
      · simp only [EStateM.run_pure, EStateM.Result.ok.injEq, Option.some.injEq] at ran
        obtain ⟨rfl, -⟩ := ran
        split <;> simp [successors, Branch.labels]
      · cases ran
    | halt => simp at ran
  · cases ran

end Blocks

section After

/-- A failure as it is reported when `earlier` blocks have run before: they count as well. -/
def RunError.after (earlier : Nat) : RunError Fault → RunError Fault
  | machine fault => machine fault
  | badEntry error => badEntry error
  | outOfFuel blocks => outOfFuel (earlier + blocks)

/-- A run as it looks when the blocks in `earlier` have run before it. -/
def Run.after (run : Run State Fault) (earlier : Array Label) : Run State Fault where
  verdict := run.verdict.mapError (.after earlier.size)
  visited := earlier ++ run.visited
  state := run.state

@[simp] theorem Run.after_ok (exit : Exit) (visited earlier : Array Label) (state : State) :
    (⟨.ok exit, visited, state⟩ : Run State Fault).after earlier =
      ⟨.ok exit, earlier ++ visited, state⟩ := rfl

@[simp] theorem Run.after_error (error : RunError Fault) (visited earlier : Array Label)
    (state : State) :
    (⟨.error error, visited, state⟩ : Run State Fault).after earlier =
      ⟨.error (error.after earlier.size), earlier ++ visited, state⟩ := rfl

@[simp] theorem RunError.after_zero (error : RunError Fault) : error.after 0 = error := by
  cases error <;> simp [RunError.after]

theorem RunError.after_after (error : RunError Fault) (later earlier : Nat) :
    (error.after later).after earlier = error.after (earlier + later) := by
  cases error <;> simp [RunError.after, Nat.add_assoc]

@[simp] theorem Run.after_empty (run : Run State Fault) : run.after #[] = run := by
  obtain ⟨verdict, visited, state⟩ := run
  cases verdict <;> simp

theorem Run.after_after (run : Run State Fault) (later earlier : Array Label) :
    (run.after later).after earlier = run.after (earlier ++ later) := by
  obtain ⟨verdict, visited, state⟩ := run
  cases verdict with
  | error error => simp [RunError.after_after, Array.append_assoc]
  | ok exit => simp [Array.append_assoc]

/-- How a run leaves does not depend on what ran before it. -/
theorem Run.verdict_after_eq_ok_iff {run : Run State Fault} {earlier : Array Label} {exit : Exit} :
    (run.after earlier).verdict = .ok exit ↔ run.verdict = .ok exit := by
  obtain ⟨verdict, visited, state⟩ := run
  cases verdict <;> simp

end After

namespace Fragment

/-- Go on with a run at a target: inside if the target is hidden, and out of the fragment if not. -/
def proceed (fragment : Fragment Inst Cond) (machine : Machine Inst Cond State Fault)
    (target : Label) (fuel : Nat) (state : State) : Run State Fault :=
  if hidden : target.Within fragment.internal then
    fragment.runFrom machine fuel ⟨target, fragment.within_entries_of_hidden hidden⟩ #[] state
  else
    ⟨.ok (.label ⟨target.index - fragment.internal.count⟩), #[], state⟩

section Steps

variable (fragment : Fragment Inst Cond) (machine : Machine Inst Cond State Fault)

theorem proceed_of_hidden {target : Label} (hidden : target.Within fragment.internal) (fuel : Nat)
    (state : State) :
    fragment.proceed machine target fuel state =
      fragment.runFrom machine fuel ⟨target, fragment.within_entries_of_hidden hidden⟩ #[]
        state := by
  rw [proceed, dif_pos hidden]

/-- A target behind the hidden labels is an exit. -/
theorem proceed_shift (exit : Label) (fuel : Nat) (state : State) :
    fragment.proceed machine (exit.shift fragment.internal.count) fuel state =
      ⟨.ok (.label exit), #[], state⟩ := by
  have visible : ¬ (exit.shift fragment.internal.count).Within fragment.internal := by
    simp [Label.Within]
  rw [proceed, dif_neg visible]
  simp

/-- What a run has visited is put in front of what it has yet to visit. -/
theorem runFrom_visited (fuel : Nat) (label : fragment.CodeLabel) (visited : Array Label)
    (state : State) :
    fragment.runFrom machine fuel label visited state =
      (fragment.runFrom machine fuel label #[] state).after visited := by
  induction fuel generalizing label visited state with
  | zero => simp [runFrom, RunError.after]
  | succ fuel inductionHypothesis =>
    simp only [runFrom]
    cases ((fragment.blockAt label).exec machine).run state with
    | error fault state => simp [RunError.after]
    | ok answer state =>
      cases answer with
      | none => simp
      | some target =>
        simp only
        split
        · rw [inductionHypothesis, inductionHypothesis _ (#[].push label.val), Run.after_after]
          simp
        · simp

/-- A run with fuel left runs the block at hand, and goes on from there with what it answers. -/
theorem runFrom_succ (fuel : Nat) (label : fragment.CodeLabel) (state : State) :
    fragment.runFrom machine (fuel + 1) label #[] state =
      match ((fragment.blockAt label).exec machine).run state with
      | .error fault state => ⟨.error (.machine fault), #[label.val], state⟩
      | .ok none state => ⟨.ok .halt, #[label.val], state⟩
      | .ok (some target) state =>
        (fragment.proceed machine target fuel state).after #[label.val] := by
  rw [runFrom]
  cases ((fragment.blockAt label).exec machine).run state with
  | error fault state => rfl
  | ok answer state =>
    cases answer with
    | none => rfl
    | some target =>
      simp only [proceed]
      split
      · rw [runFrom_visited]
        rfl
      · simp

/-- An entry of the interface starts the run at its place behind the hidden labels. -/
theorem run_of_within {entry : Label} (inside : entry.Within fragment.inputs) (fuel : Nat)
    (state : State) :
    fragment.run machine entry fuel state =
      fragment.runFrom machine fuel
        ⟨entry.shift fragment.internal.count, fragment.shift_within_entries inside⟩ #[] state := by
  rw [run, codeLabel, dif_pos inside]

/-- A label that is no entry is refused, and the machine is not touched. -/
theorem run_of_not_within {entry : Label} (outside : ¬ entry.Within fragment.inputs) (fuel : Nat)
    (state : State) :
    fragment.run machine entry fuel state =
      ⟨.error (.badEntry (.label (.outOfRange entry fragment.inputs))), #[], state⟩ := by
  rw [run, codeLabel, dif_neg outside]

end Steps

end Fragment

end Flowgraph
