import Flowgraph.Proofs.BlockMap.Lookup
import Flowgraph.Proofs.Run.Bounds
import Flowgraph.Proofs.Run.Sequence

/-!
# What a run is a record of

A run is defined by a function that spends fuel. Here it is told again as a relation that knows
nothing of fuel: `Fragment.Chain` puts one block after the other for as long as control goes to hidden
labels, and `Fragment.ChainEnds` adds the block at which that comes to an end. `Outcome` lists what a
run can come to in these terms.

The function and the relation say the same. `runFrom_of_chain` follows a chain block by block, by
induction on the chain; `runFrom_outcome` finds one for every run, by induction on the fuel.
-/

namespace Flowgraph

variable {Inst Cond State Fault : Type}

/-- What the last block answers when control leaves in this way: nothing if it halts, and else the exit
behind the hidden labels. -/
def Exit.answer (internal : Size) : Exit → Option Label
  | .label exit => some (exit.shift internal.count)
  | .halt => none

namespace Fragment

section Chains

variable (fragment : Fragment Inst Cond) (machine : Machine Inst Cond State Fault)

/-- There is a block at the label, and on the machine as it stands before, it has this result. -/
def Executes (label : Label) (before : State)
    (result : EStateM.Result Fault State (Option Label)) : Prop :=
  ∃ block, fragment.code.get? label = some block ∧ (block.exec machine).run before = result

/-- Control goes from one label to another inside of the fragment, and has executed the blocks in
between: each block answers with a hidden label, and that is where the next one stands. -/
inductive Chain : Label → State → List Label → Label → State → Prop where
  | start {label : Label} {state : State} : Chain label state [] label state
  | next {label target last : Label} {before middle after : State} {visited : List Label}
      (executes : fragment.Executes machine label before (.ok (some target) middle))
      (hidden : target.Within fragment.internal)
      (rest : Chain target middle visited last after) :
      Chain label before (label :: visited) last after

/-- Control goes along a chain of blocks, and the last block has this result. -/
def ChainEnds (label : Label) (before : State) (visited : List Label)
    (result : EStateM.Result Fault State (Option Label)) : Prop :=
  ∃ earlier last middle, fragment.Chain machine label before earlier last middle ∧
    fragment.Executes machine last middle result ∧ visited = earlier ++ [last]

/-- The labels that control can pass one after the other: it starts at `start`, stays hidden from then
on, and goes from each label to a successor of its block. -/
structure Trail (start : Label) (visited : List Label) : Prop where
  head : visited.head? = some start
  hidden : ∀ label ∈ visited.tail, label.Within fragment.internal
  successor : ∀ (index : Nat) (earlier later : Label), visited[index]? = some earlier →
    visited[index + 1]? = some later →
      ∃ block, fragment.code.get? earlier = some block ∧ later ∈ block.successors

/-- What a run can come to, told from the blocks that it executes. -/
inductive Outcome (label : Label) (before : State) (fuel : Nat) : Run State Fault → Prop where
  | left {exit : Exit} {visited : Array Label} {after : State} (enough : visited.size ≤ fuel)
      (ends : fragment.ChainEnds machine label before visited.toList
        (.ok (exit.answer fragment.internal) after)) :
      Outcome label before fuel ⟨.ok exit, visited, after⟩
  | failed {fault : Fault} {visited : Array Label} {after : State} (enough : visited.size ≤ fuel)
      (ends : fragment.ChainEnds machine label before visited.toList (.error fault after)) :
      Outcome label before fuel ⟨.error (.machine fault), visited, after⟩
  | spent {last : Label} {visited : Array Label} {after : State} (all : visited.size = fuel)
      (chain : fragment.Chain machine label before visited.toList last after) :
      Outcome label before fuel ⟨.error (.outOfFuel fuel), visited, after⟩

end Chains

variable {fragment : Fragment Inst Cond} {machine : Machine Inst Cond State Fault}

/-- At a label of the code, it is the block there that executes. -/
theorem executes_iff {label : fragment.CodeLabel} {before : State}
    {result : EStateM.Result Fault State (Option Label)} :
    fragment.Executes machine label.val before result ↔
      ((fragment.blockAt label).exec machine).run before = result := by
  rw [Executes, fragment.code.get?_eq_some_block label.property]
  simp [blockAt]

/-- A block that goes on goes on to one of its successors. -/
theorem Executes.exists_successor {label target : Label} {before after : State}
    (executes : fragment.Executes machine label before (.ok (some target) after)) :
    ∃ block, fragment.code.get? label = some block ∧ target ∈ block.successors := by
  obtain ⟨block, found, ran⟩ := executes
  exact ⟨block, found, Block.mem_successors_of_exec ran⟩

section Trails

variable {label last : Label} {before after : State} {visited : List Label}

/-- A label alone is a trail. -/
theorem trail_single (start : Label) : fragment.Trail start [start] where
  head := rfl
  hidden := by simp
  successor := by simp

/-- A trail can be entered from a label whose block has its first label as a successor, if that is
hidden. -/
theorem Trail.cons {start target : Label} (trail : fragment.Trail target visited)
    (hidden : target.Within fragment.internal)
    (steps : ∃ block, fragment.code.get? start = some block ∧ target ∈ block.successors) :
    fragment.Trail start (start :: visited) := by
  obtain ⟨head, laterHidden, successor⟩ := trail
  cases visited with
  | nil => cases head
  | cons first rest =>
    cases head
    refine ⟨rfl, ?_, ?_⟩
    · intro later member
      rcases List.mem_cons.mp member with rfl | laterMember
      · exact hidden
      · exact laterHidden later laterMember
    · intro index earlier later earlierFound laterFound
      cases index with
      | zero =>
        cases earlierFound
        cases laterFound
        exact steps
      | succ index => exact successor index earlier later earlierFound laterFound

/-- The labels of a chain are a trail, with the one that control has come to. -/
theorem Chain.trail (chain : fragment.Chain machine label before visited last after) :
    fragment.Trail label (visited ++ [last]) := by
  induction chain with
  | start => exact trail_single _
  | next executes hidden _ inductionHypothesis =>
    exact inductionHypothesis.cons hidden executes.exists_successor

/-- So are those of a chain that has ended. -/
theorem ChainEnds.trail {result : EStateM.Result Fault State (Option Label)}
    (ends : fragment.ChainEnds machine label before visited result) :
    fragment.Trail label visited := by
  obtain ⟨earlier, last, middle, chain, -, rfl⟩ := ends
  exact chain.trail

/-- A chain that starts at a label of the code stays in it. -/
theorem Chain.within (chain : fragment.Chain machine label before visited last after)
    (inside : label.Within fragment.code.entries) : last.Within fragment.code.entries := by
  induction chain with
  | start => exact inside
  | next _ hidden _ inductionHypothesis =>
    exact inductionHypothesis (fragment.within_entries_of_hidden hidden)

end Trails

section Follows

variable {label last : Label} {before after : State} {fuel : Nat}
  (inside : label.Within fragment.code.entries)

include inside

/-- A run with fuel for a whole chain has executed its blocks, and goes on where it leads. -/
theorem runFrom_of_chain {visited : List Label}
    (chain : fragment.Chain machine label before visited last after)
    (lastInside : last.Within fragment.code.entries) :
    fragment.runFrom machine (visited.length + fuel) ⟨label, inside⟩ #[] before =
      (fragment.runFrom machine fuel ⟨last, lastInside⟩ #[] after).after visited.toArray := by
  induction chain with
  | start => simp
  | @next label target last before middle after visited executes hidden _ inductionHypothesis =>
    have ran : ((fragment.blockAt ⟨label, inside⟩).exec machine).run before =
        .ok (some target) middle := executes_iff.mp executes
    rw [List.length_cons, Nat.add_right_comm, runFrom_succ, ran]
    simp only
    rw [proceed_of_hidden fragment machine hidden, inductionHypothesis _ lastInside, Run.after_after]
    simp

/-- A run with fuel for a chain that has ended, too: it goes on with the result of the last block. -/
theorem runFrom_of_chainEnds {visited : List Label}
    {result : EStateM.Result Fault State (Option Label)}
    (ends : fragment.ChainEnds machine label before visited result)
    (enough : visited.length ≤ fuel) :
    fragment.runFrom machine fuel ⟨label, inside⟩ #[] before =
      Run.after
        (match result with
          | .error fault after => ⟨.error (.machine fault), #[], after⟩
          | .ok none after => ⟨.ok .halt, #[], after⟩
          | .ok (some target) after =>
            fragment.proceed machine target (fuel - visited.length) after)
        visited.toArray := by
  obtain ⟨earlier, last, middle, chain, executes, rfl⟩ := ends
  rw [List.length_append, List.length_singleton] at enough ⊢
  obtain ⟨left, rfl⟩ : ∃ left, fuel = earlier.length + (left + 1) :=
    ⟨fuel - earlier.length - 1, by omega⟩
  have rest : earlier.length + (left + 1) - (earlier.length + 1) = left := by omega
  have lastInside := chain.within inside
  have ran : ((fragment.blockAt ⟨last, lastInside⟩).exec machine).run middle = result :=
    executes_iff.mp executes
  rw [runFrom_of_chain inside chain lastInside, runFrom_succ, ran, rest, ← List.append_toArray,
    ← Run.after_after]
  refine congrArg (Run.after · earlier.toArray) ?_
  cases result with
  | error fault after => rfl
  | ok answer after =>
    cases answer with
    | none => rfl
    | some target => rfl

/-- Whatever the blocks say that a run can come to, it comes to. -/
theorem Outcome.runFrom_eq {run : Run State Fault}
    (outcome : fragment.Outcome machine label before fuel run) :
    fragment.runFrom machine fuel ⟨label, inside⟩ #[] before = run := by
  cases outcome with
  | @left exit visited after enough ends =>
    rw [runFrom_of_chainEnds inside ends enough]
    cases exit with
    | halt => simp [Exit.answer]
    | label exit => simp [Exit.answer, proceed_shift]
  | failed enough ends =>
    rw [runFrom_of_chainEnds inside ends enough]
    simp [RunError.after]
  | @spent last visited after all chain =>
    obtain rfl : fuel = visited.toList.length + 0 := all.symm
    rw [runFrom_of_chain inside chain (chain.within inside), runFrom]
    simp [RunError.after]

end Follows

section Progress

variable {label target : Label} {before middle : State} {visited : List Label}
  (executes : fragment.Executes machine label before (.ok (some target) middle))
  (hidden : target.Within fragment.internal)

include executes hidden

/-- A block that goes on to a hidden label comes before the chain from there. -/
theorem ChainEnds.cons {result : EStateM.Result Fault State (Option Label)}
    (ends : fragment.ChainEnds machine target middle visited result) :
    fragment.ChainEnds machine label before (label :: visited) result := by
  obtain ⟨earlier, last, state, chain, lastExecutes, rfl⟩ := ends
  exact ⟨label :: earlier, last, state, .next executes hidden chain, lastExecutes, rfl⟩

/-- With it, a run comes to what it comes to from there with one block of fuel less. -/
theorem Outcome.cons {fuel : Nat} {run : Run State Fault}
    (outcome : fragment.Outcome machine target middle fuel run) :
    fragment.Outcome machine label before (fuel + 1) (run.after #[label]) := by
  cases outcome with
  | @left exit visited after enough ends =>
    refine .left ?_ ?_
    · simpa [Nat.add_comm] using enough
    · simpa using ends.cons executes hidden
  | @failed fault visited after enough ends =>
    refine .failed ?_ ?_
    · simpa [Nat.add_comm] using enough
    · simpa using ends.cons executes hidden
  | @spent last visited after all chain =>
    rw [Run.after_error, RunError.after, List.size_toArray, List.length_singleton, Nat.add_comm]
    have longer : fragment.Chain machine label before (#[label] ++ visited).toList last after := by
      simpa using Chain.next executes hidden chain
    exact .spent (by simpa [Nat.add_comm] using all) longer

end Progress

/-- A run that ends with its first block. -/
theorem chainEnds_single {label : Label} {before : State}
    {result : EStateM.Result Fault State (Option Label)}
    (executes : fragment.Executes machine label before result) :
    fragment.ChainEnds machine label before [label] result :=
  ⟨[], label, before, .start, executes, rfl⟩

/-- Whatever a run comes to, its blocks say so. -/
theorem runFrom_outcome (fuel : Nat) (label : fragment.CodeLabel) (state : State) :
    fragment.Outcome machine label.val state fuel
      (fragment.runFrom machine fuel label #[] state) := by
  induction fuel generalizing label state with
  | zero => exact .spent rfl .start
  | succ fuel inductionHypothesis =>
    rw [runFrom_succ]
    cases ran : ((fragment.blockAt label).exec machine).run state with
    | error fault after =>
      exact .failed (by simp) (chainEnds_single (executes_iff.mpr ran))
    | ok answer after =>
      cases answer with
      | none => exact .left (by simp) (chainEnds_single (executes_iff.mpr ran))
      | some target =>
        have executes := executes_iff.mpr ran
        by_cases hidden : target.Within fragment.internal
        · simp only
          rw [proceed_of_hidden fragment machine hidden]
          have later := inductionHypothesis
            ⟨target, fragment.within_entries_of_hidden hidden⟩ after
          exact later.cons executes hidden
        · obtain ⟨exit, rfl⟩ := Label.exists_eq_shift_of_le (Nat.not_lt.mp hidden)
          simp only
          rw [proceed_shift]
          exact .left (by simp) (chainEnds_single executes)

/-- A run is the one thing that its blocks say it can come to. -/
theorem runFrom_eq_iff_outcome {fuel : Nat} {label : fragment.CodeLabel} {state : State}
    {run : Run State Fault} :
    fragment.runFrom machine fuel label #[] state = run ↔
      fragment.Outcome machine label.val state fuel run := by
  constructor
  · rintro rfl
    exact runFrom_outcome fuel label state
  · intro outcome
    exact outcome.runFrom_eq label.property

/-- So is one from an entry of the interface. -/
theorem run_eq_iff_outcome {entry : Label} {fuel : Nat} {state : State} {run : Run State Fault}
    (inside : entry.Within fragment.inputs) :
    fragment.run machine entry fuel state = run ↔
      fragment.Outcome machine (entry.shift fragment.internal.count) state fuel run := by
  rw [run_of_within fragment machine inside, runFrom_eq_iff_outcome]

/-- The blocks leave no choice: there is only one thing that a run can come to. -/
theorem Outcome.unique {fuel : Nat} {label : fragment.CodeLabel} {state : State}
    {run other : Run State Fault} (outcome : fragment.Outcome machine label.val state fuel run)
    (otherOutcome : fragment.Outcome machine label.val state fuel other) : run = other := by
  rw [← runFrom_eq_iff_outcome] at outcome otherOutcome
  rw [← outcome, otherOutcome]

section Verdicts

variable {fuel : Nat} {label : fragment.CodeLabel} {state after : State} {visited : Array Label}

/-- A run leaves or halts exactly when the chain of its blocks ends in that way within the fuel. -/
theorem runFrom_eq_ok_iff {exit : Exit} :
    fragment.runFrom machine fuel label #[] state = ⟨.ok exit, visited, after⟩ ↔
      visited.size ≤ fuel ∧ fragment.ChainEnds machine label.val state visited.toList
        (.ok (exit.answer fragment.internal) after) := by
  rw [runFrom_eq_iff_outcome]
  constructor
  · rintro ⟨enough, ends⟩
    exact ⟨enough, ends⟩
  · rintro ⟨enough, ends⟩
    exact .left enough ends

/-- A run fails exactly when a block of the chain does, with the fault of that block. -/
theorem runFrom_eq_machine_iff {fault : Fault} :
    fragment.runFrom machine fuel label #[] state = ⟨.error (.machine fault), visited, after⟩ ↔
      visited.size ≤ fuel ∧
        fragment.ChainEnds machine label.val state visited.toList (.error fault after) := by
  rw [runFrom_eq_iff_outcome]
  constructor
  · rintro (_ | ⟨enough, ends⟩)
    exact ⟨enough, ends⟩
  · rintro ⟨enough, ends⟩
    exact .failed enough ends

/-- A run is out of fuel exactly when the chain goes on after as many blocks as there was fuel for. -/
theorem runFrom_eq_outOfFuel_iff {blocks : Nat} :
    fragment.runFrom machine fuel label #[] state = ⟨.error (.outOfFuel blocks), visited, after⟩ ↔
      blocks = fuel ∧ visited.size = fuel ∧
        ∃ last, fragment.Chain machine label.val state visited.toList last after := by
  rw [runFrom_eq_iff_outcome]
  constructor
  · rintro (_ | _ | ⟨all, chain⟩)
    exact ⟨rfl, all, _, chain⟩
  · rintro ⟨rfl, all, last, chain⟩
    exact .spent all chain

/-- Once it has been entered, a fragment does not complain about the entry. -/
theorem verdict_runFrom_ne_badEntry {error : FragmentError} :
    (fragment.runFrom machine fuel label #[] state).verdict ≠ .error (.badEntry error) := by
  intro refused
  have outcome : fragment.Outcome machine label.val state fuel _ := runFrom_outcome fuel label state
  generalize fragment.runFrom machine fuel label #[] state = run at outcome refused
  cases outcome <;> cases refused

end Verdicts

/-- Runs are adequate. A label that is no entry is refused, and the machine is not touched. From an
entry, a run leaves or halts exactly when the chain of blocks from there ends in that way within the
fuel; it fails exactly when a block of that chain does within the fuel, and is out of fuel exactly when
the chain goes on after as many blocks as there was fuel for. It has then visited the labels of the
chain, and left the machine as their blocks did. -/
theorem run_adequate (fragment : Fragment Inst Cond) (machine : Machine Inst Cond State Fault)
    (entry : Label) (fuel : Nat) (state : State) :
    (¬ entry.Within fragment.inputs →
      fragment.run machine entry fuel state =
        ⟨.error (.badEntry (.label (.outOfRange entry fragment.inputs))), #[], state⟩) ∧
    (entry.Within fragment.inputs →
      (∀ exit visited after, fragment.run machine entry fuel state = ⟨.ok exit, visited, after⟩ ↔
        visited.size ≤ fuel ∧
          fragment.ChainEnds machine (entry.shift fragment.internal.count) state visited.toList
            (.ok (exit.answer fragment.internal) after)) ∧
      (∀ exit visited after, fragment.run machine entry fuel state = ⟨.ok exit, visited, after⟩ →
        fragment.Trail (entry.shift fragment.internal.count) visited.toList ∧
          ∀ label, exit = .label label → label.Within fragment.outputs) ∧
      (∀ fault visited after,
        fragment.run machine entry fuel state = ⟨.error (.machine fault), visited, after⟩ ↔
          visited.size ≤ fuel ∧
            fragment.ChainEnds machine (entry.shift fragment.internal.count) state visited.toList
              (.error fault after)) ∧
      (∀ blocks visited after,
        fragment.run machine entry fuel state = ⟨.error (.outOfFuel blocks), visited, after⟩ ↔
          blocks = fuel ∧ visited.size = fuel ∧
            ∃ last, fragment.Chain machine (entry.shift fragment.internal.count) state
              visited.toList last after) ∧
      ∀ error, (fragment.run machine entry fuel state).verdict ≠ .error (.badEntry error)) := by
  refine ⟨fun outside => run_of_not_within fragment machine outside fuel state, fun inside => ?_⟩
  have bounded := fragment.run_bounded machine entry fuel state
  rw [run_of_within fragment machine inside] at bounded ⊢
  refine ⟨fun _ _ _ => runFrom_eq_ok_iff, ?_, fun _ _ _ => runFrom_eq_machine_iff,
    fun _ _ _ => runFrom_eq_outOfFuel_iff, fun _ => verdict_runFrom_ne_badEntry⟩
  intro exit visited after ran
  obtain ⟨-, ends⟩ := runFrom_eq_ok_iff.mp ran
  refine ⟨ends.trail, ?_⟩
  rintro label rfl
  exact bounded.exit_within label (by rw [ran])

end Fragment

namespace Countdown

/-- A descent from two takes three blocks: into the loop, and twice around. With two blocks it is out of
fuel on the way. -/
theorem run_descent_two :
    descent.run machine ⟨0⟩ 3 ⟨2, #[]⟩ =
        ⟨.ok (.label ⟨0⟩), #[⟨1⟩, ⟨0⟩, ⟨0⟩], ⟨0, #["tick (2)", "tick (1)"]⟩⟩ ∧
      descent.run machine ⟨0⟩ 2 ⟨2, #[]⟩ =
        ⟨.error (.outOfFuel 2), #[⟨1⟩, ⟨0⟩], ⟨1, #["tick (2)"]⟩⟩ := by
  have way : descent.Chain machine ⟨1⟩ ⟨2, #[]⟩ [⟨1⟩, ⟨0⟩] ⟨0⟩ ⟨1, #["tick (2)"]⟩ :=
    .next ⟨_, rfl, rfl⟩ (by decide) (.next ⟨_, rfl, rfl⟩ (by decide) .start)
  obtain ⟨left, -, -, -, -⟩ :=
    (Fragment.run_adequate descent machine ⟨0⟩ 3 ⟨2, #[]⟩).2 (by decide)
  obtain ⟨-, -, -, spent, -⟩ :=
    (Fragment.run_adequate descent machine ⟨0⟩ 2 ⟨2, #[]⟩).2 (by decide)
  constructor
  · exact (left _ _ _).mpr ⟨by decide, _, ⟨0⟩, _, way, ⟨_, rfl, rfl⟩, rfl⟩
  · exact (spent _ _ _).mpr ⟨rfl, rfl, ⟨0⟩, way⟩

end Countdown

end Flowgraph
