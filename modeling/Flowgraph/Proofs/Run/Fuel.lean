import Flowgraph.Proofs.Run.Chain

/-!
# Fuel is a cut-off

How much fuel a run has is of no interest to the blocks that it executes. `Outcome` is the place where
the two meet, and there fuel is only compared with the number of blocks. So a run that has come to an end
comes to the same end with any fuel for its blocks, which is `Outcome.refuel`. With less, it is cut off:
`Chain.take` says that the first blocks of a chain are a chain as well, and `Outcome.cut` that this is what
a run with less fuel has to show.
-/

namespace Flowgraph

variable {Inst Cond State Fault : Type}

namespace Run

/-- A run that has come to an end, and not for want of fuel. -/
def Finished (run : Run State Fault) : Prop :=
  ∀ blocks, run.verdict ≠ .error (.outOfFuel blocks)

variable {run : Run State Fault}

/-- A run that leaves or halts has come to an end. -/
theorem finished_of_ok {exit : Exit} (left : run.verdict = .ok exit) : run.Finished := by
  intro blocks spent
  rw [left] at spent
  cases spent

/-- So has one that fails with its machine. -/
theorem finished_of_machine {fault : Fault} (failed : run.verdict = .error (.machine fault)) :
    run.Finished := by
  intro blocks spent
  rw [failed] at spent
  cases spent

end Run

namespace Fragment

variable {fragment : Fragment Inst Cond} {machine : Machine Inst Cond State Fault}

section Chains

variable {label last : Label} {before after : State} {visited : List Label} {count : Nat}

/-- The first blocks of a chain are a chain. -/
theorem Chain.take (chain : fragment.Chain machine label before visited last after)
    (within : count ≤ visited.length) :
    ∃ target middle, fragment.Chain machine label before (visited.take count) target middle := by
  induction chain generalizing count with
  | start =>
    rw [List.take_nil]
    exact ⟨_, _, .start⟩
  | next executes hidden _ inductionHypothesis =>
    cases count with
    | zero => exact ⟨_, _, .start⟩
    | succ count =>
      obtain ⟨target, middle, shorter⟩ := inductionHypothesis (Nat.le_of_succ_le_succ within)
      exact ⟨target, middle, .next executes hidden shorter⟩

/-- So are those of a chain that has ended, short of the last block. -/
theorem ChainEnds.take {result : EStateM.Result Fault State (Option Label)}
    (ends : fragment.ChainEnds machine label before visited result)
    (short : count < visited.length) :
    ∃ target middle, fragment.Chain machine label before (visited.take count) target middle := by
  obtain ⟨earlier, last, state, chain, -, rfl⟩ := ends
  rw [List.length_append, List.length_singleton, Nat.lt_succ_iff] at short
  rw [List.take_append_of_le_length short]
  exact chain.take short

end Chains

section Outcomes

variable {label : Label} {before : State} {fuel other : Nat} {run : Run State Fault}

/-- A run that has come to an end comes to it with any fuel for its blocks. -/
theorem Outcome.refuel (outcome : fragment.Outcome machine label before fuel run)
    (finished : run.Finished) (enough : run.visited.size ≤ other) :
    fragment.Outcome machine label before other run := by
  cases outcome with
  | left _ ends => exact .left enough ends
  | failed _ ends => exact .failed enough ends
  | spent => exact absurd rfl (finished fuel)

/-- With less fuel than it has used, it is cut off after its first blocks; and so is one that is out of
fuel already. -/
theorem Outcome.cut (outcome : fragment.Outcome machine label before fuel run) (less : other ≤ fuel)
    (beyond : run.Finished → other < run.visited.size) :
    ∃ middle, fragment.Outcome machine label before other
      ⟨.error (.outOfFuel other), run.visited.take other, middle⟩ := by
  -- In each case there is a chain of that many blocks, and it does not matter how it goes on.
  have begins : other ≤ run.visited.size ∧ ∃ target middle,
      fragment.Chain machine label before (run.visited.toList.take other) target middle := by
    cases outcome with
    | left _ ends =>
      have short := beyond (Run.finished_of_ok rfl)
      exact ⟨Nat.le_of_lt short, ends.take short⟩
    | failed _ ends =>
      have short := beyond (Run.finished_of_machine rfl)
      exact ⟨Nat.le_of_lt short, ends.take short⟩
    | spent all chain =>
      have within := Nat.le_trans less (Nat.le_of_eq all.symm)
      exact ⟨within, chain.take within⟩
  obtain ⟨within, target, middle, chain⟩ := begins
  have size : (run.visited.take other).size = other := by simp [Nat.min_eq_left within]
  have first : fragment.Chain machine label before (run.visited.take other).toList target middle := by
    simpa using chain
  exact ⟨middle, .spent size first⟩

end Outcomes

section Runs

variable {entry : Label} {fuel other : Nat} {state : State}

/-- A run that has come to an end is the same with any fuel for its blocks. -/
theorem run_eq_of_size_le (finished : (fragment.run machine entry fuel state).Finished)
    (enough : (fragment.run machine entry fuel state).visited.size ≤ other) :
    fragment.run machine entry other state = fragment.run machine entry fuel state := by
  by_cases inside : entry.Within fragment.inputs
  · rw [run_eq_iff_outcome inside]
    exact ((run_eq_iff_outcome inside).mp rfl).refuel finished enough
  · rw [run_of_not_within fragment machine inside, run_of_not_within fragment machine inside]

/-- More fuel is always enough for them. -/
theorem run_eq_of_le (finished : (fragment.run machine entry fuel state).Finished)
    (more : fuel ≤ other) :
    fragment.run machine entry other state = fragment.run machine entry fuel state :=
  run_eq_of_size_le finished
    (Nat.le_trans (fragment.run_bounded machine entry fuel state).size_le more)

/-- With less fuel than a run has used, it is out of fuel after that many of its blocks. -/
theorem run_cut (less : other ≤ fuel)
    (beyond : (fragment.run machine entry fuel state).Finished →
      other < (fragment.run machine entry fuel state).visited.size) :
    (fragment.run machine entry other state).verdict = .error (.outOfFuel other) ∧
      (fragment.run machine entry other state).visited =
        (fragment.run machine entry fuel state).visited.take other := by
  by_cases inside : entry.Within fragment.inputs
  · obtain ⟨middle, outcome⟩ := ((run_eq_iff_outcome inside).mp rfl).cut less beyond
    rw [(run_eq_iff_outcome inside).mpr outcome]
    exact ⟨rfl, rfl⟩
  · rw [run_of_not_within fragment machine inside] at beyond
    have impossible := beyond nofun
    cases impossible

end Runs

/-- Fuel is only a cut-off. A run that has come to an end, whether it left, halted or failed, is the same
with more fuel. With less, it is the same if there is fuel for all of its blocks, and else it is out of
fuel after as many of them as there was fuel for. And a run that is out of fuel has used all of it, and is
out of fuel with less as well. -/
theorem fuel_cuts_off (fragment : Fragment Inst Cond) (machine : Machine Inst Cond State Fault)
    (entry : Label) (state : State) {fuel larger : Nat} (less : fuel ≤ larger) :
    ((fragment.run machine entry fuel state).Finished →
      fragment.run machine entry larger state = fragment.run machine entry fuel state) ∧
    ((fragment.run machine entry larger state).Finished →
      ((fragment.run machine entry larger state).visited.size ≤ fuel →
        fragment.run machine entry fuel state = fragment.run machine entry larger state) ∧
      (fuel < (fragment.run machine entry larger state).visited.size →
        (fragment.run machine entry fuel state).verdict = .error (.outOfFuel fuel) ∧
          (fragment.run machine entry fuel state).visited =
            (fragment.run machine entry larger state).visited.take fuel)) ∧
    ∀ blocks, (fragment.run machine entry larger state).verdict = .error (.outOfFuel blocks) →
      blocks = larger ∧
        (fragment.run machine entry fuel state).verdict = .error (.outOfFuel fuel) ∧
          (fragment.run machine entry fuel state).visited =
            (fragment.run machine entry larger state).visited.take fuel := by
  refine ⟨fun finished => run_eq_of_le finished less, fun finished => ⟨?_, ?_⟩, ?_⟩
  · exact run_eq_of_size_le finished
  · exact fun beyond => run_cut less fun _ => beyond
  · intro blocks spent
    have all := (fragment.run_bounded machine entry larger state).outOfFuel_eq blocks spent
    exact ⟨all, run_cut less fun finished => absurd spent (finished blocks)⟩

end Fragment

namespace Countdown

/-- From two, a descent has three blocks to run: it needs no more fuel, and with less it is cut off. -/
theorem run_descent_cut_off :
    descent.run machine ⟨0⟩ 9 ⟨2, #[]⟩ = descent.run machine ⟨0⟩ 3 ⟨2, #[]⟩ ∧
      (descent.run machine ⟨0⟩ 2 ⟨2, #[]⟩).verdict = .error (.outOfFuel 2) ∧
        (descent.run machine ⟨0⟩ 1 ⟨2, #[]⟩).verdict = .error (.outOfFuel 1) := by
  have ended : (descent.run machine ⟨0⟩ 3 ⟨2, #[]⟩).verdict = .ok (.label ⟨0⟩) := rfl
  have size : (descent.run machine ⟨0⟩ 3 ⟨2, #[]⟩).visited.size = 3 := rfl
  have finished := Run.finished_of_ok ended
  obtain ⟨more, -⟩ := Fragment.fuel_cuts_off descent machine ⟨0⟩ ⟨2, #[]⟩ (by decide : 3 ≤ 9)
  obtain ⟨-, less, -⟩ := Fragment.fuel_cuts_off descent machine ⟨0⟩ ⟨2, #[]⟩ (by decide : 2 ≤ 3)
  obtain ⟨-, -, still⟩ := Fragment.fuel_cuts_off descent machine ⟨0⟩ ⟨2, #[]⟩ (by decide : 1 ≤ 2)
  obtain ⟨spent, -⟩ := (less finished).2 (by rw [size]; decide)
  exact ⟨more finished, spent, (still 2 spent).2.1⟩

end Countdown

end Flowgraph
