import Flowgraph.Proofs.Run.Step

/-!
# What all runs obey

However a run goes, it visits only labels that have blocks, no more of them than its fuel allows,
and it leaves only through exits of the interface. `Run.Bounded` collects this; `bounded_after` is
what one block more preserves, and `runFrom_bounded` what follows for whole runs.
-/

namespace Flowgraph

variable {Inst Cond State Fault : Type}

/-- What every run of a fragment with a given fuel obeys. -/
structure Run.Bounded (fragment : Fragment Inst Cond) (fuel : Nat) (run : Run State Fault) :
    Prop where
  size_le : run.visited.size ≤ fuel
  outOfFuel_eq : ∀ blocks, run.verdict = .error (.outOfFuel blocks) → blocks = fuel
  exit_within : ∀ exit, run.verdict = .ok (.label exit) → exit.Within fragment.outputs
  visited_within : ∀ label ∈ run.visited, label.Within fragment.code.entries

namespace Fragment

variable (fragment : Fragment Inst Cond) (machine : Machine Inst Cond State Fault)

/-- One block more is one block more fuel. -/
theorem bounded_after {fuel : Nat} {run : Run State Fault} (bounded : run.Bounded fragment fuel)
    (label : fragment.CodeLabel) : (run.after #[label.val]).Bounded fragment (fuel + 1) where
  size_le := by
    have size := bounded.size_le
    simp only [Run.after, Array.size_append, List.size_toArray, List.length_singleton]
    omega
  outOfFuel_eq blocks spent := by
    obtain ⟨verdict, visited, state⟩ := run
    cases verdict with
    | ok exit => simp at spent
    | error error =>
      cases error with
      | machine fault => simp [RunError.after] at spent
      | badEntry error => simp [RunError.after] at spent
      | outOfFuel earlier =>
        have equal := bounded.outOfFuel_eq earlier rfl
        simp only [Run.after_error, RunError.after, Except.error.injEq, RunError.outOfFuel.injEq,
          List.size_toArray, List.length_singleton] at spent
        omega
  exit_within exit left := bounded.exit_within exit (Run.verdict_after_eq_ok_iff.mp left)
  visited_within earlier member := by
    rcases Array.mem_append.mp member with first | later
    · obtain rfl : earlier = label.val := by simpa using first
      exact label.property
    · exact bounded.visited_within earlier later

/-- A run that ends with its first block, neither out of fuel nor through an exit. -/
theorem bounded_single {fuel : Nat} (label : fragment.CodeLabel)
    {verdict : Except (RunError Fault) Exit} {state : State}
    (notSpent : ∀ blocks, verdict ≠ .error (.outOfFuel blocks))
    (notLeft : ∀ exit, verdict ≠ .ok (.label exit)) :
    (Run.mk verdict #[label.val] state).Bounded fragment (fuel + 1) where
  size_le := by simp
  outOfFuel_eq blocks spent := absurd spent (notSpent blocks)
  exit_within exit left := absurd left (notLeft exit)
  visited_within earlier member := by
    obtain rfl : earlier = label.val := by simpa using member
    exact label.property

/-- Runs visit only labels that have blocks, no more of them than the fuel allows; they are out of
fuel only when it is spent, and leave only through exits of the interface. -/
theorem runFrom_bounded (fuel : Nat) (label : fragment.CodeLabel) (state : State) :
    (fragment.runFrom machine fuel label #[] state).Bounded fragment fuel := by
  induction fuel generalizing label state with
  | zero =>
    constructor <;> simp [runFrom, eq_comm]
  | succ fuel inductionHypothesis =>
    rw [runFrom_succ]
    cases ran : ((fragment.blockAt label).exec machine).run state with
    | error fault after => exact fragment.bounded_single label (by simp) (by simp)
    | ok answer after =>
      cases answer with
      | none => exact fragment.bounded_single label (by simp) (by simp)
      | some target =>
        refine fragment.bounded_after ?_ label
        by_cases hidden : target.Within fragment.internal
        · rw [proceed_of_hidden fragment machine hidden]
          exact inductionHypothesis _ _
        · have bound := fragment.code.target_within label.property
            (Block.mem_successors_of_exec ran)
          obtain ⟨exit, rfl⟩ := Label.exists_eq_shift_of_le (Nat.not_lt.mp hidden)
          rw [Label.Within, fragment.exits_eq, Label.index_shift] at bound
          rw [proceed_shift]
          exact {
            size_le := Nat.zero_le _
            outOfFuel_eq := by simp
            exit_within := by
              rintro exit ⟨⟩
              exact Nat.lt_of_add_lt_add_left bound
            visited_within := by simp }

/-- Every run from the interface obeys the same bounds. -/
theorem run_bounded (entry : Label) (fuel : Nat) (state : State) :
    (fragment.run machine entry fuel state).Bounded fragment fuel := by
  by_cases inside : entry.Within fragment.inputs
  · rw [run_of_within fragment machine inside]
    exact fragment.runFrom_bounded machine fuel _ state
  · rw [run_of_not_within fragment machine inside]
    constructor <;> simp

/-- A run that left or halted has run at least one block. -/
theorem run_visited_pos {entry : Label} {fuel : Nat} {state : State} {exit : Exit}
    (left : (fragment.run machine entry fuel state).verdict = .ok exit) :
    0 < (fragment.run machine entry fuel state).visited.size := by
  by_cases inside : entry.Within fragment.inputs
  · rw [run_of_within fragment machine inside] at left ⊢
    cases fuel with
    | zero => simp [runFrom] at left
    | succ fuel =>
      rw [runFrom_succ]
      split <;> simp only [Run.after, Array.size_append, List.size_toArray,
        List.length_singleton] <;> omega
  · rw [run_of_not_within fragment machine inside] at left
    cases left

end Fragment

end Flowgraph
