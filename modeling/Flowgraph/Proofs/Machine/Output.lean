import Flowgraph.Machine.Register
import Flowgraph.Proofs.Machine.Transport

/-!
# The output is write-only

The register machine adds to its output and never looks at it. So what was there before stays in front,
and changes nothing else: `carries_precede` says so of the single operations, and hence it holds of runs,
however they end. A run that fails in the middle of a block leaves what it had added by then, and one that
is out of fuel what its blocks have added.
-/

namespace Flowgraph.Register

/-- The state with more output in front of its own. -/
def State.precede (earlier : Array Int64) (state : State) : State :=
  { state with output := earlier ++ state.output }

section Registers

variable (register : Nat) (state : State)

/-- A register is read if there is one with that number, and the state stays as it is. -/
theorem run_read :
    (read register).run state =
      if inside : register < 4 then .ok state.registers[register] state
      else .error (.noSuchRegister register) state := by
  by_cases inside : register < 4
  · simp only [read, EStateM.run_bind, EStateM.run_get, dif_pos inside, EStateM.run_pure]
  · simp only [read, EStateM.run_bind, EStateM.run_get, dif_neg inside]
    rfl

/-- A register is written if there is one with that number, and nothing else changes. -/
theorem run_write (value : Int64) :
    (write register value).run state =
      if inside : register < 4 then
        .ok () { state with registers := state.registers.set register value }
      else .error (.noSuchRegister register) state := by
  by_cases inside : register < 4
  · simp only [write, EStateM.run_bind, EStateM.run_get, dif_pos inside, EStateM.run_set]
  · simp only [write, EStateM.run_bind, EStateM.run_get, dif_neg inside, EStateM.run_throw]

end Registers

section Operations

variable (earlier : Array Int64)

/-- Registers are read past the output. -/
theorem commutes_read (register : Nat) :
    Commutes (State.precede earlier) (read register) (read register) := by
  intro state
  rw [run_read, run_read]
  split
  · rfl
  · rfl

/-- They are written past the output. -/
theorem commutes_write (register : Nat) (value : Int64) :
    Commutes (State.precede earlier) (write register value) (write register value) := by
  intro state
  rw [run_write, run_write]
  split
  · rfl
  · rfl

/-- What is emitted goes behind all earlier output. -/
theorem commutes_emit (value : Int64) :
    Commutes (State.precede earlier)
      (modify fun state => { state with output := state.output.push value } :
        EStateM Fault State Unit)
      (modify fun state => { state with output := state.output.push value }) := by
  intro state
  simp only [EStateM.run_modify, mapState, State.precede, Array.push_append]

/-- No operation of the register machine sees what output there was before. -/
theorem carries_precede : machine.Carries machine (State.precede earlier) where
  exec inst := by
    cases inst with
    | set register value => exact commutes_write earlier register value
    | add register value =>
      exact (commutes_read earlier register).bind fun old => commutes_write earlier register _
    | emit register => exact (commutes_read earlier register).bind (commutes_emit earlier)
  test register := (commutes_read earlier register).bind fun value => commutes_pure _

end Operations

/-- The output is write-only. Whatever output there is when a run starts, the run comes to the same end
after the same blocks, be it an exit, a halt, a fault or the end of its fuel, and leaves the same
registers as without it. In the end the output is what there was, and behind it what the run would have
left without it. -/
theorem output_write_only (fragment : Fragment Inst Cond) (entry : Label) (fuel : Nat)
    (registers : Vector Int64 4) (earlier : Array Int64) :
    (fragment.run machine entry fuel ⟨registers, earlier⟩).verdict =
        (fragment.run machine entry fuel ⟨registers, #[]⟩).verdict ∧
      (fragment.run machine entry fuel ⟨registers, earlier⟩).visited =
        (fragment.run machine entry fuel ⟨registers, #[]⟩).visited ∧
      (fragment.run machine entry fuel ⟨registers, earlier⟩).state.registers =
        (fragment.run machine entry fuel ⟨registers, #[]⟩).state.registers ∧
      (fragment.run machine entry fuel ⟨registers, earlier⟩).state.output =
        earlier ++ (fragment.run machine entry fuel ⟨registers, #[]⟩).state.output := by
  have start : (⟨registers, earlier⟩ : State) = State.precede earlier ⟨registers, #[]⟩ := by
    simp [State.precede]
  rw [start, (carries_precede earlier).run_eq fragment]
  exact ⟨rfl, rfl, rfl, rfl⟩

end Flowgraph.Register
