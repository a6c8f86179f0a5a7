import Flowgraph.Machine.Basic
import Flowgraph.Block.Spelling
import Flowgraph.Text.Scalar

/-!
# The register machine

A small machine to run fragments on: four registers that hold 64-bit words, and an output that
instructions can add to and never read. A condition is the number of a register, and it holds when
that register is not zero. Registers that do not exist can be named, and naming one is the only
way in which the machine fails.
-/

namespace Flowgraph.Register

/-- The instructions of the register machine. -/
inductive Inst where
  /-- Store a value in a register. -/
  | set (register : Nat) (value : Int64)
  /-- Add a value to a register, modulo the word size. -/
  | add (register : Nat) (value : Int64)
  /-- Add the value of a register to the output. -/
  | emit (register : Nat)
  deriving DecidableEq, Repr

/-- A condition names the register that it tests. -/
abbrev Cond : Type := Nat

/-- How instructions and conditions are written. -/
def spelling : Spelling Inst Cond where
  inst
    | .set register value => s!"set r{register}, {value.toInt}"
    | .add register value => s!"add r{register}, {value.toInt}"
    | .emit register => s!"emit r{register}"
  cond register := (Text.Scalar.int register).render

/-- The registers and the output. -/
structure State where
  registers : Vector Int64 4
  output : Array Int64
  deriving DecidableEq, Repr

/-- The state with the given registers and no output. Missing registers are zero, and values for
registers that do not exist are ignored. -/
def State.ofRegisters (values : List Int64) : State where
  registers := Vector.ofFn fun register => values[register.val]?.getD 0
  output := #[]

/-- The ways in which the register machine fails. -/
inductive Fault where
  /-- There is no register with this number. -/
  | noSuchRegister (register : Nat)
  deriving DecidableEq, Repr

/-- What a fault is reported as. -/
def Fault.message : Fault → String
  | noSuchRegister register => s!"no such register: r{register}"

/-- The value of a register. -/
def read (register : Nat) : EStateM Fault State Int64 := do
  let state ← get
  if inside : register < 4 then
    return state.registers[register]
  else
    throw (.noSuchRegister register)

/-- Store a value in a register. -/
def write (register : Nat) (value : Int64) : EStateM Fault State Unit := do
  let state ← get
  if inside : register < 4 then
    set { state with registers := state.registers.set register value }
  else
    throw (.noSuchRegister register)

/-- The register machine. -/
def machine : Machine Inst Cond State Fault where
  exec
    | .set register value => write register value
    | .add register value => do
      let old ← read register
      write register (old + value)
    | .emit register => do
      let value ← read register
      modify fun state => { state with output := state.output.push value }
  test register := do
    let value ← read register
    return value != 0

end Flowgraph.Register
