import Flowgraph.Error
import Flowgraph.Fragment.Combine
import Flowgraph.Fragment.Printer
import Flowgraph.Fragment.Run
import Flowgraph.Text.Scalar

/-!
# The countdown

A program put together from three fragments: a greeting, a loop that is drafted with names, and a
farewell. Its machine has one counter, which the loop counts down, and speaks lines that show the
counter. `transcript` is what the program writes, given the counter to start from and the fuel.
-/

namespace Flowgraph.Countdown

/-- The instructions of the counter machine. -/
inductive Inst where
  /-- Speak a line: a text, and the counter in parentheses. -/
  | say (text : String)
  /-- Count down by one, and stay at zero. -/
  | dec
  deriving DecidableEq, Repr

/-- There is one condition, which holds when the counter is not zero. -/
abbrev Cond : Type := Unit

/-- How instructions and conditions are written. -/
def spelling : Spelling Inst Cond where
  inst
    | .say text => s!"say {Text.quote text}"
    | .dec => "dec"
  cond _ := Text.Scalar.unit.render

/-- The counter, and the lines spoken so far. -/
structure State where
  count : Nat
  spoken : Array String
  deriving DecidableEq, Repr

/-- The counter machine, which never fails. -/
def machine : Machine Inst Cond State Empty where
  exec
    | .say text => modify fun state =>
      { state with spoken := state.spoken.push s!"{text} ({state.count})" }
    | .dec => modify fun state => { state with count := state.count - 1 }
  test _ := do
    let state ← get
    return state.count != 0

/-- The fragment that greets. -/
def hello : Except FragmentError (Fragment Inst Cond) :=
  Fragment.ofBlock ⟨[.say "hello"], .jump ⟨0⟩⟩ .one

/-- The fragment that says farewell and halts. -/
def bye : Except FragmentError (Fragment Inst Cond) :=
  Fragment.ofBlock ⟨[.say "bye"], .halt⟩ .zero

/-- The draft of the loop: speak and count down until the counter is zero. -/
def loopDraft : Except DraftError (Draft Inst Cond) := do
  let draft ← Draft.empty.declareEntry "start"
  let draft ← draft.declareHidden "loop"
  let draft ← draft.declareExit "done"
  let draft ← draft.attach "start" (.jump "loop")
  draft.attach "loop" ⟨[.say "tick", .dec], .conditional () "loop" "done"⟩

/-- The fragment that counts down. -/
def loop : Except DraftError (Fragment Inst Cond) := do
  let draft ← loopDraft
  draft.assemble

/-- The whole program. -/
def program : Except Error (Fragment Inst Cond) := do
  let hello ← hello.mapError .fragment
  let bye ← bye.mapError .fragment
  let loop ← loop.mapError .draft
  let greeting ← (hello.seq loop).mapError .fragment
  (greeting.seq bye).mapError .fragment

/-- What a program writes, and the code that it exits with. -/
structure Transcript where
  code : UInt32
  stdout : List String
  stderr : List String
  deriving DecidableEq, Repr

/-- The transcript of a failure, after the lines that were written before it. -/
def Transcript.failure (stdout : List String) (message : String) : Transcript :=
  ⟨1, stdout, [s!"Error: {message}"]⟩

/-- The line that tells how control left the program. -/
def exitLine : Exit → String
  | .label exit => s!"left through exit {exit}"
  | .halt => "halted"

/-- Write the program, run it from its entry, and tell how it ended. -/
def transcript (count fuel : Nat) : Transcript :=
  match program with
  | .error error => .failure [] error.message
  | .ok program =>
    let run := program.run machine ⟨0⟩ fuel ⟨count, #[]⟩
    let written := program.lines spelling ++ run.state.spoken.toList
    match run.verdict with
    | .error error => .failure written (error.message Empty.elim)
    | .ok exit => ⟨0, written ++ [exitLine exit, s!"ran {run.visited.size} blocks"], []⟩

end Flowgraph.Countdown
