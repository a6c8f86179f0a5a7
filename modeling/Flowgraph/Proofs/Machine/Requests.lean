import Flowgraph.Proofs.Machine.Transport

/-!
# What a block asks of a machine

A block is a branch alone, or an instruction before a block, and it executes accordingly. To tell what
it asks of the machine on the way, `Machine.recorded` keeps a record of it. `Block.Execution` lists the ways
in which a block can execute, each with its requests: the instructions come in order up to the first one
that fails, and only after all of them have been carried out is a condition tested. `Block.exists_execution`
finds the way that a block takes, by induction on its instructions.
-/

namespace Flowgraph

variable {Inst Cond State Fault L M A : Type}

namespace Machine

/-- What a block can ask of a machine. -/
inductive Request (Inst Cond : Type) where
  /-- An instruction is to be carried out. -/
  | exec (inst : Inst)
  /-- A condition is to be tested. -/
  | test (cond : Cond)
  deriving DecidableEq, Repr

/-- An operation that is put on record, whatever comes of it. -/
def record (request : Request Inst Cond) (operation : EStateM Fault State A) :
    EStateM Fault (State × List (Request Inst Cond)) A := fun (state, requests) =>
  mapState (·, requests ++ [request]) (operation.run state)

/-- The machine that does what `machine` does, and keeps a record of what it is asked. -/
def recorded (machine : Machine Inst Cond State Fault) :
    Machine Inst Cond (State × List (Request Inst Cond)) Fault where
  exec inst := record (.exec inst) (machine.exec inst)
  test cond := record (.test cond) (machine.test cond)

/-- The instructions are carried out one after the other, and none of them fails. -/
inductive Performs (machine : Machine Inst Cond State Fault) : State → List Inst → State → Prop where
  | nothing {state : State} : Performs machine state [] state
  | next {inst : Inst} {rest : List Inst} {before middle after : State}
      (succeeds : (machine.exec inst).run before = .ok () middle)
      (later : Performs machine middle rest after) : Performs machine before (inst :: rest) after

end Machine

namespace Block

/-- The ways in which a block can execute: what comes of it, and what it asks of the machine for that. -/
inductive Execution (machine : Machine Inst Cond State Fault) (block : Block Inst Cond L)
    (before : State) :
    EStateM.Result Fault State (Option L) → List (Machine.Request Inst Cond) → Prop where
  /-- An instruction fails after all before it have been carried out. Nothing is asked for behind it. -/
  | failed {done skipped : List Inst} {inst : Inst} {middle after : State} {fault : Fault}
      (insts : block.insts = done ++ inst :: skipped) (performs : machine.Performs before done middle)
      (fails : (machine.exec inst).run middle = .error fault after) :
      Execution machine block before (.error fault after) ((done ++ [inst]).map .exec)
  /-- All instructions are carried out, and control goes to the target. -/
  | jumped {target : L} {after : State} (branch : block.branch = .jump target)
      (performs : machine.Performs before block.insts after) :
      Execution machine block before (.ok (some target) after) (block.insts.map .exec)
  /-- All instructions are carried out, and the answer to the test says where control goes. -/
  | tested {test : Cond} {whenTrue whenFalse : L} {holds : Bool} {middle after : State}
      (branch : block.branch = .conditional test whenTrue whenFalse)
      (performs : machine.Performs before block.insts middle)
      (answers : (machine.test test).run middle = .ok holds after) :
      Execution machine block before (.ok (some (if holds then whenTrue else whenFalse)) after)
        (block.insts.map .exec ++ [.test test])
  /-- All instructions are carried out, and the test fails. -/
  | untested {test : Cond} {whenTrue whenFalse : L} {middle after : State} {fault : Fault}
      (branch : block.branch = .conditional test whenTrue whenFalse)
      (performs : machine.Performs before block.insts middle)
      (fails : (machine.test test).run middle = .error fault after) :
      Execution machine block before (.error fault after) (block.insts.map .exec ++ [.test test])
  /-- All instructions are carried out, and control goes nowhere. -/
  | halted {after : State} (branch : block.branch = .halt)
      (performs : machine.Performs before block.insts after) :
      Execution machine block before (.ok none after) (block.insts.map .exec)

/-- A block is a branch alone, or an instruction before a block. -/
@[elab_as_elim]
theorem cons_induction {motive : Block Inst Cond L → Prop}
    (terminal : ∀ branch, motive (terminal branch))
    (cons : ∀ inst block, motive block → motive (cons inst block)) (block : Block Inst Cond L) :
    motive block := by
  obtain ⟨insts, branch⟩ := block
  induction insts with
  | nil => exact terminal branch
  | cons inst rest inductionHypothesis => exact cons inst ⟨rest, branch⟩ inductionHypothesis

/-- An instruction before a block is carried out first, and if it fails, the block does not execute. -/
theorem run_exec_cons (machine : Machine Inst Cond State Fault) (inst : Inst)
    (block : Block Inst Cond L) (state : State) :
    ((block.cons inst).exec machine).run state =
      match (machine.exec inst).run state with
      | .ok () after => (block.exec machine).run after
      | .error fault after => .error fault after := by
  have order : (block.cons inst).exec machine = machine.exec inst >>= fun _ => block.exec machine := by
    simp [exec, cons]
  rw [order, EStateM.run_bind]
  cases (machine.exec inst).run state <;> rfl

/-- A conditional branch alone goes where the answer to its test says, or fails as the test does. -/
theorem run_exec_conditional (machine : Machine Inst Cond State Fault) (test : Cond)
    (whenTrue whenFalse : L) (state : State) :
    ((terminal (.conditional test whenTrue whenFalse)).exec machine).run state =
      match (machine.test test).run state with
      | .ok holds after => .ok (some (if holds then whenTrue else whenFalse)) after
      | .error fault after => .error fault after := by
  have order : (terminal (.conditional test whenTrue whenFalse)).exec machine =
      machine.test test >>= fun holds => pure (some (if holds then whenTrue else whenFalse)) := by
    simp [exec, terminal]
  rw [order, EStateM.run_bind]
  cases (machine.test test).run state <;> rfl

section Executions

variable {machine : Machine Inst Cond State Fault} {block : Block Inst Cond L}
  {before middle : State} {inst : Inst} {result : EStateM.Result Fault State (Option L)}
  {requests : List (Machine.Request Inst Cond)}

/-- If an instruction succeeds, the block behind it executes from the state that it leaves. -/
theorem Execution.cons_of_ok (succeeds : (machine.exec inst).run before = .ok () middle)
    (execution : block.Execution machine middle result requests) :
    (block.cons inst).Execution machine before result (.exec inst :: requests) := by
  cases execution with
  | failed insts performs fails =>
    exact .failed (congrArg (inst :: ·) insts) (.next succeeds performs) fails
  | jumped branch performs => exact .jumped branch (.next succeeds performs)
  | tested branch performs answers => exact .tested branch (.next succeeds performs) answers
  | untested branch performs fails => exact .untested branch (.next succeeds performs) fails
  | halted branch performs => exact .halted branch (.next succeeds performs)

/-- A branch alone asks for its test, if it has one. -/
theorem exists_execution_terminal (machine : Machine Inst Cond State Fault) (branch : Branch Cond L)
    (before : State) :
    ∃ requests, (terminal branch).Execution machine before
        (((terminal branch).exec machine).run before) requests ∧
      ∀ earlier, ((terminal branch).exec machine.recorded).run (before, earlier) =
        mapState (·, earlier ++ requests) (((terminal branch).exec machine).run before) := by
  cases branch with
  | jump target => exact ⟨[], .jumped rfl .nothing, fun earlier => by rw [List.append_nil]; rfl⟩
  | conditional test whenTrue whenFalse =>
    refine ⟨[.test test], ?_, fun earlier => ?_⟩
    · rw [run_exec_conditional]
      cases answer : (machine.test test).run before with
      | ok holds after => exact .tested rfl .nothing answer
      | error fault after => exact .untested rfl .nothing answer
    · have asked : (machine.recorded.test test).run (before, earlier) =
          mapState (·, earlier ++ [.test test]) ((machine.test test).run before) := rfl
      rw [run_exec_conditional, run_exec_conditional, asked]
      cases (machine.test test).run before <;> rfl
  | halt => exact ⟨[], .halted rfl .nothing, fun earlier => by rw [List.append_nil]; rfl⟩

/-- A block executes in one of these ways, and what it asks for on the way is put on the record, behind
what has been asked for earlier. -/
theorem exists_execution (machine : Machine Inst Cond State Fault) (block : Block Inst Cond L)
    (before : State) :
    ∃ requests, block.Execution machine before ((block.exec machine).run before) requests ∧
      ∀ earlier, (block.exec machine.recorded).run (before, earlier) =
        mapState (·, earlier ++ requests) ((block.exec machine).run before) := by
  induction block using cons_induction generalizing before with
  | terminal branch => exact exists_execution_terminal machine branch before
  | cons inst block inductionHypothesis =>
    have asked (earlier : List (Machine.Request Inst Cond)) :
        (machine.recorded.exec inst).run (before, earlier) =
          mapState (·, earlier ++ [.exec inst]) ((machine.exec inst).run before) := rfl
    simp only [run_exec_cons, asked]
    cases performed : (machine.exec inst).run before with
    | error fault after =>
      exact ⟨[.exec inst], .failed rfl .nothing performed, fun earlier => rfl⟩
    | ok _ middle =>
      obtain ⟨requests, execution, recorded⟩ := inductionHypothesis middle
      refine ⟨.exec inst :: requests, execution.cons_of_ok performed, fun earlier => ?_⟩
      -- To the rest of the block, `inst` is something that has been asked for earlier.
      rw [List.append_cons earlier _ requests]
      exact recorded (earlier ++ [.exec inst])

/-- A block that does not fail goes nowhere exactly when it ends in a halt. -/
theorem Execution.answer_eq_none_iff {answer : Option L} {after : State}
    (execution : block.Execution machine before (.ok answer after) requests) :
    answer = none ↔ block.branch = .halt := by
  cases execution with
  | jumped branch performs => simp [branch]
  | tested branch performs answers => simp [branch]
  | halted branch performs => simp [branch]

end Executions

/-- What a block does on a machine.
* Renamed labels rename its answer, and nothing else.
* An instruction before it is carried out first, and if that fails, so does the whole.
* It asks the machine for its instructions in order, up to the first one that fails, and for its test only
  if none does.
* If it does not fail, it goes to one of its successors or, when it ends in a halt, nowhere. -/
theorem execution_laws (machine : Machine Inst Cond State Fault) (block : Block Inst Cond L)
    (f : L → M) (inst : Inst) (state : State) :
    (((block.mapLabels f).exec machine).run state =
      match (block.exec machine).run state with
      | .ok answer after => .ok (answer.map f) after
      | .error fault after => .error fault after) ∧
    (((block.cons inst).exec machine).run state =
      match (machine.exec inst).run state with
      | .ok () after => (block.exec machine).run after
      | .error fault after => .error fault after) ∧
    (∃ requests, block.Execution machine state ((block.exec machine).run state) requests ∧
      ∀ earlier, (block.exec machine.recorded).run (state, earlier) =
        mapState (·, earlier ++ requests) ((block.exec machine).run state)) ∧
    ∀ answer after, (block.exec machine).run state = .ok answer after →
      (∀ target, answer = some target → target ∈ block.successors) ∧
      (answer = none ↔ block.branch = .halt) := by
  refine ⟨run_exec_mapLabels machine f block state, run_exec_cons machine inst block state,
    exists_execution machine block state, fun answer after ran => ⟨?_, ?_⟩⟩
  · rintro target rfl
    exact mem_successors_of_exec ran
  · obtain ⟨requests, execution, -⟩ := exists_execution machine block state
    rw [ran] at execution
    exact execution.answer_eq_none_iff

end Block

end Flowgraph
