import Flowgraph.Proofs.Fragment.Placement
import Flowgraph.Proofs.Run.Step

/-!
# Runs of a fragment that lies in another

A combined fragment contains the blocks of its operands under new labels. `Embeds` says what that
asks for: hidden labels of the inner fragment are hidden in the outer one, and their blocks are the
same up to the new labels. Exits are free; the outer fragment may go on with them.

`Embeds.runFrom_eq_resume` is the simulation: as long as the inner fragment keeps control, the outer
one does the same, and where the inner one leaves, the outer one goes on with the fuel that is left.
It is an induction on the fuel, and each combination of fragments is an instance of it.
-/

namespace Flowgraph

variable {Inst Cond State Fault : Type}

namespace Run

/-- What becomes of a run when control that leaves it goes on with `next`, which gets the fuel that
is left, the exit and the machine as it stands. The labels of the run are placed by `place`. -/
def resume (run : Run State Fault) (place : Label → Label) (fuel : Nat)
    (next : Nat → Label → State → Run State Fault) : Run State Fault :=
  match run.verdict with
  | .ok (.label exit) =>
    (next (fuel - run.visited.size) exit run.state).after (run.visited.map place)
  | verdict => ⟨verdict, run.visited.map place, run.state⟩

/-- A run under other labels: `place` for the labels it visits, and `leave` for its exits. -/
def relocate (run : Run State Fault) (place leave : Label → Label) : Run State Fault where
  verdict := run.verdict.map fun
    | .label exit => .label (leave exit)
    | .halt => .halt
  visited := run.visited.map place
  state := run.state

section Resume

variable (visited : Array Label) (state : State) (place : Label → Label) (fuel : Nat)
  (next : Nat → Label → State → Run State Fault)

@[simp] theorem resume_label (exit : Label) :
    (⟨.ok (.label exit), visited, state⟩ : Run State Fault).resume place fuel next =
      (next (fuel - visited.size) exit state).after (visited.map place) := rfl

@[simp] theorem resume_halt :
    (⟨.ok .halt, visited, state⟩ : Run State Fault).resume place fuel next =
      ⟨.ok .halt, visited.map place, state⟩ := rfl

@[simp] theorem resume_error (error : RunError Fault) :
    (⟨.error error, visited, state⟩ : Run State Fault).resume place fuel next =
      ⟨.error error, visited.map place, state⟩ := rfl

end Resume

/-- Only what `next` does with the exits of the run matters to how it is resumed. -/
theorem resume_congr {run : Run State Fault} {place : Label → Label} {fuel : Nat}
    {next other : Nat → Label → State → Run State Fault}
    (agree : ∀ exit, run.verdict = .ok (.label exit) →
      next (fuel - run.visited.size) exit run.state =
        other (fuel - run.visited.size) exit run.state) :
    run.resume place fuel next = run.resume place fuel other := by
  obtain ⟨verdict, visited, state⟩ := run
  cases verdict with
  | error error => rfl
  | ok exit =>
    cases exit with
    | halt => rfl
    | label exit => rw [resume_label, resume_label, agree exit rfl]

/-- Blocks that have run before are part of the run that is resumed, and of its fuel. -/
theorem resume_after (run : Run State Fault) (earlier : Array Label) (place : Label → Label)
    (fuel : Nat) (next : Nat → Label → State → Run State Fault) :
    (run.after earlier).resume place (earlier.size + fuel) next =
      (run.resume place fuel next).after (earlier.map place) := by
  obtain ⟨verdict, visited, state⟩ := run
  cases verdict with
  | error error => simp
  | ok exit =>
    cases exit with
    | halt => simp
    | label exit =>
      have left : earlier.size + fuel - (earlier.size + visited.size) = fuel - visited.size := by
        omega
      rw [after_ok, resume_label, resume_label, after_after, Array.size_append, left,
        Array.map_append]

/-- A run that is resumed by leaving at once has only changed its labels. -/
theorem resume_leave (run : Run State Fault) (place leave : Label → Label) (fuel : Nat) :
    (run.resume place fuel fun _ exit state => ⟨.ok (.label (leave exit)), #[], state⟩) =
      run.relocate place leave := by
  obtain ⟨verdict, visited, state⟩ := run
  cases verdict with
  | error error => rfl
  | ok exit =>
    cases exit with
    | halt => rfl
    | label exit => simp [relocate, Except.map]

/-- Under other labels but with the exits in their places, a run has the same verdict and leaves the
machine in the same state. -/
theorem relocate_id (run : Run State Fault) (place : Label → Label) :
    run.relocate place id = ⟨run.verdict, run.visited.map place, run.state⟩ := by
  obtain ⟨verdict, visited, state⟩ := run
  cases verdict with
  | error error => rfl
  | ok exit => cases exit <;> rfl

/-- A run that is resumed is out of fuel when it was already, or when what comes after it is; the
blocks that ran before are counted in either case. -/
theorem verdict_resume_eq_outOfFuel_iff {run : Run State Fault} {place : Label → Label} {fuel : Nat}
    {next : Nat → Label → State → Run State Fault} {blocks : Nat} :
    (run.resume place fuel next).verdict = .error (.outOfFuel blocks) ↔
      run.verdict = .error (.outOfFuel blocks) ∨
        ∃ exit, run.verdict = .ok (.label exit) ∧
          ∃ later, (next (fuel - run.visited.size) exit run.state).verdict =
              .error (.outOfFuel later) ∧
            blocks = run.visited.size + later := by
  obtain ⟨verdict, visited, state⟩ := run
  cases verdict with
  | error error => simp
  | ok exit =>
    cases exit with
    | halt => simp
    | label exit =>
      rw [resume_label]
      simp only [reduceCtorEq, false_or, Except.ok.injEq, Exit.label.injEq, exists_eq_left']
      obtain ⟨verdict, later, after⟩ := next (fuel - visited.size) exit state
      cases verdict with
      | ok exit => simp
      | error error => cases error <;> simp [RunError.after, eq_comm]

/-- Other labels do not change why a run failed. -/
theorem verdict_relocate_eq_error_iff {run : Run State Fault} {place leave : Label → Label}
    {error : RunError Fault} :
    (run.relocate place leave).verdict = .error error ↔ run.verdict = .error error := by
  obtain ⟨verdict, visited, state⟩ := run
  cases verdict <;> simp [relocate, Except.map]

/-- Under other labels, a run leaves through what has become of its exit. -/
theorem verdict_relocate_eq_label_iff {run : Run State Fault} {place leave : Label → Label}
    {exit : Label} :
    (run.relocate place leave).verdict = .ok (.label exit) ↔
      ∃ source, run.verdict = .ok (.label source) ∧ leave source = exit := by
  obtain ⟨verdict, visited, state⟩ := run
  cases verdict with
  | error error => simp [relocate, Except.map]
  | ok exit => cases exit <;> simp [relocate, Except.map]

end Run

namespace Fragment

/-- The block that is found at a label of the code is the block of that label. -/
theorem blockAt_of_get? {fragment : Fragment Inst Cond} {label : fragment.CodeLabel}
    {block : Block Inst Cond Label} (found : fragment.code.get? label.val = some block) :
    fragment.blockAt label = block := by
  rw [fragment.code.get?_eq_some_block label.property] at found
  exact Option.some.inj found

/-- So is one that is found there as a copy of a block with other targets. -/
theorem blockAt_of_get?_map {inner outer : Fragment Inst Cond} {target : Label → Label}
    {label : inner.CodeLabel} {copy : outer.CodeLabel}
    (found : outer.code.get? copy.val = (inner.code.get? label.val).map (·.mapLabels target)) :
    outer.blockAt copy = (inner.blockAt label).mapLabels target := by
  rw [inner.code.get?_eq_some_block label.property] at found
  exact blockAt_of_get? found

end Fragment

/-- `inner` lies in `outer`: `place` says where its labels are, and `target` what its branch targets
have become. -/
structure Embeds (inner outer : Fragment Inst Cond) (place target : Label → Label) : Prop where
  target_eq_place : ∀ label : Label, label.Within inner.internal → target label = place label
  place_hidden : ∀ label : Label, label.Within inner.internal → (place label).Within outer.internal
  block_hidden : ∀ label : Label, label.Within inner.internal →
    outer.code.get? (place label) = (inner.code.get? label).map (·.mapLabels target)

namespace Embeds

variable {inner outer : Fragment Inst Cond} {place target : Label → Label}
  (embeds : Embeds inner outer place target) (machine : Machine Inst Cond State Fault)

include embeds

/-- What the outer fragment does when the inner one would leave. -/
abbrev next (_ : Embeds inner outer place target) (machine : Machine Inst Cond State Fault)
    (left : Nat) (exit : Label) (state : State) : Run State Fault :=
  outer.proceed machine (target (exit.shift inner.internal.count)) left state

/-- From a label that the outer fragment has under its place, both run alike until the inner one
leaves. -/
theorem runFrom_eq_resume (fuel : Nat) (label : inner.CodeLabel) (placed : outer.CodeLabel)
    (places : placed.val = place label.val)
    (block : outer.code.get? placed.val = (inner.code.get? label.val).map (·.mapLabels target))
    (state : State) :
    outer.runFrom machine fuel placed #[] state =
      (inner.runFrom machine fuel label #[] state).resume place fuel (embeds.next machine) := by
  induction fuel generalizing label placed state with
  | zero => simp [Fragment.runFrom]
  | succ fuel inductionHypothesis =>
    rw [Fragment.runFrom_succ, Fragment.runFrom_succ, Fragment.blockAt_of_get?_map block,
      Block.run_exec_mapLabels]
    cases ran : ((inner.blockAt label).exec machine).run state with
    | error fault after => simp [places]
    | ok answer after =>
      cases answer with
      | none => simp [places]
      | some answer =>
        have resumed := Run.resume_after (inner.proceed machine answer fuel after) #[label.val]
          place fuel (embeds.next machine)
        simp only [List.size_toArray, List.length_singleton, Nat.add_comm 1] at resumed
        simp only [Option.map_some]
        rw [resumed, places]
        simp only [List.map_toArray, List.map_cons, List.map_nil]
        refine congrArg (Run.after · #[place label.val]) ?_
        by_cases hidden : answer.Within inner.internal
        · -- The inner fragment keeps control, and the outer one follows it to the same block.
          have follows := embeds.target_eq_place answer hidden
          have outerHidden := embeds.place_hidden answer hidden
          have outerBlock := embeds.block_hidden answer hidden
          rw [← follows] at outerHidden outerBlock
          rw [Fragment.proceed_of_hidden inner machine hidden,
            Fragment.proceed_of_hidden outer machine outerHidden]
          exact inductionHypothesis _ _ follows outerBlock after
        · -- The inner fragment leaves, and the outer one does as it would on its own.
          obtain ⟨exit, rfl⟩ := Label.exists_eq_shift_of_le (Nat.not_lt.mp hidden)
          rw [Fragment.proceed_shift]
          simp

/-- Where all exits of the inner fragment have become exits of the outer one, both run alike to the
end. -/
theorem runFrom_eq_relocate {leave : Label → Label}
    (leaves : ∀ exit : Label, target (exit.shift inner.internal.count) =
      (leave exit).shift outer.internal.count)
    (fuel : Nat) (label : inner.CodeLabel) (placed : outer.CodeLabel)
    (places : placed.val = place label.val)
    (block : outer.code.get? placed.val = (inner.code.get? label.val).map (·.mapLabels target))
    (state : State) :
    outer.runFrom machine fuel placed #[] state =
      (inner.runFrom machine fuel label #[] state).relocate place leave := by
  rw [embeds.runFrom_eq_resume machine fuel label placed places block state,
    ← Run.resume_leave _ _ leave fuel]
  refine Run.resume_congr fun exit _ => ?_
  rw [next, leaves, Fragment.proceed_shift]

/-- From an entry of the inner fragment that is an entry of the outer one under its place, both run
alike until the inner one leaves. -/
theorem run_eq_resume {entry placed : Label} (inside : entry.Within inner.inputs)
    (placedInside : placed.Within outer.inputs)
    (places : placed.shift outer.internal.count = place (entry.shift inner.internal.count))
    (block : outer.code.get? (placed.shift outer.internal.count) =
      (inner.code.get? (entry.shift inner.internal.count)).map (·.mapLabels target))
    (fuel : Nat) (state : State) :
    outer.run machine placed fuel state =
      (inner.run machine entry fuel state).resume place fuel (embeds.next machine) := by
  rw [Fragment.run_of_within outer machine placedInside,
    Fragment.run_of_within inner machine inside]
  exact embeds.runFrom_eq_resume machine fuel _ _ places block state

/-- From such an entry, both run alike to the end where all exits have become exits. -/
theorem run_eq_relocate {leave : Label → Label}
    (leaves : ∀ exit : Label, target (exit.shift inner.internal.count) =
      (leave exit).shift outer.internal.count)
    {entry placed : Label} (inside : entry.Within inner.inputs)
    (placedInside : placed.Within outer.inputs)
    (places : placed.shift outer.internal.count = place (entry.shift inner.internal.count))
    (block : outer.code.get? (placed.shift outer.internal.count) =
      (inner.code.get? (entry.shift inner.internal.count)).map (·.mapLabels target))
    (fuel : Nat) (state : State) :
    outer.run machine placed fuel state =
      (inner.run machine entry fuel state).relocate place leave := by
  rw [Fragment.run_of_within outer machine placedInside,
    Fragment.run_of_within inner machine inside]
  exact embeds.runFrom_eq_relocate machine leaves fuel _ _ places block state

end Embeds

section Placed

variable {inner outer : Fragment Inst Cond} {place target leave : Label → Label}

/-- Where all blocks of a fragment are found in another, the hidden ones among the hidden ones, and
its exits have become exits, both run alike to the end from each entry that they have in common. -/
theorem Fragment.Placed.run_eq_relocate (placed : Fragment.Placed inner outer place target)
    (follows : ∀ label : Label, label.Within inner.internal → target label = place label)
    (hidden : ∀ label : Label, label.Within inner.internal → (place label).Within outer.internal)
    (leaves : ∀ exit : Label, target (exit.shift inner.internal.count) =
      (leave exit).shift outer.internal.count)
    (machine : Machine Inst Cond State Fault) {entry outerEntry : Label}
    (inside : entry.Within inner.inputs) (outerInside : outerEntry.Within outer.inputs)
    (places : outerEntry.shift outer.internal.count = place (entry.shift inner.internal.count))
    (fuel : Nat) (state : State) :
    outer.run machine outerEntry fuel state =
      (inner.run machine entry fuel state).relocate place leave := by
  have embeds : Embeds inner outer place target := {
    target_eq_place := follows
    place_hidden := hidden
    block_hidden := fun label inHidden =>
      placed.block label (inner.within_entries_of_hidden inHidden) }
  have block := placed.block _ (inner.shift_within_entries inside)
  rw [← places] at block
  exact embeds.run_eq_relocate machine leaves inside outerInside places block fuel state

end Placed

end Flowgraph
