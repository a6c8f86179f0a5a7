import Flowgraph.Proofs.Draft.Assemble
import Flowgraph.Proofs.Draft.Calls
import Flowgraph.Proofs.Run.Sequence

/-!
# Running a draft by its names

A draft can be run as it is, without any numbers: the block of a name executes with names for its
targets, and its answer says which name is next, or which exit control leaves through. That is
`Draft.interpret`. It gets stuck when it comes to a name without a block, or to an answer that is neither
a hidden label nor an exit.

A draft that can be finished does not get stuck, and the finished fragment runs as the draft does. The
induction is on the fuel; on the way, the label of the fragment is the position of the name in the
draft. Only where the run begins does it matter that the names are distinct.
-/

namespace Flowgraph

/-- What a run that goes by names comes to. -/
structure NameRun (State Fault : Type) where
  verdict : Except (RunError Fault) Exit
  visited : Array String
  state : State

/-- A run that went by names, with a label in place of each. -/
def NameRun.numbered {State Fault : Type} (number : String → Label) (run : NameRun State Fault) :
    Run State Fault where
  verdict := run.verdict
  visited := run.visited.map number
  state := run.state

namespace Draft

variable {Inst Cond State Fault : Type}

/-- Go on with a run at a name, after the names in `visited`. -/
def interpretFrom (draft : Draft Inst Cond) (machine : Machine Inst Cond State Fault) :
    (fuel : Nat) → (name : String) → (visited : Array String) → (state : State) →
    Option (NameRun State Fault)
  | 0, _, visited, state => some ⟨.error (.outOfFuel visited.size), visited, state⟩
  | fuel + 1, name, visited, state => do
    let block ← draft.block? name
    let visited := visited.push name
    match (block.exec machine).run state with
    | .error fault state => some ⟨.error (.machine fault), visited, state⟩
    | .ok none state => some ⟨.ok .halt, visited, state⟩
    | .ok (some target) state =>
      if target ∈ draft.hiddenNames then
        draft.interpretFrom machine fuel target visited state
      else do
        let exit ← draft.exits.idxOf? target
        some ⟨.ok (.label ⟨exit⟩), visited, state⟩

/-- Run a draft by its names, from the entry that was declared after `entry` others. -/
def interpret (draft : Draft Inst Cond) (machine : Machine Inst Cond State Fault) (entry fuel : Nat)
    (state : State) : Option (NameRun State Fault) := do
  let name ← draft.entryNames[entry]?
  draft.interpretFrom machine fuel name #[] state

variable {draft : Draft Inst Cond} {name : String}

/-- When names are distinct, entries lie behind the hidden labels in the order of declaration. -/
theorem Distinct.position_entry (distinct : draft.Distinct) {entry : Nat}
    (inside : entry < draft.entryNames.length) :
    draft.position draft.entryNames[entry] = ⟨draft.hidden.length + entry⟩ := by
  rw [Distinct, names, List.nodup_append] at distinct
  obtain ⟨-, later, apart⟩ := distinct
  have entries := (List.nodup_append.mp later).1
  have visible : draft.entryNames[entry] ∉ draft.hiddenNames := fun hidden =>
    apart _ hidden _ (List.mem_append_left _ (List.getElem_mem inside)) rfl
  rw [position, numberAmong_of_not_hidden _ visible, entries.idxOf_getElem]

section Assembled

variable {fragment : Fragment Inst Cond} (made : draft.assemble = .ok fragment)
  (machine : Machine Inst Cond State Fault)

include made

/-- A hidden label is a hidden label of the fragment, and its block lies there. -/
theorem target_of_hidden (hidden : name ∈ draft.hiddenNames) :
    (draft.target name).Within fragment.internal ∧ draft.target name = draft.position name := by
  obtain ⟨-, internal, -, -⟩ := assemble_eq_ok_iff.mp made
  rw [position, target, numberAmong_of_hidden _ hidden, numberAmong_of_hidden _ hidden]
  refine ⟨?_, rfl⟩
  rw [Label.Within, internal, ← length_hiddenNames]
  exact List.idxOf_lt_length_of_mem hidden

/-- Any other target is an exit of the fragment, behind the hidden labels. -/
theorem target_of_not_hidden (visible : name ∉ draft.hiddenNames) :
    draft.target name = (⟨draft.exits.idxOf name⟩ : Label).shift fragment.internal.count := by
  obtain ⟨-, internal, -, -⟩ := assemble_eq_ok_iff.mp made
  rw [target, numberAmong_of_not_hidden _ visible, internal, Label.shift]

/-- From any name with a block, the fragment runs as the draft does. -/
theorem interpretFrom_numbered (fuel : Nat)
    (declared : name ∈ draft.hiddenNames ∨ name ∈ draft.entryNames) (label : fragment.CodeLabel)
    (placed : label.val = draft.position name) (visited : Array String) (state : State) :
    (draft.interpretFrom machine fuel name visited state).map (·.numbered draft.position) =
      some (fragment.runFrom machine fuel label (visited.map draft.position) state) := by
  induction fuel generalizing name label visited state with
  | zero => simp [interpretFrom, Fragment.runFrom, NameRun.numbered]
  | succ fuel inductionHypothesis =>
    obtain ⟨block, given, targets, found⟩ := get?_assemble made declared
    rw [← placed] at found
    have pushed : (visited.map draft.position).push label.val =
        (visited.push name).map draft.position := by
      rw [placed, Array.map_push]
    rw [Fragment.runFrom, Fragment.blockAt_of_get? found, Block.run_exec_mapLabels, pushed]
    simp only [interpretFrom, given, Option.bind_eq_bind, Option.bind_some]
    cases ran : (block.exec machine).run state with
    | error fault after => rfl
    | ok answer after =>
      cases answer with
      | none => rfl
      | some answer =>
        simp only [Option.map_some]
        by_cases hidden : answer ∈ draft.hiddenNames
        · obtain ⟨inside, follows⟩ := target_of_hidden made hidden
          rw [if_pos hidden, dif_pos inside]
          exact inductionHypothesis (.inl hidden) _ follows _ after
        · have exit := (targets answer (Block.mem_successors_of_exec ran)).resolve_left hidden
          have outside : ¬ (draft.target answer).Within fragment.internal := by
            simp [target_of_not_hidden made hidden, Label.Within]
          rw [if_neg hidden, dif_neg outside, idxOf?_of_mem exit, target_of_not_hidden made hidden]
          simp [NameRun.numbered]

end Assembled

/-- A finished draft runs as it is written. From the entry that was declared after `entry` others, the
fragment comes to the same verdict as the draft that is run by its names, and leaves the machine in the
same state; and of each name that the draft passes, it visits the position, among the hidden labels or
behind them among the entries. -/
theorem run_assemble (arises : draft.Arises) {fragment : Fragment Inst Cond}
    (made : draft.assemble = .ok fragment) (machine : Machine Inst Cond State Fault) (entry : Nat)
    (inside : entry < draft.entries.length) (fuel : Nat) (state : State) :
    (draft.interpret machine entry fuel state).map (·.numbered draft.position) =
      some (fragment.run machine ⟨entry⟩ fuel state) := by
  obtain ⟨-, internal, inputs, -⟩ := assemble_eq_ok_iff.mp made
  have listed : entry < draft.entryNames.length := length_entryNames ▸ inside
  have within : (⟨entry⟩ : Label).Within fragment.inputs := by
    rw [Label.Within, inputs]
    exact inside
  have placed : (⟨entry⟩ : Label).shift fragment.internal.count =
      draft.position draft.entryNames[entry] := by
    rw [arises.distinct.position_entry listed, internal, Label.shift]
  have started := interpretFrom_numbered made machine fuel (.inr (List.getElem_mem listed))
    ⟨_, fragment.shift_within_entries within⟩ placed #[] state
  rw [Array.map_empty] at started
  rw [interpret, List.getElem?_eq_getElem listed, Fragment.run_of_within fragment machine within]
  exact started

end Draft

namespace Countdown

/-- The draft of the loop, as the calls leave it that make it. -/
def drafted : Draft Inst Cond where
  hidden := [⟨"loop", some ⟨[.say "tick", .dec], .conditional () "loop" "done"⟩⟩]
  entries := [⟨"start", some (.jump "loop")⟩]
  exits := ["done"]

theorem arises_drafted : drafted.Arises := by
  have entry : (⟨[], [⟨"start", none⟩], []⟩ : Draft Inst Cond).Arises :=
    .perform .empty (.declareEntry "start") rfl
  have labels : (⟨[⟨"loop", none⟩], [⟨"start", none⟩], ["done"]⟩ : Draft Inst Cond).Arises :=
    .perform (.perform entry (.declareHidden "loop") rfl) (.declareExit "done") rfl
  have start := labels.perform (.attach "start" (.jump "loop")) rfl
  exact start.perform (.attach "loop" ⟨[.say "tick", .dec], .conditional () "loop" "done"⟩) rfl

/-- It is finished as the descent. By its names, it goes from the start into the loop and twice around;
and by its labels, so does the descent. -/
theorem run_drafted :
    loopDraft = .ok drafted ∧ drafted.assemble = .ok descent ∧
      drafted.interpret machine 0 9 ⟨2, #[]⟩ =
        some ⟨.ok (.label ⟨0⟩), #["start", "loop", "loop"], ⟨0, #["tick (2)", "tick (1)"]⟩⟩ ∧
      descent.run machine ⟨0⟩ 9 ⟨2, #[]⟩ =
        ⟨.ok (.label ⟨0⟩), #[⟨1⟩, ⟨0⟩, ⟨0⟩], ⟨0, #["tick (2)", "tick (1)"]⟩⟩ := by
  have made : drafted.assemble = .ok descent := rfl
  have named : drafted.interpret machine 0 9 ⟨2, #[]⟩ =
      some ⟨.ok (.label ⟨0⟩), #["start", "loop", "loop"], ⟨0, #["tick (2)", "tick (1)"]⟩⟩ := rfl
  have runs := Draft.run_assemble arises_drafted made machine 0 (by decide) 9 ⟨2, #[]⟩
  have positions : #["start", "loop", "loop"].map drafted.position = #[⟨1⟩, ⟨0⟩, ⟨0⟩] := by
    decide +kernel
  rw [named] at runs
  refine ⟨rfl, made, named, (Option.some.inj runs).symm.trans ?_⟩
  exact congrArg (Run.mk _ · _) positions

end Countdown

end Flowgraph
