import Flowgraph.Proofs.Fragment.Exploration

/-!
# Blocks that are not reached do not run

A fragment keeps the blocks that it does not reach, and they can be replaced by any others.
`AgreesReached` relates it to the fragment in which that is done. The two reach the same labels, which
makes the relation symmetric, and a chain of blocks in the one is a chain in the other: it starts at a
label that is reached, and never goes to one that is not. Since a run is the one thing that the blocks
of such a chain say that it comes to, both run alike.
-/

namespace Flowgraph

namespace Fragment

variable {Inst Cond State Fault : Type}

/-- Two fragments with the same interface, and with the same block at each label that the first one
reaches. The other blocks may be anything. -/
structure AgreesReached (fragment other : Fragment Inst Cond) : Prop where
  internal_eq : other.internal = fragment.internal
  inputs_eq : other.inputs = fragment.inputs
  outputs_eq : other.outputs = fragment.outputs
  block_eq : ∀ label ∈ fragment.reachable, other.code.get? label = fragment.code.get? label

variable {fragment other : Fragment Inst Cond}

section Reached

variable (agrees : fragment.AgreesReached other)

include agrees

theorem AgreesReached.block_eq_of_reaches {label : Label} (reached : fragment.Reaches label) :
    other.code.get? label = fragment.code.get? label :=
  agrees.block_eq label (mem_reachable_iff.mpr reached)

/-- What the second fragment reaches, the first one does. -/
theorem Reaches.of_agrees {label : Label} (reached : other.Reaches label) :
    fragment.Reaches label := by
  induction reached with
  | entry inside =>
    rw [agrees.internal_eq]
    exact .entry (agrees.inputs_eq ▸ inside)
  | step _ found member hidden inductionHypothesis =>
    rw [agrees.block_eq_of_reaches inductionHypothesis] at found
    exact .step inductionHypothesis found member (agrees.internal_eq ▸ hidden)

/-- Then the first agrees with the second as well. -/
theorem AgreesReached.symm : other.AgreesReached fragment where
  internal_eq := agrees.internal_eq.symm
  inputs_eq := agrees.inputs_eq.symm
  outputs_eq := agrees.outputs_eq.symm
  block_eq _ member :=
    (agrees.block_eq_of_reaches ((mem_reachable_iff.mp member).of_agrees agrees)).symm

/-- Both reach the same labels. -/
theorem AgreesReached.reaches_iff {label : Label} :
    other.Reaches label ↔ fragment.Reaches label :=
  ⟨Reaches.of_agrees agrees, Reaches.of_agrees agrees.symm⟩

/-- So they list the same labels as reachable. -/
theorem AgreesReached.reachable_eq : other.reachable = fragment.reachable := by
  have entries : other.code.entries.count = fragment.code.entries.count := by
    rw [other.entries_eq, fragment.entries_eq, agrees.internal_eq, agrees.inputs_eq]
  unfold reachable
  rw [entries]
  apply List.filter_congr
  intro label _
  rw [Bool.eq_iff_iff, beq_iff_eq, beq_iff_eq, reachMarks_eq_true_iff, reachMarks_eq_true_iff]
  exact agrees.reaches_iff

end Reached

section Chains

variable {machine : Machine Inst Cond State Fault} {label last : Label} {before after : State}
  {visited : List Label}

/-- A chain from a label that is reached comes to a label that is reached. -/
theorem Chain.reaches (chain : fragment.Chain machine label before visited last after)
    (reached : fragment.Reaches label) : fragment.Reaches last :=
  chain.trail.reaches reached (List.mem_append_right _ (List.mem_singleton_self last))

/-- A run that begins at a label that is reached visits no others, whatever it comes to. -/
theorem Outcome.reaches {fuel : Nat} {run : Run State Fault}
    (outcome : fragment.Outcome machine label before fuel run) (reached : fragment.Reaches label)
    {earlier : Label} (member : earlier ∈ run.visited) : fragment.Reaches earlier := by
  have listed := Array.mem_toList_iff.mpr member
  cases outcome with
  | left _ ends => exact ends.trail.reaches reached listed
  | failed _ ends => exact ends.trail.reaches reached listed
  | spent _ chain => exact chain.trail.reaches reached (List.mem_append_left _ listed)

section Agreement

variable (agrees : fragment.AgreesReached other) (reached : fragment.Reaches label)

include agrees reached

/-- At a label that is reached, both fragments execute the same block. -/
theorem Executes.of_agrees {result : EStateM.Result Fault State (Option Label)}
    (executes : fragment.Executes machine label before result) :
    other.Executes machine label before result := by
  obtain ⟨block, found, ran⟩ := executes
  exact ⟨block, (agrees.block_eq_of_reaches reached).trans found, ran⟩

/-- From there, control goes along the same chains. -/
theorem Chain.of_agrees (chain : fragment.Chain machine label before visited last after) :
    other.Chain machine label before visited last after := by
  induction chain with
  | start => exact .start
  | next executes hidden _ inductionHypothesis =>
    obtain ⟨block, found, successor⟩ := executes.exists_successor
    refine .next (executes.of_agrees agrees reached) (agrees.internal_eq ▸ hidden) ?_
    exact inductionHypothesis (.step reached found successor hidden)

theorem ChainEnds.of_agrees {result : EStateM.Result Fault State (Option Label)}
    (ends : fragment.ChainEnds machine label before visited result) :
    other.ChainEnds machine label before visited result := by
  obtain ⟨earlier, last, middle, chain, executes, rfl⟩ := ends
  exact ⟨earlier, last, middle, chain.of_agrees agrees reached,
    executes.of_agrees agrees (chain.reaches reached), rfl⟩

/-- So they come to the same. -/
theorem Outcome.of_agrees {fuel : Nat} {run : Run State Fault}
    (outcome : fragment.Outcome machine label before fuel run) :
    other.Outcome machine label before fuel run := by
  cases outcome with
  | left enough ends =>
    rw [← agrees.internal_eq] at ends
    exact .left enough (ends.of_agrees agrees reached)
  | failed enough ends => exact .failed enough (ends.of_agrees agrees reached)
  | spent all chain => exact .spent all (chain.of_agrees agrees reached)

end Agreement

end Chains

/-- Every label that a run visits is reached. -/
theorem reaches_of_mem_visited {machine : Machine Inst Cond State Fault} {entry label : Label}
    {fuel : Nat} {state : State} (member : label ∈ (fragment.run machine entry fuel state).visited) :
    fragment.Reaches label := by
  by_cases inside : entry.Within fragment.inputs
  · have outcome := (run_eq_iff_outcome inside).mp (Eq.refl (fragment.run machine entry fuel state))
    exact outcome.reaches (.entry inside) member
  · rw [run_of_not_within fragment machine inside] at member
    cases Array.not_mem_empty label member

/-- Fragments with the same blocks at the labels that are reached run alike. -/
theorem AgreesReached.run_eq (agrees : fragment.AgreesReached other)
    (machine : Machine Inst Cond State Fault) (entry : Label) (fuel : Nat) (state : State) :
    other.run machine entry fuel state = fragment.run machine entry fuel state := by
  have inputs := agrees.inputs_eq
  by_cases inside : entry.Within fragment.inputs
  · have outcome := (run_eq_iff_outcome inside).mp (Eq.refl (fragment.run machine entry fuel state))
    rw [run_eq_iff_outcome (inputs ▸ inside), agrees.internal_eq]
    exact outcome.of_agrees agrees (.entry inside)
  · rw [run_of_not_within other machine (inputs ▸ inside),
      run_of_not_within fragment machine inside, inputs]

/-- Blocks that are not reached never matter. They can be replaced by any others, and then the fragment
reaches the same labels, and its runs come to the same verdict, visit the same labels and leave the
machine in the same state. For whatever a run comes to, it visits only labels that are reachable. -/
theorem unreached_blocks_idle (agrees : fragment.AgreesReached other) :
    other.reachable = fragment.reachable ∧
    (∀ {State Fault : Type} (machine : Machine Inst Cond State Fault) (entry : Label) (fuel : Nat)
      (state : State),
        other.run machine entry fuel state = fragment.run machine entry fuel state) ∧
    ∀ {State Fault : Type} (machine : Machine Inst Cond State Fault) (entry : Label) (fuel : Nat)
      (state : State), ∀ label ∈ (fragment.run machine entry fuel state).visited,
        label ∈ fragment.reachable := by
  refine ⟨agrees.reachable_eq, fun machine entry fuel state => agrees.run_eq machine entry fuel state,
    ?_⟩
  intro State Fault machine entry fuel state label member
  exact mem_reachable_iff.mpr (reaches_of_mem_visited member)

end Fragment

namespace Countdown

/-- The relay, where the label that nothing goes to has got a loop of its own. -/
def haunted : Fragment Inst Cond where
  internal := 4
  inputs := .one
  outputs := .one
  code := {
    exits := 5
    blocks := #[⟨[.say "tick"], .jump ⟨1⟩⟩, ⟨[.dec], .jump ⟨2⟩⟩, ⟨[], .conditional () ⟨0⟩ ⟨4⟩⟩,
      ⟨[.say "boo"], .jump ⟨3⟩⟩, ⟨[], .jump ⟨0⟩⟩]
    entries_fit := by decide
    targets_within := by decide }
  entries_eq := by decide
  exits_eq := by decide

/-- It counts down as the relay does, and never comes to that loop. -/
theorem run_haunted :
    relay.AgreesReached haunted ∧ haunted.reachable = [⟨0⟩, ⟨1⟩, ⟨2⟩, ⟨4⟩] ∧
      haunted.run machine ⟨0⟩ 9 ⟨2, #[]⟩ = relay.run machine ⟨0⟩ 9 ⟨2, #[]⟩ := by
  have reached : relay.reachable = [⟨0⟩, ⟨1⟩, ⟨2⟩, ⟨4⟩] := by cbv
  have agrees : relay.AgreesReached haunted := by
    refine ⟨rfl, rfl, rfl, ?_⟩
    rw [reached]
    decide
  obtain ⟨same, runs, -⟩ := Fragment.unreached_blocks_idle agrees
  exact ⟨agrees, same.trans reached, runs machine ⟨0⟩ 9 ⟨2, #[]⟩⟩

end Countdown

end Flowgraph
