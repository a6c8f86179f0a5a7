import Flowgraph.Proofs.Fragment.Exploration
import Mathlib.Data.List.Chain
import Mathlib.Logic.Relation

/-!
# How much fuel a fragment without loops needs

Behind the entry, a run passes hidden labels, and each of them is a successor of the one before. If one of
them comes twice, there is a loop, and all of it is reached. If none does, there are no more of them than
hidden labels. So a run that is out of fuel, with one block of it more than that, has found a loop, and a
fragment without loops needs no more fuel on any machine.

The one block more is for the entry, which is not hidden. The label at which a run stands when its fuel is
spent has not been visited, but control has come to it, and so it counts with the others.
-/

namespace Flowgraph

namespace Fragment

variable {Inst Cond State Fault : Type}

/-- Control can go from one hidden label to another, and can come to the first one. -/
structure HiddenStep (fragment : Fragment Inst Cond) (label target : Label) : Prop where
  reached : label ∈ fragment.reachable
  hidden : label.Within fragment.internal
  continues : target ∈ fragment.continuations label

/-- There are hidden labels that control can come to, and go around from one of them back to it. -/
def Cyclic (fragment : Fragment Inst Cond) : Prop :=
  ∃ label, Relation.TransGen fragment.HiddenStep label label

variable {fragment : Fragment Inst Cond}

/-- Where every step leads to a label of a higher rank, none leads back. -/
theorem not_cyclic_of_rank (rank : Label → Nat)
    (ascends : ∀ label target, fragment.HiddenStep label target → rank label < rank target) :
    ¬ fragment.Cyclic := by
  rintro ⟨label, around⟩
  have forward {first last : Label} (way : Relation.TransGen fragment.HiddenStep first last) :
      rank first < rank last := by
    induction way with
    | single step => exact ascends _ _ step
    | tail _ step inductionHypothesis => exact Nat.lt_trans inductionHypothesis (ascends _ _ step)
  exact Nat.lt_irrefl _ (forward around)

section Trails

variable {start : Label} {visited : List Label} (trail : fragment.Trail start visited)
  (reached : fragment.Reaches start)

include trail reached

/-- Behind its first label, a trail makes hidden steps. -/
theorem Trail.isChain_hiddenStep : visited.tail.IsChain fragment.HiddenStep := by
  refine List.isChain_iff_getElem.mpr fun index inside => ?_
  have before : visited.tail[index] ∈ visited.tail := List.getElem_mem _
  have behind : visited.tail[index + 1] ∈ visited.tail := List.getElem_mem inside
  -- In the trail itself, both stand one place later.
  obtain ⟨block, found, successor⟩ := trail.successor (index + 1) visited.tail[index]
    visited.tail[index + 1] (by simp) (by simp)
  exact {
    reached := mem_reachable_iff.mpr (trail.reaches reached (List.mem_of_mem_tail before))
    hidden := trail.hidden _ before
    continues := mem_continuations_iff.mpr ⟨block, found, successor, trail.hidden _ behind⟩ }

/-- Without a loop, no label comes twice there: it would be on the way from itself to itself. -/
theorem Trail.nodup_tail (loopFree : ¬ fragment.Cyclic) : visited.tail.Nodup := by
  have onTheWay : visited.tail.IsChain (Relation.TransGen fragment.HiddenStep) :=
    (trail.isChain_hiddenStep reached).imp fun _ _ => .single
  refine onTheWay.pairwise.imp ?_
  rintro label _ around rfl
  exact loopFree ⟨label, around⟩

/-- So a trail has one label more than there are hidden ones, or fewer. -/
theorem Trail.length_le (loopFree : ¬ fragment.Cyclic) :
    visited.length ≤ fragment.internal.count + 1 := by
  have few := Label.length_le_of_nodup (trail.nodup_tail reached loopFree) trail.hidden
  rw [List.length_tail] at few
  omega

end Trails

section Runs

variable {machine : Machine Inst Cond State Fault} {entry : Label} {fuel blocks : Nat} {state : State}

/-- A run that is out of fuel has left a trail behind, which goes on to the label where it stands. -/
theorem exists_trail_of_outOfFuel
    (spent : (fragment.run machine entry fuel state).verdict = .error (.outOfFuel blocks)) :
    ∃ visited, fragment.Trail (entry.shift fragment.internal.count) visited ∧
      fragment.Reaches (entry.shift fragment.internal.count) ∧ visited.length = fuel + 1 := by
  by_cases inside : entry.Within fragment.inputs
  · rw [run_of_within fragment machine inside] at spent
    generalize ran : fragment.runFrom machine fuel _ #[] state = run at spent
    obtain ⟨verdict, visited, after⟩ := run
    obtain rfl : verdict = _ := spent
    obtain ⟨-, all, last, chain⟩ := runFrom_eq_outOfFuel_iff.mp ran
    exact ⟨visited.toList ++ [last], chain.trail, .entry inside, by simpa using all⟩
  · rw [run_of_not_within fragment machine inside] at spent
    cases spent

/-- A run that is out of fuel with more blocks than there are hidden labels has found a loop. -/
theorem cyclic_of_outOfFuel (enough : fragment.internal.count + 1 ≤ fuel)
    (spent : (fragment.run machine entry fuel state).verdict = .error (.outOfFuel blocks)) :
    fragment.Cyclic := by
  obtain ⟨visited, trail, reached, length⟩ := exists_trail_of_outOfFuel spent
  by_contra loopFree
  have short := trail.length_le reached loopFree
  omega

end Runs

/-- A run that is out of fuel, although it had one block for each hidden label and one more, has found a
loop: control can go around hidden labels that are reachable. So where there is no such loop, this fuel is
always enough, whatever the machine answers. -/
theorem fuel_of_acyclic (fragment : Fragment Inst Cond) :
    (∀ {State Fault : Type} (machine : Machine Inst Cond State Fault) (entry : Label) (fuel : Nat)
      (state : State) (blocks : Nat), fragment.internal.count + 1 ≤ fuel →
        (fragment.run machine entry fuel state).verdict = .error (.outOfFuel blocks) →
          fragment.Cyclic) ∧
    (¬ fragment.Cyclic → ∀ {State Fault : Type} (machine : Machine Inst Cond State Fault)
      (entry : Label) (state : State) (blocks : Nat),
        (fragment.run machine entry (fragment.internal.count + 1) state).verdict ≠
          .error (.outOfFuel blocks)) :=
  ⟨fun _ _ _ _ _ enough spent => cyclic_of_outOfFuel enough spent,
    fun loopFree _ _ _ _ _ _ spent => loopFree (cyclic_of_outOfFuel (Nat.le_refl _) spent)⟩

end Fragment

namespace Countdown

/-- Counting down by two, without a loop: the second half is skipped when there is nothing left. -/
def stairs : Fragment Inst Cond where
  internal := 2
  inputs := .one
  outputs := .one
  code := {
    exits := 3
    blocks := #[⟨[.say "tick", .dec], .conditional () ⟨1⟩ ⟨2⟩⟩, ⟨[.say "tick", .dec], .jump ⟨2⟩⟩,
      ⟨[], .jump ⟨0⟩⟩]
    entries_fit := by decide
    targets_within := by decide }
  entries_eq := by decide
  exits_eq := by decide

/-- The descent is out of fuel after two blocks, and has only one hidden label, so there is a loop. The
stairs have none, and three blocks are enough for their two hidden labels on every machine. Two are not,
when the second half is not skipped. -/
theorem fuel_stairs :
    Fragment.Cyclic descent ∧ ¬ Fragment.Cyclic stairs ∧
      (∀ {State Fault : Type} (machine : Machine Inst Cond State Fault) (state : State) (blocks : Nat),
        (stairs.run machine ⟨0⟩ 3 state).verdict ≠ .error (.outOfFuel blocks)) ∧
      (stairs.run machine ⟨0⟩ 2 ⟨2, #[]⟩).verdict = .error (.outOfFuel 2) := by
  have forward : ∀ label target, stairs.HiddenStep label target → label.index < target.index := by
    intro label target step
    have ascends : ∀ label ∈ Label.range 2, ∀ target ∈ stairs.continuations label,
        label.index < target.index := by decide
    exact ascends label (Label.mem_range_iff.mpr step.hidden) target step.continues
  have loopFree := Fragment.not_cyclic_of_rank Label.index forward
  have spent : (descent.run machine ⟨0⟩ 2 ⟨2, #[]⟩).verdict = .error (.outOfFuel 2) := rfl
  refine ⟨(Fragment.fuel_of_acyclic descent).1 machine ⟨0⟩ 2 ⟨2, #[]⟩ 2 (by decide) spent, loopFree,
    ?_, rfl⟩
  intro State Fault machine state blocks
  exact (Fragment.fuel_of_acyclic stairs).2 loopFree machine ⟨0⟩ state blocks

end Countdown

end Flowgraph
