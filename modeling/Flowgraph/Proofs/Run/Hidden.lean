import Flowgraph.Countdown.Program
import Flowgraph.Proofs.Fragment.Hidden
import Flowgraph.Proofs.Fragment.Reachable
import Flowgraph.Proofs.Run.Embedding

/-!
# Hidden labels are only names

A permutation of the hidden labels moves blocks together with the branches to them, and so all of a
fragment is placed in its renamed self, with all exits where they were. It runs as before, under the new
names. It also reaches as before: `Reaches.rename` takes each step along, and the way back is a renaming
of the same kind, so that nothing is reached that is not the image of what was.
-/

namespace Flowgraph

namespace Fragment

variable {Inst Cond : Type} {fragment renamed : Fragment Inst Cond} {table back : Renaming}

section Renamed

variable (made : fragment.renameHidden table = .ok renamed)

include made

/-- All blocks of a fragment are found in what a permutation of its hidden labels makes of it. -/
theorem placed_renameHidden : Placed fragment renamed table.extend table.extend where
  block _ inside := get?_renameHidden made inside

/-- So it runs as before, and visits the same labels under their new names. -/
theorem run_renameHidden {State Fault : Type} (machine : Machine Inst Cond State Fault)
    (entry : Label) (fuel : Nat) (state : State) :
    renamed.run machine entry fuel state =
      (fragment.run machine entry fuel state).relocate table.extend id := by
  have inputs := inputs_renameHidden made
  have visible := extend_shift_of_renameHidden made
  by_cases inside : entry.Within fragment.inputs
  · apply (placed_renameHidden made).run_eq_relocate (fun _ _ => rfl)
      (fun _ hidden => extend_within_of_renameHidden made hidden) visible machine inside
    · rwa [inputs]
    · exact (visible entry).symm
  · rw [run_of_not_within renamed machine (inputs ▸ inside),
      run_of_not_within fragment machine inside, inputs, Run.relocate_id]
    simp

/-- What is reached is reached under its new name. -/
theorem Reaches.rename {label : Label} (reached : fragment.Reaches label) :
    renamed.Reaches (table.extend label) := by
  induction reached with
  | entry inside =>
    rw [extend_shift_of_renameHidden made]
    exact .entry (inputs_renameHidden made ▸ inside)
  | @step label target block reached found member hidden inductionHypothesis =>
    have moved := get?_renameHidden made reached.within
    rw [found] at moved
    refine .step inductionHypothesis moved ?_ (extend_within_of_renameHidden made hidden)
    rw [Block.successors_mapLabels]
    exact List.mem_map_of_mem member

/-- A label is reached under its new name exactly when it was under the old one. -/
theorem reaches_extend_iff (inverts : Renaming.Inverts back table) {label : Label} :
    renamed.Reaches (table.extend label) ↔ fragment.Reaches label := by
  constructor
  · intro reached
    have before := reached.rename (renameHidden_symm made inverts)
    rwa [inverts.symm.extend_back] at before
  · exact Reaches.rename made

/-- The labels that are reachable are the images of those that were. -/
theorem mem_reachable_renameHidden_iff {label : Label} :
    label ∈ renamed.reachable ↔
      ∃ source ∈ fragment.reachable, table.extend source = label := by
  obtain ⟨back, -, -, inverts, -⟩ := renameHidden_steps made
  simp only [mem_reachable_iff]
  constructor
  · intro reached
    refine ⟨back.extend label, ?_, inverts.extend_back label⟩
    rwa [← reaches_extend_iff made inverts, inverts.extend_back]
  · rintro ⟨source, reached, rfl⟩
    exact reached.rename made

/-- The hidden labels that are not reachable are the images of those that were not. -/
theorem mem_unreachable_renameHidden_iff {label : Label} :
    label ∈ renamed.unreachable ↔ label ∈ fragment.unreachable.map table.extend := by
  obtain ⟨back, -, -, inverts, -⟩ := renameHidden_steps made
  have backHidden {label : Label} (hidden : label.Within renamed.internal) :
      (back.extend label).Within fragment.internal :=
    extend_within_of_renameHidden (renameHidden_symm made inverts) hidden
  simp only [List.mem_map, mem_unreachable_iff]
  constructor
  · rintro ⟨hidden, missed⟩
    refine ⟨back.extend label, ⟨backHidden hidden, ?_⟩, inverts.extend_back label⟩
    rwa [← reaches_extend_iff made inverts, inverts.extend_back]
  · rintro ⟨source, ⟨hidden, missed⟩, rfl⟩
    refine ⟨extend_within_of_renameHidden made hidden, ?_⟩
    rwa [reaches_extend_iff made inverts]

/-- In order, they are the sorted images. -/
theorem unreachable_renameHidden :
    renamed.unreachable =
      (fragment.unreachable.map table.extend).mergeSort
        fun left right => (compare left right).isLE := by
  obtain ⟨back, -, -, inverts, -⟩ := renameHidden_steps made
  have nodup (ordered : Fragment Inst Cond) : ordered.unreachable.Nodup :=
    Label.nodup_of_pairwise ordered.pairwise_unreachable
  have imagesNodup : (fragment.unreachable.map table.extend).Nodup := by
    refine List.pairwise_map.mpr ((nodup fragment).imp fun {left right} differ same => differ ?_)
    rw [← inverts.symm.extend_back left, same, inverts.symm.extend_back]
  apply Label.eq_mergeSort_of_pairwise renamed.pairwise_unreachable
  rw [List.perm_ext_iff_of_nodup (nodup renamed) imagesNodup]
  exact fun label => mem_unreachable_renameHidden_iff made

end Renamed

/-- Hidden labels are only names. They can be permuted by any bijection, and then the fragment runs as
before from every entry and on every machine: it comes to the same verdict, visits the same labels under
their new names, and leaves the machine in the same state. What it can reach is what it could reach
before, under the new names, and so is what it cannot reach, in order. -/
theorem exists_renameHidden_run (fragment : Fragment Inst Cond) (table : Renaming)
    (fitting : table.domain = fragment.internal) (bijective : table.Bijective) :
    ∃ renamed, fragment.renameHidden table = .ok renamed ∧
      (∀ {State Fault : Type} (machine : Machine Inst Cond State Fault) (entry : Label) (fuel : Nat)
        (state : State),
          renamed.run machine entry fuel state =
            ⟨(fragment.run machine entry fuel state).verdict,
              (fragment.run machine entry fuel state).visited.map table.extend,
              (fragment.run machine entry fuel state).state⟩) ∧
      (∀ label : Label, label ∈ renamed.reachable ↔
        ∃ source ∈ fragment.reachable, table.extend source = label) ∧
      renamed.unreachable =
        (fragment.unreachable.map table.extend).mergeSort
          fun left right => (compare left right).isLE := by
  obtain ⟨back, undone⟩ := Renaming.exists_inverse_iff.mpr bijective
  obtain ⟨renamed, made⟩ := exists_renameHidden (Renaming.inverse_eq_ok_iff.mp undone) fitting
  refine ⟨renamed, made, ?_, ?_, unreachable_renameHidden made⟩
  · intro State Fault machine entry fuel state
    rw [run_renameHidden made, Run.relocate_id]
  · intro label
    exact mem_reachable_renameHidden_iff made

end Fragment

namespace Countdown

/-- The loop that counts down, spread over three hidden labels, and a fourth that nothing goes to. -/
def relay : Fragment Inst Cond where
  internal := 4
  inputs := .one
  outputs := .one
  code := {
    exits := 5
    blocks := #[⟨[.say "tick"], .jump ⟨1⟩⟩, ⟨[.dec], .jump ⟨2⟩⟩, ⟨[], .conditional () ⟨0⟩ ⟨4⟩⟩,
      ⟨[], .halt⟩, ⟨[], .jump ⟨0⟩⟩]
    entries_fit := by decide
    targets_within := by decide }
  entries_eq := by decide
  exits_eq := by decide

/-- Each of four labels goes to the next, and the last to the first. -/
def rotation : Renaming where
  codomain := 4
  images := #[⟨1⟩, ⟨2⟩, ⟨3⟩, ⟨0⟩]
  domain_fits := by decide
  images_within := by decide

/-- With its hidden labels rotated, the relay counts down as before, and now it is the first label that
nothing goes to. -/
theorem run_rotated_relay :
    rotation.domain = relay.internal ∧ rotation.Bijective ∧
      ∃ renamed, relay.renameHidden rotation = .ok renamed ∧
        renamed.run machine ⟨0⟩ 9 ⟨2, #[]⟩ =
          ⟨.ok (.label ⟨0⟩), #[⟨4⟩, ⟨1⟩, ⟨2⟩, ⟨3⟩, ⟨1⟩, ⟨2⟩, ⟨3⟩], ⟨0, #["tick (2)", "tick (1)"]⟩⟩ ∧
        renamed.unreachable = [⟨0⟩] := by
  have fitting : rotation.domain = relay.internal := by decide
  have bijective : rotation.Bijective := by decide
  obtain ⟨renamed, made, runs, -, unreachable⟩ :=
    Fragment.exists_renameHidden_run relay rotation fitting bijective
  have ran : relay.run machine ⟨0⟩ 9 ⟨2, #[]⟩ =
      ⟨.ok (.label ⟨0⟩), #[⟨4⟩, ⟨0⟩, ⟨1⟩, ⟨2⟩, ⟨0⟩, ⟨1⟩, ⟨2⟩], ⟨0, #["tick (2)", "tick (1)"]⟩⟩ := rfl
  have names : (#[⟨4⟩, ⟨0⟩, ⟨1⟩, ⟨2⟩, ⟨0⟩, ⟨1⟩, ⟨2⟩] : Array Label).map rotation.extend =
      #[⟨4⟩, ⟨1⟩, ⟨2⟩, ⟨3⟩, ⟨1⟩, ⟨2⟩, ⟨3⟩] := by decide +kernel
  have missed : relay.unreachable = [⟨3⟩] := by cbv
  refine ⟨fitting, bijective, renamed, made, ?_, ?_⟩
  · rw [runs, ran]
    exact congrArg (Run.mk _ · _) names
  · rw [unreachable, missed]
    cbv

end Countdown

end Flowgraph
