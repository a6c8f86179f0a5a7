import Flowgraph.Proofs.Run.Sequence

/-!
# Fragments side by side run as they do alone

`Fragment.append` gives its operands new places and keeps them apart. Each operand lies in the
result in the sense of `Embeds`, and where it leaves, the result leaves: the interchange by which
the entries are read and the one by which the targets are written agree on where every label is.
`disjoint_places` says that the places of the two never meet, and so no run that starts in one
operand enters a block of the other.
-/

namespace Flowgraph

/-- A run under other labels has visited what the run has, under the other labels. -/
theorem Run.mem_visited_relocate {State Fault : Type} {run : Run State Fault}
    {place leave : Label → Label} {label : Label} :
    label ∈ (run.relocate place leave).visited ↔ ∃ inner ∈ run.visited, place inner = label :=
  Array.mem_map

namespace Fragment

variable {Inst Cond State Fault : Type} {fragment other both : Fragment Inst Cond}

section Places

variable (made : fragment.append other = .ok both)

include made

/-- The left operand lies in an append, with room for the hidden labels of the right one. -/
theorem embeds_append_left :
    Embeds fragment both (·.makeRoom fragment.internal.count other.internal.count)
      (·.makeRoom fragment.internal.count other.internal.count) where
  target_eq_place _ _ := rfl
  place_hidden label hidden := by
    rw [Label.makeRoom_of_lt hidden, Label.Within, count_internal_append made]
    exact Nat.lt_add_right _ hidden
  block_hidden label hidden := get?_append_left made (fragment.within_entries_of_hidden hidden)

/-- The right operand lies in an append behind the hidden labels of the left one, with room for the
visible labels of that one. -/
theorem embeds_append_right :
    Embeds other both
      (fun label =>
        (label.makeRoom other.internal.count fragment.inputs.count).shift fragment.internal.count)
      (fun target =>
        (target.makeRoom other.internal.count fragment.outputs.count).shift
          fragment.internal.count) where
  target_eq_place label hidden := by
    rw [Label.makeRoom_of_lt hidden, Label.makeRoom_of_lt hidden]
  place_hidden label hidden := by
    rw [Label.makeRoom_of_lt hidden, Label.Within, count_internal_append made, Label.index_shift]
    exact Nat.add_lt_add_left hidden _
  block_hidden label hidden := get?_append_right made (other.within_entries_of_hidden hidden)

variable (machine : Machine Inst Cond State Fault) {entry : Label}

/-- From an entry of the left operand, an append runs as that operand, and leaves through the same
exits. -/
theorem run_append_left (inside : entry.Within fragment.inputs) (fuel : Nat) (state : State) :
    both.run machine entry fuel state =
      (fragment.run machine entry fuel state).relocate
        (·.makeRoom fragment.internal.count other.internal.count) id := by
  have bothInside : entry.Within both.inputs := by
    rw [Label.Within, count_inputs_append made]
    exact Nat.lt_add_right _ inside
  have places := (append_left_visible made entry).symm
  have block := get?_append_left made (fragment.shift_within_entries inside)
  rw [← places] at block
  exact (embeds_append_left made).run_eq_relocate machine (append_left_visible made) inside
    bothInside places block fuel state

/-- From an entry of the right operand, an append runs as that operand, and leaves through its exits
behind those of the left one. -/
theorem run_append_right (inside : entry.Within other.inputs) (fuel : Nat) (state : State) :
    both.run machine (entry.shift fragment.inputs.count) fuel state =
      (other.run machine entry fuel state).relocate
        (fun label =>
          (label.makeRoom other.internal.count fragment.inputs.count).shift
            fragment.internal.count)
        (·.shift fragment.outputs.count) := by
  have bothInside : (entry.shift fragment.inputs.count).Within both.inputs := by
    rw [Label.Within, count_inputs_append made, Label.index_shift]
    exact Nat.add_lt_add_left inside _
  have places := (append_right_visible made entry fragment.inputs.count).symm
  have block := get?_append_right made (other.shift_within_entries inside)
  rw [← places] at block
  -- An exit of the right operand lies behind all hidden labels and the exits of the left one.
  have leaves (exit : Label) := append_right_visible made exit fragment.outputs.count
  exact (embeds_append_right made).run_eq_relocate machine leaves inside bothInside places block
    fuel state

/-- An append runs its operands unchanged: from the entries of either operand it runs as that
operand does alone, with the same verdict up to the place of the exits, and the same machine at the
end. No run that starts in one operand visits a block of the other. -/
theorem run_append (fuel : Nat) (state : State) :
    (∀ entry : Label, entry.Within fragment.inputs →
      both.run machine entry fuel state =
          (fragment.run machine entry fuel state).relocate
            (·.makeRoom fragment.internal.count other.internal.count) id ∧
        ∀ label : Label, label.Within other.code.entries →
          (label.makeRoom other.internal.count fragment.inputs.count).shift
              fragment.internal.count ∉ (both.run machine entry fuel state).visited) ∧
      ∀ entry : Label, entry.Within other.inputs →
        both.run machine (entry.shift fragment.inputs.count) fuel state =
            (other.run machine entry fuel state).relocate
              (fun label =>
                (label.makeRoom other.internal.count fragment.inputs.count).shift
                  fragment.internal.count)
              (·.shift fragment.outputs.count) ∧
          ∀ label : Label, label.Within fragment.code.entries →
            label.makeRoom fragment.internal.count other.internal.count ∉
              (both.run machine (entry.shift fragment.inputs.count) fuel state).visited := by
  constructor
  · intro entry inside
    have alone := run_append_left made machine inside fuel state
    refine ⟨alone, fun label _ visited => ?_⟩
    rw [alone, Run.mem_visited_relocate] at visited
    obtain ⟨inner, member, same⟩ := visited
    have innerInside := (fragment.run_bounded machine entry fuel state).visited_within inner member
    exact disjoint_places innerInside same
  · intro entry inside
    have alone := run_append_right made machine inside fuel state
    refine ⟨alone, fun label labelInside visited => ?_⟩
    rw [alone, Run.mem_visited_relocate] at visited
    obtain ⟨inner, _, same⟩ := visited
    exact disjoint_places labelInside same.symm

end Places

end Fragment

namespace Countdown

/-- Two descents side by side: the second entry of the two starts the second descent. -/
theorem run_descent_append_descent :
    ∃ both, descent.append descent = .ok both ∧
      both.run machine ⟨1⟩ 9 ⟨2, #[]⟩ =
        (descent.run machine ⟨0⟩ 9 ⟨2, #[]⟩).relocate
          (fun label => (label.makeRoom 1 1).shift 1) (·.shift 1) := by
  obtain ⟨both, made⟩ := Fragment.exists_append descent descent (by decide) (by decide)
  exact ⟨both, made, ((Fragment.run_append made machine 9 ⟨2, #[]⟩).2 ⟨0⟩ (by decide)).1⟩

end Countdown

end Flowgraph
