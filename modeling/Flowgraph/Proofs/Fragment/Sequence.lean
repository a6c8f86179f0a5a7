import Flowgraph.Proofs.Fragment.Interface

/-!
# Where the blocks of a sequence come from

A sequence is an append whose entries are turned around and whose inner interface is linked away.
Taken together, the three steps put the first part and the second where `get?_seq_first` and
`get?_seq_second` say: the exits of the first lie where the entries of the second do.
-/

namespace Flowgraph.Fragment

variable {Inst Cond : Type}

/-- Fragments that meet in one interface can be put in sequence as soon as the code of the two side
by side has sizes. -/
theorem exists_seq (fragment next : Fragment Inst Cond) (agree : fragment.outputs = next.inputs)
    (entriesFit : fragment.internal.count + next.internal.count + fragment.inputs.count +
      next.inputs.count < Size.limit)
    (exitsFit : fragment.internal.count + next.internal.count + fragment.outputs.count +
      next.outputs.count < Size.limit) :
    ∃ both, fragment.seq next = .ok both := by
  obtain ⟨joined, joinedMade⟩ := exists_append fragment next entriesFit exitsFit
  obtain ⟨internal, inputs, outputs⟩ := counts_append joinedMade
  have interface := congrArg Size.count agree
  obtain ⟨entries, entriesMade⟩ := Renaming.exists_swap next.inputs fragment.inputs (by omega)
  have domain := Renaming.count_domain_swap entriesMade
  have codomain := Renaming.count_codomain_swap entriesMade
  obtain ⟨turned, turnedMade⟩ := exists_relabel joined entries (.identity joined.outputs)
    (Size.ext (by omega)) (Renaming.domain_identity _) (by omega)
    (by rw [Renaming.codomain_identity]; omega)
  have turnedInputs := congrArg Size.count (inputs_relabel turnedMade)
  have turnedOutputs := congrArg Size.count (outputs_relabel turnedMade)
  rw [Renaming.codomain_identity] at turnedOutputs
  obtain ⟨both, bothMade⟩ := exists_link turned next.inputs (by omega) (by omega)
  refine ⟨both, ?_⟩
  rw [seq, if_neg (Classical.not_not.mpr agree)]
  simp only [bind_eq_ok_iff, mapError_eq_ok_iff]
  exact ⟨joined, joinedMade, entries, entriesMade, turned, turnedMade, bothMade⟩

section Sequence

variable {fragment next both : Fragment Inst Cond} (made : fragment.seq next = .ok both)

include made

/-- What a sequence is made of. -/
theorem seq_steps :
    fragment.outputs = next.inputs ∧
      ∃ (joined turned : Fragment Inst Cond) (entries : Renaming),
        fragment.append next = .ok joined ∧
          Renaming.swap next.inputs fragment.inputs = .ok entries ∧
            joined.relabel entries (.identity joined.outputs) = .ok turned ∧
              turned.link next.inputs = .ok both := by
  unfold seq at made
  split at made
  · cases made
  · rename_i agree
    simp only [bind_eq_ok_iff, mapError_eq_ok_iff] at made
    obtain ⟨joined, joinedMade, entries, entriesMade, turned, turnedMade, linkedMade⟩ := made
    exact ⟨Classical.not_not.mp agree, joined, turned, entries, joinedMade, entriesMade, turnedMade,
      linkedMade⟩

theorem count_internal_seq :
    both.internal.count =
      fragment.internal.count + next.internal.count + next.inputs.count := by
  obtain ⟨_, joined, turned, entries, joinedMade, _, turnedMade, linkedMade⟩ := seq_steps made
  rw [count_internal_link linkedMade, internal_relabel turnedMade,
    count_internal_append joinedMade]

theorem inputs_seq : both.inputs = fragment.inputs := by
  obtain ⟨_, joined, turned, entries, _, entriesMade, turnedMade, linkedMade⟩ := seq_steps made
  rw [Size.ext_iff, count_inputs_link linkedMade, inputs_relabel turnedMade,
    Renaming.count_domain_swap entriesMade]
  omega

theorem outputs_seq : both.outputs = next.outputs := by
  obtain ⟨agree, joined, turned, entries, joinedMade, _, turnedMade, linkedMade⟩ := seq_steps made
  rw [Size.ext_iff, count_outputs_link linkedMade, outputs_relabel turnedMade,
    Renaming.codomain_identity, count_outputs_append joinedMade, agree]
  omega

/-- A sequence reads the blocks of its two parts where their append has them, with the entries of
the second before those of the first. -/
theorem get?_seq :
    ∃ (joined : Fragment Inst Cond) (entries : Renaming),
      fragment.append next = .ok joined ∧
        Renaming.swap next.inputs fragment.inputs = .ok entries ∧
          ∀ label : Label, label.Within both.code.entries →
            both.code.get? label =
              joined.code.get? (label.mapVisible joined.internal.count entries.image) := by
  obtain ⟨_, joined, turned, entries, joinedMade, entriesMade, turnedMade, linkedMade⟩ :=
    seq_steps made
  refine ⟨joined, entries, joinedMade, entriesMade, fun label inside => ?_⟩
  rw [code_link linkedMade] at inside ⊢
  exact get?_relabel_entries turnedMade inside

/-- The first part of a sequence makes room for all labels of the second: its entries for the hidden
labels and the entries of the second, and its exits for the hidden labels alone, so that they come
to be the entries of the second. -/
theorem get?_seq_first {label : Label} (inside : label.Within fragment.code.entries) :
    both.code.get?
        (label.makeRoom fragment.internal.count (next.internal.count + next.inputs.count)) =
      (fragment.code.get? label).map
        (·.mapLabels (·.makeRoom fragment.internal.count next.internal.count)) := by
  obtain ⟨joined, entries, joinedMade, entriesMade, blocks⟩ := get?_seq made
  have source : label.index < fragment.internal.count + fragment.inputs.count :=
    fragment.entries_eq ▸ inside
  have placed :
      (label.makeRoom fragment.internal.count
        (next.internal.count + next.inputs.count)).Within both.code.entries := by
    have moved :=
      label.index_makeRoom_le fragment.internal.count (next.internal.count + next.inputs.count)
    rw [Label.Within, both.entries_eq, count_internal_seq made, inputs_seq made]
    omega
  rw [blocks _ placed, ← get?_append_left joinedMade inside]
  refine congrArg joined.code.get? ?_
  by_cases hidden : label.index < fragment.internal.count
  · rw [Label.makeRoom_of_lt hidden, Label.makeRoom_of_lt hidden, Label.mapVisible_of_lt]
    rw [count_internal_append joinedMade]
    omega
  · obtain ⟨entry, rfl⟩ := Label.exists_eq_shift_of_le (Nat.not_lt.mp hidden)
    rw [Label.index_shift] at source
    have entryInside : entry.Within fragment.inputs := Nat.lt_of_add_lt_add_left source
    rw [Label.makeRoom_shift, Label.makeRoom_shift, ← Nat.add_assoc, ← Label.shift_shift,
      ← count_internal_append joinedMade, Label.mapVisible_shift,
      Renaming.image_swap_right entriesMade entryInside]

/-- The second part of a sequence keeps its hidden labels and its entries together, behind the
hidden labels of the first; its exits are those of the sequence. -/
theorem get?_seq_second {label : Label} (inside : label.Within next.code.entries) :
    both.code.get? (label.shift fragment.internal.count) =
      (next.code.get? label).map
        (·.mapLabels fun target =>
          (target.makeRoom next.internal.count next.inputs.count).shift
            fragment.internal.count) := by
  obtain ⟨joined, entries, joinedMade, entriesMade, blocks⟩ := get?_seq made
  obtain ⟨agree, -⟩ := seq_steps made
  have source : label.index < next.internal.count + next.inputs.count :=
    next.entries_eq ▸ inside
  have placed : (label.shift fragment.internal.count).Within both.code.entries := by
    rw [Label.Within, both.entries_eq, count_internal_seq made, Label.index_shift]
    omega
  rw [blocks _ placed, ← agree, ← get?_append_right joinedMade inside]
  refine congrArg joined.code.get? ?_
  by_cases hidden : label.index < next.internal.count
  · rw [Label.makeRoom_of_lt hidden, Label.mapVisible_of_lt]
    rw [count_internal_append joinedMade, Label.index_shift]
    omega
  · obtain ⟨entry, rfl⟩ := Label.exists_eq_shift_of_le (Nat.not_lt.mp hidden)
    rw [Label.index_shift] at source
    have entryInside : entry.Within next.inputs := Nat.lt_of_add_lt_add_left source
    rw [Label.makeRoom_shift, Label.shift_shift, ← count_internal_append joinedMade,
      Label.mapVisible_shift, Renaming.image_swap_left entriesMade entryInside,
      count_internal_append joinedMade, Label.shift_shift, Label.shift_shift, Nat.add_assoc]

end Sequence

/-- Fragments can be put in sequence exactly when they meet in one interface and the code of the two
side by side has sizes. -/
theorem exists_seq_iff {fragment next : Fragment Inst Cond} :
    (∃ both, fragment.seq next = .ok both) ↔
      fragment.outputs = next.inputs ∧
        fragment.internal.count + next.internal.count + fragment.inputs.count +
            next.inputs.count < Size.limit ∧
          fragment.internal.count + next.internal.count + fragment.outputs.count +
            next.outputs.count < Size.limit := by
  constructor
  · rintro ⟨both, made⟩
    obtain ⟨agree, joined, -, -, joinedMade, -⟩ := seq_steps made
    obtain ⟨entriesFit, exitsFit⟩ := joined.counts_fit
    rw [count_internal_append joinedMade, count_inputs_append joinedMade] at entriesFit
    rw [count_internal_append joinedMade, count_outputs_append joinedMade] at exitsFit
    refine ⟨agree, ?_, ?_⟩
    · rwa [Nat.add_assoc]
    · rwa [Nat.add_assoc]
  · rintro ⟨agree, entriesFit, exitsFit⟩
    exact exists_seq fragment next agree entriesFit exitsFit

end Flowgraph.Fragment
