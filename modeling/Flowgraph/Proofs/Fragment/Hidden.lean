import Flowgraph.Proofs.Fragment.Placement
import Flowgraph.Proofs.Renaming.Bijection

/-!
# Other names for hidden labels

The hidden labels of a fragment are its own, so they can be permuted: blocks move to their new labels,
and the branches to them follow. `Fragment.renameHidden` does so for a renaming that has an inverse,
and leaves the interface alone. Fragments that are put together in different ways are often equal up
to such a permutation, and `renameHidden_eq_ok` reduces that to their blocks.
-/

namespace Flowgraph.Fragment

variable {Inst Cond : Type}

/-- Permute the hidden labels of a fragment. The block at a hidden label goes to its image, so entries
are read through the way back; the interface on both sides stays as it is. -/
def renameHidden (fragment : Fragment Inst Cond) (table : Renaming) :
    Except FragmentError (Fragment Inst Cond) := do
  let back ← table.inverse.mapError .label
  let entries ← (back.sum (.identity fragment.inputs)).mapError .label
  let exits ← (table.sum (.identity fragment.outputs)).mapError .label
  let code ← (fragment.code.relabel entries exits).mapError .blockMap
  ofCode fragment.internal fragment.inputs fragment.outputs code

section Renamed

variable {fragment renamed : Fragment Inst Cond} {table back : Renaming}

/-- Hidden labels can be permuted by any renaming of them that can be undone. -/
theorem exists_renameHidden (inverts : Renaming.Inverts back table)
    (fitting : table.domain = fragment.internal) :
    ∃ renamed, fragment.renameHidden table = .ok renamed := by
  have entriesEq := fragment.entries_eq
  have exitsEq := fragment.exits_eq
  have entriesFit := fragment.code.entries.fits
  have exitsFit := fragment.code.exits.fits
  have domain := congrArg Size.count fitting
  have codomain := congrArg Size.count inverts.square
  have backDomain := congrArg Size.count inverts.domain_eq
  have backCodomain := congrArg Size.count inverts.codomain_eq
  obtain ⟨entries, entriesMade, entriesCodomain, entriesDomain⟩ :=
    back.exists_sum_identity fragment.inputs (by omega) (by omega)
  obtain ⟨exits, exitsMade, exitsCodomain, exitsDomain⟩ :=
    table.exists_sum_identity fragment.outputs (by omega) (by omega)
  obtain ⟨code, codeMade⟩ := BlockMap.exists_relabel_iff.mpr
    (show entries.codomain = fragment.code.entries ∧ exits.domain = fragment.code.exits from
      ⟨Size.ext (by omega), Size.ext (by omega)⟩)
  have codeEntries := congrArg Size.count (BlockMap.entries_relabel codeMade)
  have codeExits := congrArg Size.count (BlockMap.exits_relabel codeMade)
  obtain ⟨renamed, made⟩ := exists_ofCode
    (show code.entries.count = fragment.internal.count + fragment.inputs.count by omega)
    (show code.exits.count = fragment.internal.count + fragment.outputs.count by omega)
  refine ⟨renamed, ?_⟩
  simp only [renameHidden, bind_eq_ok_iff, mapError_eq_ok_iff]
  exact ⟨back, inverts.inverse_eq_ok, entries, entriesMade, exits, exitsMade, code, codeMade, made⟩

variable (made : fragment.renameHidden table = .ok renamed)

include made

/-- What a permutation of the hidden labels is made of. -/
theorem renameHidden_steps :
    ∃ back entries exits : Renaming, Renaming.Inverts back table ∧
      back.sum (.identity fragment.inputs) = .ok entries ∧
        table.sum (.identity fragment.outputs) = .ok exits ∧
          fragment.code.relabel entries exits = .ok renamed.code ∧
            renamed.internal = fragment.internal ∧ renamed.inputs = fragment.inputs ∧
              renamed.outputs = fragment.outputs := by
  simp only [renameHidden, bind_eq_ok_iff, mapError_eq_ok_iff, ofCode_eq_ok_iff] at made
  obtain ⟨back, undone, entries, entriesMade, exits, exitsMade, code, codeMade, internal, inputs,
    outputs, rfl⟩ := made
  exact ⟨back, entries, exits, Renaming.inverse_eq_ok_iff.mp undone, entriesMade, exitsMade,
    codeMade, internal, inputs, outputs⟩

theorem internal_renameHidden : renamed.internal = fragment.internal := by
  obtain ⟨_, _, _, _, _, _, _, internal, _, _⟩ := renameHidden_steps made
  exact internal

theorem inputs_renameHidden : renamed.inputs = fragment.inputs := by
  obtain ⟨_, _, _, _, _, _, _, _, inputs, _⟩ := renameHidden_steps made
  exact inputs

theorem outputs_renameHidden : renamed.outputs = fragment.outputs := by
  obtain ⟨_, _, _, _, _, _, _, _, _, outputs⟩ := renameHidden_steps made
  exact outputs

/-- Only a renaming of just the hidden labels permutes them. -/
theorem domain_of_renameHidden : table.domain = fragment.internal := by
  obtain ⟨_, _, _, _, _, exitsMade, codeMade, _⟩ := renameHidden_steps made
  have agree := congrArg Size.count (BlockMap.exists_relabel_iff.mp ⟨_, codeMade⟩).2
  rw [Renaming.count_domain_sum exitsMade, Renaming.domain_identity, fragment.exits_eq] at agree
  exact Size.ext (Nat.add_right_cancel agree)

theorem codomain_of_renameHidden : table.codomain = fragment.internal := by
  obtain ⟨_, _, _, inverts, _⟩ := renameHidden_steps made
  rw [← inverts.square, domain_of_renameHidden made]

/-- The image of a hidden label is hidden. -/
theorem extend_within_of_renameHidden {label : Label} (hidden : label.Within fragment.internal) :
    (table.extend label).Within renamed.internal := by
  rw [← domain_of_renameHidden made] at hidden
  rw [table.extend_of_within hidden, internal_renameHidden made, ← codomain_of_renameHidden made]
  exact table.image_within hidden

/-- The labels of the interface are their own images. -/
theorem extend_shift_of_renameHidden (label : Label) :
    table.extend (label.shift fragment.internal.count) = label.shift renamed.internal.count := by
  rw [internal_renameHidden made, ← domain_of_renameHidden made, table.extend_shift,
    codomain_of_renameHidden made, domain_of_renameHidden made]

/-- No label leaves the code. -/
theorem extend_within_entries_of_renameHidden {label : Label}
    (inside : label.Within fragment.code.entries) :
    (table.extend label).Within renamed.code.entries := by
  have square : table.domain = table.codomain :=
    (domain_of_renameHidden made).trans (codomain_of_renameHidden made).symm
  have domain := congrArg Size.count (domain_of_renameHidden made)
  rw [Label.Within, fragment.entries_eq] at inside
  rw [Label.Within, renamed.entries_eq, internal_renameHidden made, inputs_renameHidden made]
  exact Renaming.extend_lt square (by omega) inside

/-- The block at a label has gone to the image of the label, and its targets have gone along. -/
theorem get?_renameHidden {label : Label} (inside : label.Within fragment.code.entries) :
    renamed.code.get? (table.extend label) =
      (fragment.code.get? label).map (·.mapLabels table.extend) := by
  have placed := extend_within_entries_of_renameHidden made inside
  obtain ⟨back, entries, exits, inverts, entriesMade, exitsMade, codeMade, -⟩ :=
    renameHidden_steps made
  obtain ⟨-, exitsAgree⟩ := BlockMap.exists_relabel_iff.mp ⟨_, codeMade⟩
  rw [BlockMap.entries_relabel codeMade] at placed
  rw [BlockMap.get?_relabel codeMade placed, Renaming.image_sum_identity entriesMade placed,
    inverts.symm.extend_back, fragment.code.get?_eq_some_block inside]
  refine congrArg some (Block.mapLabels_congr fun target member => ?_)
  exact Renaming.image_sum_identity exitsMade
    (exitsAgree ▸ fragment.code.target_within inside member)

section Back

variable (inverts : Renaming.Inverts back table)

include inverts

/-- Each label of the code is the image of one. -/
theorem extend_back_within_of_renameHidden {label : Label}
    (inside : label.Within renamed.code.entries) :
    (back.extend label).Within fragment.code.entries := by
  have wide : back.domain.count ≤ fragment.internal.count + fragment.inputs.count := by
    rw [inverts.domain_eq, codomain_of_renameHidden made]
    exact Nat.le_add_right _ _
  rw [Label.Within, renamed.entries_eq, internal_renameHidden made, inputs_renameHidden made]
    at inside
  rw [Label.Within, fragment.entries_eq]
  exact Renaming.extend_lt inverts.symm.square wide inside

/-- So the block at a label comes from the label that was sent there. -/
theorem get?_of_renameHidden {label : Label} (inside : label.Within renamed.code.entries) :
    renamed.code.get? label =
      (fragment.code.get? (back.extend label)).map (·.mapLabels table.extend) := by
  have block := get?_renameHidden made (extend_back_within_of_renameHidden made inverts inside)
  rwa [inverts.extend_back] at block

end Back

end Renamed

section Equal

variable {fragment renamed : Fragment Inst Cond} {table back : Renaming}

/-- A fragment with the same interface is what a permutation of the hidden labels makes of another, as
soon as it has the blocks of the other at the images of their labels. -/
theorem renameHidden_eq_ok (inverts : Renaming.Inverts back table)
    (fitting : table.domain = fragment.internal)
    (internal : renamed.internal = fragment.internal) (inputs : renamed.inputs = fragment.inputs)
    (outputs : renamed.outputs = fragment.outputs)
    (blocks : ∀ label : Label, label.Within fragment.code.entries →
      renamed.code.get? (table.extend label) =
        (fragment.code.get? label).map (·.mapLabels table.extend)) :
    fragment.renameHidden table = .ok renamed := by
  obtain ⟨other, made⟩ := exists_renameHidden inverts fitting
  have same : other = renamed := by
    apply eq_of_get? ((internal_renameHidden made).trans internal.symm)
      ((inputs_renameHidden made).trans inputs.symm)
      ((outputs_renameHidden made).trans outputs.symm)
    intro label inside
    have block := blocks _ (extend_back_within_of_renameHidden made inverts inside)
    rw [inverts.extend_back] at block
    rw [get?_of_renameHidden made inverts inside, block]
  rw [made, same]

/-- Whoever permutes the labels back has the fragment as it was. -/
theorem renameHidden_symm (made : fragment.renameHidden table = .ok renamed)
    (inverts : Renaming.Inverts back table) : renamed.renameHidden back = .ok fragment := by
  have internal := internal_renameHidden made
  have inputs := inputs_renameHidden made
  have outputs := outputs_renameHidden made
  have fitting : back.domain = renamed.internal := by
    rw [inverts.domain_eq, codomain_of_renameHidden made, internal]
  apply renameHidden_eq_ok inverts.symm fitting internal.symm inputs.symm outputs.symm
  intro label inside
  rw [get?_of_renameHidden made inverts inside]
  cases fragment.code.get? (back.extend label) with
  | none => rfl
  | some block =>
    simp only [Option.map_some, Block.mapLabels_mapLabels, inverts.symm.extend_back,
      Block.mapLabels_id]

end Equal

end Flowgraph.Fragment
