import Flowgraph.Proofs.Fragment.Append

/-!
# Fragments under another interface

`Fragment.relabel` renames the interface and `Fragment.link` hides a part of it. The first reads
entries and writes exits through renamings that leave the hidden labels alone; the second leaves
every block where it is, and so does the long way to link, `link_eq_regroup`.
-/

namespace Flowgraph.Fragment

variable {Inst Cond : Type}

/-- An interface can be renamed as soon as the renamings fit it and both sides of the code have a
size. -/
theorem exists_relabel (fragment : Fragment Inst Cond) (f g : Renaming)
    (inputsAgree : f.codomain = fragment.inputs) (outputsAgree : g.domain = fragment.outputs)
    (entriesFit : fragment.internal.count + f.domain.count < Size.limit)
    (exitsFit : fragment.internal.count + g.codomain.count < Size.limit) :
    ∃ renamed, fragment.relabel f g = .ok renamed := by
  have sourceEntries := fragment.entries_eq
  have sourceExits := fragment.exits_eq
  have sourceEntriesFit := fragment.code.entries.fits
  have sourceExitsFit := fragment.code.exits.fits
  have inputsCount := congrArg Size.count inputsAgree
  have outputsCount := congrArg Size.count outputsAgree
  obtain ⟨entries, entriesMade, entriesCodomain, entriesDomain⟩ :=
    Renaming.exists_identity_sum fragment.internal f (by omega) entriesFit
  obtain ⟨exits, exitsMade, exitsCodomain, exitsDomain⟩ :=
    Renaming.exists_identity_sum fragment.internal g exitsFit (by omega)
  obtain ⟨code, codeMade⟩ := BlockMap.exists_relabel_iff.mpr
    (show entries.codomain = fragment.code.entries ∧ exits.domain = fragment.code.exits from
      ⟨Size.ext (by omega), Size.ext (by omega)⟩)
  obtain ⟨renamed, made⟩ := exists_ofCode
    ((congrArg Size.count (BlockMap.entries_relabel codeMade)).trans entriesDomain)
    ((congrArg Size.count (BlockMap.exits_relabel codeMade)).trans exitsCodomain)
  refine ⟨renamed, ?_⟩
  rw [relabel, if_neg (Classical.not_not.mpr inputsAgree),
    if_neg (Classical.not_not.mpr outputsAgree)]
  simp only [bind_eq_ok_iff, mapError_eq_ok_iff]
  exact ⟨entries, entriesMade, exits, exitsMade, code, codeMade, made⟩

section Relabel

variable {fragment renamed : Fragment Inst Cond} {f g : Renaming}
  (made : fragment.relabel f g = .ok renamed)

include made

/-- What a renaming of the interface is made of. -/
theorem relabel_steps :
    f.codomain = fragment.inputs ∧ g.domain = fragment.outputs ∧
      ∃ entries exits : Renaming,
        (Renaming.identity fragment.internal).sum f = .ok entries ∧
          (Renaming.identity fragment.internal).sum g = .ok exits ∧
            fragment.code.relabel entries exits = .ok renamed.code ∧
              renamed.internal = fragment.internal ∧ renamed.inputs = f.domain ∧
                renamed.outputs = g.codomain := by
  unfold relabel at made
  split at made
  · cases made
  · rename_i inputsAgree
    split at made
    · cases made
    · rename_i outputsAgree
      simp only [bind_eq_ok_iff, mapError_eq_ok_iff, ofCode_eq_ok_iff] at made
      obtain ⟨entries, entriesMade, exits, exitsMade, code, codeMade, internal, inputs, outputs,
        rfl⟩ := made
      exact ⟨Classical.not_not.mp inputsAgree, Classical.not_not.mp outputsAgree, entries, exits,
        entriesMade, exitsMade, codeMade, internal, inputs, outputs⟩

theorem internal_relabel : renamed.internal = fragment.internal := by
  obtain ⟨_, _, _, _, _, _, _, internal, _, _⟩ := relabel_steps made
  exact internal

theorem inputs_relabel : renamed.inputs = f.domain := by
  obtain ⟨_, _, _, _, _, _, _, _, inputs, _⟩ := relabel_steps made
  exact inputs

theorem outputs_relabel : renamed.outputs = g.codomain := by
  obtain ⟨_, _, _, _, _, _, _, _, _, outputs⟩ := relabel_steps made
  exact outputs

/-- Renaming the interface reads entries through `f` and writes exits through `g`, behind the hidden
labels on both sides. -/
theorem get?_relabel {label : Label} (inside : label.Within renamed.code.entries) :
    renamed.code.get? label =
      (fragment.code.get? (label.mapVisible fragment.internal.count f.image)).map
        (·.mapLabels (·.mapVisible fragment.internal.count g.image)) := by
  obtain ⟨inputsAgree, outputsAgree, entries, exits, entriesMade, exitsMade, codeMade, -⟩ :=
    relabel_steps made
  have placed : label.Within entries.domain := BlockMap.entries_relabel codeMade ▸ inside
  rw [BlockMap.get?_relabel codeMade placed, Renaming.image_identity_sum entriesMade placed]
  cases found : fragment.code.get? (label.mapVisible fragment.internal.count f.image) with
  | none => rfl
  | some block =>
    refine congrArg some (Block.mapLabels_congr fun target member =>
      Renaming.image_identity_sum exitsMade ?_)
    obtain ⟨_, exitsAgree⟩ := BlockMap.exists_relabel_iff.mp ⟨_, codeMade⟩
    obtain ⟨source, rfl⟩ := Array.getElem?_eq_some_iff.mp found
    exact exitsAgree ▸ fragment.code.targets_within _ (Array.getElem_mem source) target member

end Relabel

section OneSide

variable {fragment renamed : Fragment Inst Cond} {label : Label} {size : Size}

/-- Where only the entries are renamed, they are read elsewhere, and all blocks are as they were. -/
theorem get?_relabel_entries {f : Renaming}
    (made : fragment.relabel f (.identity size) = .ok renamed)
    (inside : label.Within renamed.code.entries) :
    renamed.code.get? label =
      fragment.code.get? (label.mapVisible fragment.internal.count f.image) := by
  have exitsStay (target : Label) :
      target.mapVisible fragment.internal.count (Renaming.identity size).image = target :=
    Label.mapVisible_id (Renaming.image_identity size) target
  rw [get?_relabel made inside]
  simp [exitsStay]

/-- Where only the exits are renamed, the blocks stay in their places. -/
theorem get?_relabel_exits {g : Renaming}
    (made : fragment.relabel (.identity size) g = .ok renamed)
    (inside : label.Within renamed.code.entries) :
    renamed.code.get? label =
      (fragment.code.get? label).map
        (·.mapLabels (·.mapVisible fragment.internal.count g.image)) := by
  rw [get?_relabel made inside, Label.mapVisible_id (Renaming.image_identity size)]

end OneSide

section Link

variable {fragment linked : Fragment Inst Cond} {width : Size}

/-- Labels can be linked exactly when both sides of the interface have that many, and the code
stays. -/
theorem link_eq_ok_iff :
    fragment.link width = .ok linked ↔
      width.count ≤ fragment.inputs.count ∧ width.count ≤ fragment.outputs.count ∧
        linked.internal.count = fragment.internal.count + width.count ∧
          linked.code = fragment.code := by
  unfold link
  split
  · rename_i fitting
    simp only [Except.ok.injEq, fitting, true_and]
    constructor
    · rintro rfl
      exact ⟨rfl, rfl⟩
    · rintro ⟨internal, code⟩
      have entries := linked.entries_eq
      have exits := linked.exits_eq
      have fragmentEntries := fragment.entries_eq
      have fragmentExits := fragment.exits_eq
      rw [code] at entries exits
      refine Fragment.ext (Size.ext ?_) (Size.ext ?_) (Size.ext ?_) code.symm <;>
        simp only [Size.count_diff] <;> omega
  · rename_i wide
    simp only [reduceCtorEq, false_iff]
    rintro ⟨inputs, outputs, -⟩
    exact wide ⟨inputs, outputs⟩

/-- A link that is not too wide comes out. -/
theorem exists_link (fragment : Fragment Inst Cond) (width : Size)
    (inputsWide : width.count ≤ fragment.inputs.count)
    (outputsWide : width.count ≤ fragment.outputs.count) :
    ∃ linked, fragment.link width = .ok linked := by
  rw [link, dif_pos ⟨inputsWide, outputsWide⟩]
  exact ⟨_, rfl⟩

/-- Linking could as well regroup both sides of the code, reindex it by that, and compare the sizes
again: the code comes out as it went in. -/
theorem link_eq_regroup (inputsWide : width.count ≤ fragment.inputs.count)
    (outputsWide : width.count ≤ fragment.outputs.count) :
    fragment.link width = (do
      let entries ← (Renaming.regroupRight fragment.internal width
        (fragment.inputs.diff width)).mapError .label
      let exits ← (Renaming.regroupLeft fragment.internal width
        (fragment.outputs.diff width)).mapError .label
      let code ← (fragment.code.relabel entries exits).mapError .blockMap
      let internal ← (fragment.internal.sum width).mapError .label
      ofCode internal (fragment.inputs.diff width) (fragment.outputs.diff width) code) := by
  obtain ⟨linked, made⟩ := fragment.exists_link width inputsWide outputsWide
  obtain ⟨_, _, internal, code⟩ := link_eq_ok_iff.mp made
  have entriesEq := fragment.entries_eq
  have exitsEq := fragment.exits_eq
  have linkedEntries := linked.entries_eq
  have linkedExits := linked.exits_eq
  rw [code] at linkedEntries linkedExits
  rw [made]
  symm
  simp only [bind_eq_ok_iff, mapError_eq_ok_iff, ofCode_eq_ok_iff, Renaming.regroupRight_eq_ok_iff,
    Renaming.regroupLeft_eq_ok_iff, Size.sum_eq_ok_iff]
  refine ⟨_, ⟨fragment.code.entries, ?_, rfl⟩, _, ⟨fragment.code.exits, ?_, rfl⟩, fragment.code,
    fragment.code.relabel_identity, linked.internal, internal, rfl, Size.ext ?_, Size.ext ?_,
    code⟩
  all_goals
    simp only [Size.count_diff]
    omega

variable (made : fragment.link width = .ok linked)

include made

theorem code_link : linked.code = fragment.code := (link_eq_ok_iff.mp made).2.2.2

/-- Linking leaves every block at its place, with the targets that it has. -/
theorem get?_link (label : Label) :
    linked.code.get? label = (fragment.code.get? label).map (·.mapLabels fun target => target) := by
  rw [code_link made]
  cases fragment.code.get? label <;> simp

theorem count_internal_link :
    linked.internal.count = fragment.internal.count + width.count :=
  (link_eq_ok_iff.mp made).2.2.1

theorem count_inputs_link : linked.inputs.count = fragment.inputs.count - width.count := by
  have entries := linked.entries_eq
  have fragmentEntries := fragment.entries_eq
  rw [code_link made, count_internal_link made] at entries
  omega

theorem count_outputs_link : linked.outputs.count = fragment.outputs.count - width.count := by
  have exits := linked.exits_eq
  have fragmentExits := fragment.exits_eq
  rw [code_link made, count_internal_link made] at exits
  omega

end Link

end Flowgraph.Fragment
