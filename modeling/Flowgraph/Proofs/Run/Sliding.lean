import Flowgraph.Countdown.Program
import Flowgraph.Proofs.Fragment.Interface
import Flowgraph.Proofs.Run.Embedding

/-!
# Renamings slide along loops

A renaming between the exits of a fragment and its entries can be made part of a loop in two ways. It
can be put before the entries, so that the exits are linked as they are, or behind the exits, so that
the entries are. The two loops hide different labels, and not even equally many: a renaming can send two
exits to one entry, and it can miss an entry.

Still they run alike. The labels of the first loop are sent to those of the second by the renaming, and
with them its blocks, so that the first lies in the second in the sense of `Embeds`, which asks for no
way back.
-/

namespace Flowgraph

namespace Fragment

variable {Inst Cond State Fault : Type}

/-- A loop with a renaming before the entries: control that leaves through one of the first exits goes
on at the entry that is its image. The loop keeps `inputs` entries and `outputs` exits. -/
def slideEntries (fragment : Fragment Inst Cond) (table : Renaming) (inputs outputs : Size) :
    Except FragmentError (Fragment Inst Cond) := do
  let entries ← (table.sum (.identity inputs)).mapError .label
  let exits ← (table.domain.sum outputs).mapError .label
  let renamed ← fragment.relabel entries (.identity exits)
  renamed.link table.domain

/-- The same loop with the renaming behind the exits. -/
def slideExits (fragment : Fragment Inst Cond) (table : Renaming) (inputs outputs : Size) :
    Except FragmentError (Fragment Inst Cond) := do
  let entries ← (table.codomain.sum inputs).mapError .label
  let exits ← (table.sum (.identity outputs)).mapError .label
  let renamed ← fragment.relabel (.identity entries) exits
  renamed.link table.codomain

variable {fragment left right : Fragment Inst Cond} {table : Renaming} {inputs outputs : Size}

section Existence

variable (inputsAgree : fragment.inputs.count = table.codomain.count + inputs.count)
  (outputsAgree : fragment.outputs.count = table.domain.count + outputs.count)

include inputsAgree outputsAgree

/-- A renaming from the first exits of a fragment to its first entries can be put before the entries, as
soon as the new entries have a size. -/
theorem exists_slideEntries
    (fits : fragment.internal.count + (table.domain.count + inputs.count) < Size.limit) :
    ∃ left, fragment.slideEntries table inputs outputs = .ok left := by
  have inputsFit := fragment.inputs.fits
  have outputsFit := fragment.outputs.fits
  have exitsEq := fragment.exits_eq
  have codeExitsFit := fragment.code.exits.fits
  obtain ⟨entries, entriesMade, codomain, domain⟩ :=
    table.exists_sum_identity inputs (by omega) (by omega)
  obtain ⟨renamed, renamedMade⟩ := exists_relabel fragment entries (.identity fragment.outputs)
    (Size.ext (by omega)) (Renaming.domain_identity _) (by omega)
    (by rw [Renaming.codomain_identity]; omega)
  have renamedInputs := congrArg Size.count (inputs_relabel renamedMade)
  have renamedOutputs := congrArg Size.count (outputs_relabel renamedMade)
  rw [Renaming.codomain_identity] at renamedOutputs
  obtain ⟨left, linkedMade⟩ := exists_link renamed table.domain (by omega) (by omega)
  refine ⟨left, ?_⟩
  simp only [slideEntries, bind_eq_ok_iff, mapError_eq_ok_iff, Size.sum_eq_ok_iff]
  exact ⟨entries, entriesMade, fragment.outputs, outputsAgree, renamed, renamedMade, linkedMade⟩

/-- It can be put behind the exits as soon as the new exits have a size. -/
theorem exists_slideExits
    (fits : fragment.internal.count + (table.codomain.count + outputs.count) < Size.limit) :
    ∃ right, fragment.slideExits table inputs outputs = .ok right := by
  have inputsFit := fragment.inputs.fits
  have outputsFit := fragment.outputs.fits
  have entriesEq := fragment.entries_eq
  have codeEntriesFit := fragment.code.entries.fits
  obtain ⟨exits, exitsMade, codomain, domain⟩ :=
    table.exists_sum_identity outputs (by omega) (by omega)
  obtain ⟨renamed, renamedMade⟩ := exists_relabel fragment (.identity fragment.inputs) exits
    (Renaming.codomain_identity _) (Size.ext (by omega)) (by rw [Renaming.domain_identity]; omega)
    (by omega)
  have renamedInputs := congrArg Size.count (inputs_relabel renamedMade)
  have renamedOutputs := congrArg Size.count (outputs_relabel renamedMade)
  rw [Renaming.domain_identity] at renamedInputs
  obtain ⟨right, linkedMade⟩ := exists_link renamed table.codomain (by omega) (by omega)
  refine ⟨right, ?_⟩
  simp only [slideExits, bind_eq_ok_iff, mapError_eq_ok_iff, Size.sum_eq_ok_iff]
  exact ⟨fragment.inputs, inputsAgree, exits, exitsMade, renamed, renamedMade, linkedMade⟩

end Existence

section Entries

variable (made : fragment.slideEntries table inputs outputs = .ok left)

include made

/-- What a loop with a renaming before its entries is made of. -/
theorem slideEntries_steps :
    ∃ (entries : Renaming) (exits : Size) (renamed : Fragment Inst Cond),
      table.sum (.identity inputs) = .ok entries ∧
        fragment.relabel entries (.identity exits) = .ok renamed ∧
          renamed.link table.domain = .ok left := by
  simp only [slideEntries, bind_eq_ok_iff, mapError_eq_ok_iff] at made
  obtain ⟨entries, entriesMade, exits, -, renamed, renamedMade, linkedMade⟩ := made
  exact ⟨entries, exits, renamed, entriesMade, renamedMade, linkedMade⟩

theorem count_internal_slideEntries :
    left.internal.count = fragment.internal.count + table.domain.count := by
  obtain ⟨_, _, _, _, renamedMade, linkedMade⟩ := slideEntries_steps made
  rw [count_internal_link linkedMade, internal_relabel renamedMade]

theorem inputs_slideEntries : left.inputs = inputs := by
  obtain ⟨_, _, _, entriesMade, renamedMade, linkedMade⟩ := slideEntries_steps made
  rw [Size.ext_iff, count_inputs_link linkedMade, inputs_relabel renamedMade,
    Renaming.count_domain_sum entriesMade, Renaming.domain_identity]
  omega

/-- Such a loop reads its blocks at the images of their labels. -/
theorem get?_slideEntries {label : Label} (inside : label.Within left.code.entries) :
    left.code.get? label =
      fragment.code.get? (label.mapVisible fragment.internal.count table.extend) := by
  obtain ⟨entries, exits, renamed, entriesMade, renamedMade, linkedMade⟩ := slideEntries_steps made
  rw [code_link linkedMade] at inside ⊢
  rw [get?_relabel_entries renamedMade inside]
  refine congrArg fragment.code.get? (Label.mapVisible_congr ?_)
  rintro visible rfl
  rw [Label.Within, renamed.entries_eq, internal_relabel renamedMade, inputs_relabel renamedMade,
    Label.index_shift] at inside
  exact Renaming.image_sum_identity entriesMade (Nat.lt_of_add_lt_add_left inside)

end Entries

section Exits

variable (made : fragment.slideExits table inputs outputs = .ok right)

include made

/-- What a loop with a renaming behind its exits is made of. -/
theorem slideExits_steps :
    ∃ (entries : Size) (exits : Renaming) (renamed : Fragment Inst Cond),
      entries.count = table.codomain.count + inputs.count ∧
        table.sum (.identity outputs) = .ok exits ∧
          fragment.relabel (.identity entries) exits = .ok renamed ∧
            renamed.link table.codomain = .ok right := by
  simp only [slideExits, bind_eq_ok_iff, mapError_eq_ok_iff, Size.sum_eq_ok_iff] at made
  obtain ⟨entries, entriesCount, exits, exitsMade, renamed, renamedMade, linkedMade⟩ := made
  exact ⟨entries, exits, renamed, entriesCount, exitsMade, renamedMade, linkedMade⟩

theorem count_internal_slideExits :
    right.internal.count = fragment.internal.count + table.codomain.count := by
  obtain ⟨_, _, _, _, _, renamedMade, linkedMade⟩ := slideExits_steps made
  rw [count_internal_link linkedMade, internal_relabel renamedMade]

theorem inputs_slideExits : right.inputs = inputs := by
  obtain ⟨_, _, _, entriesCount, _, renamedMade, linkedMade⟩ := slideExits_steps made
  rw [Size.ext_iff, count_inputs_link linkedMade, inputs_relabel renamedMade,
    Renaming.domain_identity, entriesCount]
  omega

/-- Such a loop writes the targets of its blocks through the renaming. -/
theorem get?_slideExits {label : Label} (inside : label.Within right.code.entries) :
    right.code.get? label = (fragment.code.get? label).map
      (·.mapLabels (·.mapVisible fragment.internal.count table.extend)) := by
  obtain ⟨entries, exits, renamed, _, exitsMade, renamedMade, linkedMade⟩ := slideExits_steps made
  obtain ⟨-, outputsAgree, -⟩ := relabel_steps renamedMade
  rw [code_link linkedMade] at inside ⊢
  rw [get?_relabel_exits renamedMade inside]
  by_cases source : label.Within fragment.code.entries
  · rw [fragment.code.get?_eq_some_block source]
    refine congrArg some (Block.mapLabels_congr fun target member => Label.mapVisible_congr ?_)
    rintro visible rfl
    have bound := fragment.code.target_within source member
    rw [Label.Within, fragment.exits_eq, ← outputsAgree, Label.index_shift] at bound
    exact Renaming.image_sum_identity exitsMade (Nat.lt_of_add_lt_add_left bound)
  · rw [fragment.code.get?_eq_none source]
    rfl

end Exits

section Slide

variable (leftMade : fragment.slideEntries table inputs outputs = .ok left)
  (rightMade : fragment.slideExits table inputs outputs = .ok right)

include leftMade rightMade

/-- What the first loop has at a label, the second has at its image, with the targets sent along. -/
theorem get?_slide {label : Label} (inside : label.Within left.code.entries)
    (placed : (label.mapVisible fragment.internal.count table.extend).Within right.code.entries) :
    right.code.get? (label.mapVisible fragment.internal.count table.extend) =
      (left.code.get? label).map
        (·.mapLabels (·.mapVisible fragment.internal.count table.extend)) := by
  rw [get?_slideExits rightMade placed, get?_slideEntries leftMade inside]

/-- What the first loop hides is sent to what the second one hides. -/
theorem mapVisible_extend_within {label : Label} (hidden : label.Within left.internal) :
    (label.mapVisible fragment.internal.count table.extend).Within right.internal := by
  rw [Label.Within, count_internal_slideEntries leftMade] at hidden
  rw [Label.Within, count_internal_slideExits rightMade]
  exact Renaming.mapVisible_extend_lt hidden

/-- The first loop lies in the second. -/
theorem embeds_slide :
    Embeds left right (·.mapVisible fragment.internal.count table.extend)
      (·.mapVisible fragment.internal.count table.extend) where
  target_eq_place _ _ := rfl
  place_hidden _ hidden := mapVisible_extend_within leftMade rightMade hidden
  block_hidden _ hidden :=
    get?_slide leftMade rightMade (left.within_entries_of_hidden hidden)
      (right.within_entries_of_hidden (mapVisible_extend_within leftMade rightMade hidden))

/-- Labels behind the exits that are linked are moved along with them. -/
theorem mapVisible_extend_shift (label : Label) :
    (label.shift left.internal.count).mapVisible fragment.internal.count table.extend =
      label.shift right.internal.count := by
  rw [count_internal_slideEntries leftMade, count_internal_slideExits rightMade,
    table.mapVisible_extend_shift]

/-- Renamings slide along loops: whether a renaming is put before the entries or behind the exits that
are linked, the loop runs alike from every entry. It ends in the same way, with the machine in the same
state, and has visited the same labels, up to the renaming of those that are linked. -/
theorem run_slide (machine : Machine Inst Cond State Fault) (entry : Label) (fuel : Nat)
    (state : State) :
    right.run machine entry fuel state =
      (left.run machine entry fuel state).relocate
        (·.mapVisible fragment.internal.count table.extend) id := by
  have leftInputs := inputs_slideEntries leftMade
  have rightInputs := inputs_slideExits rightMade
  by_cases inside : entry.Within inputs
  · have leftInside : entry.Within left.inputs := leftInputs ▸ inside
    have rightInside : entry.Within right.inputs := rightInputs ▸ inside
    have places := mapVisible_extend_shift leftMade rightMade entry
    have block := get?_slide leftMade rightMade (left.shift_within_entries leftInside)
      (places ▸ right.shift_within_entries rightInside)
    rw [places] at block
    exact (embeds_slide leftMade rightMade).run_eq_relocate machine
      (mapVisible_extend_shift leftMade rightMade) leftInside rightInside places.symm block fuel state
  · rw [run_of_not_within left machine (leftInputs ▸ inside),
      run_of_not_within right machine (rightInputs ▸ inside), leftInputs, rightInputs]
    simp [Run.relocate, Except.map]

end Slide

end Fragment

namespace Countdown

/-- A countdown that is yet to be made a loop, with two exits that go on: counting leaves through the
first of them, and coming in through the second entry leaves through the second. -/
def stages : Fragment Inst Cond where
  internal := .zero
  inputs := 2
  outputs := 3
  code := {
    exits := 3
    blocks := #[⟨[.say "tick", .dec], .conditional () ⟨0⟩ ⟨2⟩⟩, ⟨[], .jump ⟨1⟩⟩]
    entries_fit := by decide
    targets_within := by decide }
  entries_eq := by decide
  exits_eq := by decide

/-- Both exits that go on lead to the entry that counts. -/
def merged : Renaming where
  codomain := .one
  images := #[⟨0⟩, ⟨0⟩]
  domain_fits := by decide
  images_within := by decide

/-- The countdown runs alike whether it hides both exits or only the entry that they lead to. -/
theorem run_slide_stages :
    ∃ left right, stages.slideEntries merged .one .one = .ok left ∧
      stages.slideExits merged .one .one = .ok right ∧
        right.run machine ⟨0⟩ 9 ⟨2, #[]⟩ =
          (left.run machine ⟨0⟩ 9 ⟨2, #[]⟩).relocate (·.mapVisible 0 merged.extend) id := by
  have inputsAgree : stages.inputs.count = merged.codomain.count + Size.one.count := rfl
  have outputsAgree : stages.outputs.count = merged.domain.count + Size.one.count := rfl
  obtain ⟨left, leftMade⟩ := Fragment.exists_slideEntries inputsAgree outputsAgree (by decide)
  obtain ⟨right, rightMade⟩ := Fragment.exists_slideExits inputsAgree outputsAgree (by decide)
  exact ⟨left, right, leftMade, rightMade,
    Fragment.run_slide leftMade rightMade machine ⟨0⟩ 9 ⟨2, #[]⟩⟩

end Countdown

end Flowgraph
