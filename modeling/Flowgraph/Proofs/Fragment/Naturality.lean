import Flowgraph.Proofs.Run.Feedback
import Flowgraph.Proofs.Run.Sequence

/-!
# Renaming side by side

Two interfaces can be renamed before their fragments are placed side by side, or after, by the sum of the
renamings. The interchanges of the two ways have different sizes, because the renamings change those of
the interfaces; but neither moves a hidden label, and behind the hidden labels a sum does to each side
what its part does. `Drawn.square` compares the two ways at the blocks of one operand. It goes against
the direction of the renamings, since entries are read through them: renamings may send labels to one
place and miss others, so that only the blocks of the renamed fragment have counterparts throughout.
-/

namespace Flowgraph

namespace Fragment

variable {Inst Cond : Type}

/-- Each block of `renamed` is a block of `fragment`: `source` says which one, and `target` what its
branch targets have become. -/
structure Drawn (fragment renamed : Fragment Inst Cond) (source target : Label → Label) : Prop where
  within : ∀ label : Label, label.Within renamed.code.entries →
    (source label).Within fragment.code.entries
  block : ∀ label : Label, label.Within renamed.code.entries →
    renamed.code.get? label = (fragment.code.get? (source label)).map (·.mapLabels target)

/-- Under another interface, a fragment has no other blocks than before. -/
theorem drawn_relabel {fragment renamed : Fragment Inst Cond} {f g : Renaming}
    (made : fragment.relabel f g = .ok renamed) :
    Drawn fragment renamed (·.mapVisible fragment.internal.count f.image)
      (·.mapVisible fragment.internal.count g.image) where
  within label inside := by
    have found := get?_relabel made inside
    rw [renamed.code.get?_eq_some_block inside] at found
    obtain ⟨block, source, -⟩ := Option.map_eq_some_iff.mp found.symm
    exact BlockMap.within_of_get? source
  block label inside := get?_relabel made inside

/-- A part can be renamed and then placed, or placed and then renamed with all that is around it. Where
both ways come to the same places and targets, they come to the same blocks. -/
theorem Drawn.square {part renamed both early late : Fragment Inst Cond}
    {place target partPlace partTarget source rename outerSource outerRename : Label → Label}
    (drawn : Drawn part renamed source rename) (placed : Placed renamed early place target)
    (partPlaced : Placed part both partPlace partTarget)
    (outerDrawn : Drawn both late outerSource outerRename)
    (entries : late.code.entries = early.code.entries)
    (sources : ∀ label : Label, label.Within renamed.code.entries →
      outerSource (place label) = partPlace (source label))
    (targets : ∀ label : Label, label.Within part.code.exits →
      outerRename (partTarget label) = target (rename label))
    {label : Label} (inside : label.Within renamed.code.entries) :
    early.code.get? (place label) = late.code.get? (place label) := by
  have lateInside : (place label).Within late.code.entries := entries ▸ placed.within inside
  have sourceInside := drawn.within label inside
  rw [placed.block label inside, drawn.block label inside, outerDrawn.block _ lateInside,
    sources label inside, partPlaced.block _ sourceInside, part.code.get?_eq_some_block sourceInside]
  simp only [Option.map_some, Block.mapLabels_mapLabels]
  refine congrArg some (Block.mapLabels_congr fun label member => ?_)
  exact (targets label (part.code.target_within sourceInside member)).symm

section Made

variable {left right leftRenamed rightRenamed both early late : Fragment Inst Cond}
  {f₁ g₁ f₂ g₂ f g : Renaming} (leftMade : left.relabel f₁ g₁ = .ok leftRenamed)
  (rightMade : right.relabel f₂ g₂ = .ok rightRenamed)
  (earlyMade : leftRenamed.append rightRenamed = .ok early) (bothMade : left.append right = .ok both)
  (entriesMade : f₁.sum f₂ = .ok f) (exitsMade : g₁.sum g₂ = .ok g)
  (lateMade : both.relabel f g = .ok late)

include leftMade rightMade earlyMade bothMade entriesMade exitsMade lateMade

/-- Renamed early or late, the hidden labels are those of both operands, and the interface is that of the
renamings. -/
theorem relabel_append_interface :
    early.internal = late.internal ∧ early.inputs = late.inputs ∧ early.outputs = late.outputs := by
  obtain ⟨earlyInternal, earlyInputs, earlyOutputs⟩ := counts_append earlyMade
  have bothInternal := count_internal_append bothMade
  have inputs := Renaming.count_domain_sum entriesMade
  have outputs := Renaming.count_codomain_sum exitsMade
  rw [internal_relabel leftMade, internal_relabel rightMade] at earlyInternal
  rw [inputs_relabel leftMade, inputs_relabel rightMade] at earlyInputs
  rw [outputs_relabel leftMade, outputs_relabel rightMade] at earlyOutputs
  refine ⟨Size.ext ?_, Size.ext ?_, Size.ext ?_⟩
  · rw [earlyInternal, internal_relabel lateMade, bothInternal]
  · rw [earlyInputs, inputs_relabel lateMade, inputs]
  · rw [earlyOutputs, outputs_relabel lateMade, outputs]

/-- Renaming two interfaces and placing the fragments side by side is the same as placing them side by
side and renaming by the sums. -/
theorem relabel_append_eq : early = late := by
  obtain ⟨internal, inputs, outputs⟩ := relabel_append_interface leftMade rightMade earlyMade bothMade
    entriesMade exitsMade lateMade
  have entries : late.code.entries = early.code.entries := by
    refine Size.ext ?_
    rw [early.entries_eq, late.entries_eq, internal, inputs]
  have bothInternal := count_internal_append bothMade
  have leftInternal := internal_relabel leftMade
  have rightInternal := internal_relabel rightMade
  obtain ⟨leftInputs, leftOutputs, -⟩ := relabel_steps leftMade
  obtain ⟨-, rightOutputs, -⟩ := relabel_steps rightMade
  refine eq_of_get? internal inputs outputs fun label inside => ?_
  rcases append_cases earlyMade inside with ⟨part, partInside, rfl⟩ | ⟨part, partInside, rfl⟩
  · refine (drawn_relabel leftMade).square (placed_append_left earlyMade) (placed_append_left bothMade)
      (drawn_relabel lateMade) entries ?_ ?_ partInside
    · intro label inside
      rw [Label.Within, leftRenamed.entries_eq, leftInternal, inputs_relabel leftMade] at inside
      rw [bothInternal, leftInternal, rightInternal]
      exact Renaming.mapVisible_sum_left entriesMade inside
    · intro target inside
      rw [Label.Within, left.exits_eq, ← leftOutputs] at inside
      rw [bothInternal, leftInternal, rightInternal]
      exact Renaming.mapVisible_sum_left exitsMade inside
  · refine (drawn_relabel rightMade).square (placed_append_right earlyMade)
      (placed_append_right bothMade) (drawn_relabel lateMade) entries ?_ ?_ partInside
    · intro label inside
      rw [Label.Within, rightRenamed.entries_eq, rightInternal, inputs_relabel rightMade] at inside
      rw [bothInternal, leftInternal, rightInternal, inputs_relabel leftMade, ← leftInputs]
      exact Renaming.mapVisible_sum_right entriesMade inside
    · intro target inside
      rw [Label.Within, right.exits_eq, ← rightOutputs] at inside
      rw [bothInternal, leftInternal, rightInternal, outputs_relabel leftMade, ← leftOutputs]
      exact Renaming.mapVisible_sum_right exitsMade inside

end Made

/-- Rename the interfaces of two fragments, and place them side by side. -/
def relabelAppend (left right : Fragment Inst Cond) (f₁ g₁ f₂ g₂ : Renaming) :
    Except FragmentError (Fragment Inst Cond) := do
  let leftRenamed ← left.relabel f₁ g₁
  let rightRenamed ← right.relabel f₂ g₂
  leftRenamed.append rightRenamed

/-- Place two fragments side by side, and rename their common interface by the sums. -/
def appendRelabel (left right : Fragment Inst Cond) (f₁ g₁ f₂ g₂ : Renaming) :
    Except FragmentError (Fragment Inst Cond) := do
  let both ← left.append right
  let f ← (f₁.sum f₂).mapError .label
  let g ← (g₁.sum g₂).mapError .label
  both.relabel f g

/-- Both sides of the code have a size when two fragments are side by side under other interfaces. -/
structure FitRenamed (left right : Fragment Inst Cond) (f₁ g₁ f₂ g₂ : Renaming) : Prop where
  entries : left.internal.count + right.internal.count + f₁.domain.count + f₂.domain.count <
    Size.limit
  exits : left.internal.count + right.internal.count + g₁.codomain.count + g₂.codomain.count <
    Size.limit

section Sizes

variable {left right : Fragment Inst Cond} {f₁ g₁ f₂ g₂ : Renaming}
  (leftInputs : f₁.codomain = left.inputs) (leftOutputs : g₁.domain = left.outputs)
  (rightInputs : f₂.codomain = right.inputs) (rightOutputs : g₂.domain = right.outputs)

include leftInputs leftOutputs rightInputs rightOutputs

/-- Fragments that are renamed first can then be placed side by side exactly when they fit. -/
theorem exists_relabelAppend_iff :
    (∃ result, left.relabelAppend right f₁ g₁ f₂ g₂ = .ok result) ↔
      FitRenamed left right f₁ g₁ f₂ g₂ := by
  simp only [relabelAppend, bind_eq_ok_iff]
  constructor
  · rintro ⟨result, leftRenamed, leftMade, rightRenamed, rightMade, made⟩
    obtain ⟨internal, inputs, outputs⟩ := counts_append made
    rw [internal_relabel leftMade, internal_relabel rightMade] at internal
    rw [inputs_relabel leftMade, inputs_relabel rightMade] at inputs
    rw [outputs_relabel leftMade, outputs_relabel rightMade] at outputs
    obtain ⟨entriesFit, exitsFit⟩ := result.counts_fit
    exact ⟨by omega, by omega⟩
  · rintro ⟨entriesFit, exitsFit⟩
    obtain ⟨leftRenamed, leftMade⟩ :=
      exists_relabel left f₁ g₁ leftInputs leftOutputs (by omega) (by omega)
    obtain ⟨rightRenamed, rightMade⟩ :=
      exists_relabel right f₂ g₂ rightInputs rightOutputs (by omega) (by omega)
    rw [← internal_relabel leftMade, ← internal_relabel rightMade, ← inputs_relabel leftMade,
      ← inputs_relabel rightMade] at entriesFit
    rw [← internal_relabel leftMade, ← internal_relabel rightMade, ← outputs_relabel leftMade,
      ← outputs_relabel rightMade] at exitsFit
    obtain ⟨result, made⟩ := exists_append leftRenamed rightRenamed entriesFit exitsFit
    exact ⟨result, leftRenamed, leftMade, rightRenamed, rightMade, made⟩

/-- Fragments that are side by side can be renamed by the sums under the same condition. -/
theorem exists_appendRelabel_iff :
    (∃ result, left.appendRelabel right f₁ g₁ f₂ g₂ = .ok result) ↔
      (∃ both, left.append right = .ok both) ∧ FitRenamed left right f₁ g₁ f₂ g₂ := by
  simp only [appendRelabel, bind_eq_ok_iff, mapError_eq_ok_iff]
  constructor
  · rintro ⟨result, both, bothMade, f, entriesMade, g, exitsMade, made⟩
    have internal := count_internal_append bothMade
    have inputs := Renaming.count_domain_sum entriesMade
    have outputs := Renaming.count_codomain_sum exitsMade
    obtain ⟨entriesFit, exitsFit⟩ := result.counts_fit
    rw [internal_relabel made, inputs_relabel made] at entriesFit
    rw [internal_relabel made, outputs_relabel made] at exitsFit
    exact ⟨⟨both, bothMade⟩, by omega, by omega⟩
  · rintro ⟨⟨both, bothMade⟩, entriesFit, exitsFit⟩
    obtain ⟨internal, inputs, outputs⟩ := counts_append bothMade
    have inputsFit := both.inputs.fits
    have outputsFit := both.outputs.fits
    rw [inputs, ← leftInputs, ← rightInputs] at inputsFit
    rw [outputs, ← leftOutputs, ← rightOutputs] at outputsFit
    obtain ⟨f, entriesMade⟩ := Renaming.exists_sum f₁ f₂ inputsFit (by omega)
    obtain ⟨g, exitsMade⟩ := Renaming.exists_sum g₁ g₂ (by omega) outputsFit
    have fCodomain := Renaming.count_codomain_sum entriesMade
    have fDomain := Renaming.count_domain_sum entriesMade
    have gCodomain := Renaming.count_codomain_sum exitsMade
    have gDomain := Renaming.count_domain_sum exitsMade
    rw [leftInputs, rightInputs, ← inputs] at fCodomain
    rw [leftOutputs, rightOutputs, ← outputs] at gDomain
    obtain ⟨result, made⟩ := exists_relabel both f g (Size.ext fCodomain) (Size.ext gDomain)
      (by omega) (by omega)
    exact ⟨result, both, bothMade, f, entriesMade, g, exitsMade, made⟩

/-- Renaming is natural in fragments side by side: renamings that fit the interfaces of two fragments can
be applied to each of them before they are placed side by side, or as sums behind that. Wherever the
fragments can be placed side by side as they are, the one way comes out exactly when the other does, and
as the same fragment. -/
theorem relabel_append_natural (result : Fragment Inst Cond) :
    left.appendRelabel right f₁ g₁ f₂ g₂ = .ok result ↔
      (∃ both, left.append right = .ok both) ∧
        left.relabelAppend right f₁ g₁ f₂ g₂ = .ok result := by
  have apart := exists_relabelAppend_iff leftInputs leftOutputs rightInputs rightOutputs
  have together := exists_appendRelabel_iff leftInputs leftOutputs rightInputs rightOutputs
  -- The conditions are those of the sizes, so what is left is that both ways come to the same.
  have same {early late : Fragment Inst Cond}
      (earlyMade : left.relabelAppend right f₁ g₁ f₂ g₂ = .ok early)
      (lateMade : left.appendRelabel right f₁ g₁ f₂ g₂ = .ok late) : early = late := by
    simp only [relabelAppend, appendRelabel, bind_eq_ok_iff, mapError_eq_ok_iff]
      at earlyMade lateMade
    obtain ⟨leftRenamed, leftMade, rightRenamed, rightMade, earlyMade⟩ := earlyMade
    obtain ⟨both, bothMade, f, entriesMade, g, exitsMade, lateMade⟩ := lateMade
    exact relabel_append_eq leftMade rightMade earlyMade bothMade entriesMade exitsMade lateMade
  constructor
  · intro lateMade
    obtain ⟨bothMade, fit⟩ := together.mp ⟨result, lateMade⟩
    obtain ⟨early, earlyMade⟩ := apart.mpr fit
    rw [← same earlyMade lateMade]
    exact ⟨bothMade, earlyMade⟩
  · rintro ⟨bothMade, earlyMade⟩
    obtain ⟨late, lateMade⟩ := together.mpr ⟨bothMade, apart.mp ⟨result, earlyMade⟩⟩
    rw [same earlyMade lateMade]
    exact lateMade

end Sizes

end Fragment

namespace Countdown

/-- Entries of a round in another order, and one of them twice. -/
def turned : Renaming := ⟨2, #[⟨1⟩, ⟨0⟩, ⟨1⟩], by decide, by decide⟩

/-- Both exits of a round as one, behind an exit that is not taken. -/
def joined : Renaming := ⟨2, #[⟨1⟩, ⟨1⟩], by decide, by decide⟩

/-- The one entry of a descent, three times. -/
def tripled : Renaming := ⟨1, #[⟨0⟩, ⟨0⟩, ⟨0⟩], by decide, by decide⟩

/-- The one exit of a descent as the last of three. -/
def delayed : Renaming := ⟨3, #[⟨2⟩], by decide, by decide⟩

/-- A round and a descent come to stand side by side under another interface, renamed before or after. -/
theorem round_append_descent_renamed :
    turned.codomain = round.inputs ∧ joined.domain = round.outputs ∧
      tripled.codomain = descent.inputs ∧ delayed.domain = descent.outputs ∧
        ∃ result, round.relabelAppend descent turned joined tripled delayed = .ok result ∧
          round.appendRelabel descent turned joined tripled delayed = .ok result := by
  refine ⟨rfl, rfl, rfl, rfl, ?_⟩
  have fit : Fragment.FitRenamed round descent turned joined tripled delayed :=
    ⟨by decide, by decide⟩
  obtain ⟨result, made⟩ := (Fragment.exists_relabelAppend_iff rfl rfl rfl rfl).mpr fit
  have both := Fragment.exists_append round descent (by decide) (by decide)
  exact ⟨result, made,
    (Fragment.relabel_append_natural rfl rfl rfl rfl result).mpr ⟨both, made⟩⟩

end Countdown

end Flowgraph
