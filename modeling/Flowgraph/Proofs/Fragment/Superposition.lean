import Flowgraph.Proofs.Fragment.Hidden
import Flowgraph.Proofs.Fragment.Placement
import Flowgraph.Proofs.Run.Feedback
import Flowgraph.Proofs.Run.Sequence

/-!
# Links do not depend on what stands beside them

A fragment can be linked before another one is placed beside it, or after. The labels that are linked
come to lie before the hidden labels of the other fragment in the first case, and behind them in the
second; `Renaming.swapBehind` exchanges the two groups. No other label is concerned, and both ways are
refused together: it does not matter to the sizes of an append on which side of the border the linked
labels are counted.
-/

namespace Flowgraph

namespace Fragment

variable {Inst Cond : Type} {fragment other : Fragment Inst Cond} {width : Size}

section Made

variable {looped both early late : Fragment Inst Cond} (loopedMade : fragment.link width = .ok looped)
  (earlyMade : looped.append other = .ok early) (bothMade : fragment.append other = .ok both)
  (lateMade : both.link width = .ok late)

include loopedMade earlyMade bothMade lateMade

/-- Linking early and linking late hide equally many labels, and leave the same interface. -/
theorem link_append_interface :
    late.internal = early.internal ∧ late.inputs = early.inputs ∧ late.outputs = early.outputs := by
  obtain ⟨inputsWide, outputsWide, loopedInternal, -⟩ := link_eq_ok_iff.mp loopedMade
  have loopedInputs := count_inputs_link loopedMade
  have loopedOutputs := count_outputs_link loopedMade
  obtain ⟨earlyInternal, earlyInputs, earlyOutputs⟩ := counts_append earlyMade
  obtain ⟨bothInternal, bothInputs, bothOutputs⟩ := counts_append bothMade
  have lateInternal := count_internal_link lateMade
  have lateInputs := count_inputs_link lateMade
  have lateOutputs := count_outputs_link lateMade
  exact ⟨Size.ext (by omega), Size.ext (by omega), Size.ext (by omega)⟩

/-- What stands at a label when the link comes early stands at its image when it comes late, and its
targets follow. The cases are the two operands that the label can come from. -/
theorem link_append_block {order : Renaming}
    (orderMade : Renaming.swapBehind fragment.internal width other.internal = .ok order)
    {label : Label} (inside : label.Within early.code.entries) :
    late.code.get? (order.extend label) =
      (early.code.get? label).map (·.mapLabels order.extend) := by
  obtain ⟨inputsWide, outputsWide, loopedInternal, code⟩ := link_eq_ok_iff.mp loopedMade
  have loopedInputs := count_inputs_link loopedMade
  have loopedOutputs := count_outputs_link loopedMade
  rcases append_cases earlyMade inside with ⟨part, partInside, rfl⟩ | ⟨part, partInside, rfl⟩
  · -- The linked labels of the left operand make way for the hidden ones of the right.
    rw [code] at partInside
    have inEarly := (placed_link loopedMade).trans (placed_append_left earlyMade)
    have inLate := (placed_append_left bothMade).trans (placed_link lateMade)
    refine inEarly.block_move inLate order.extend ?_ ?_ partInside
    all_goals
      intro label _
      rw [Renaming.extend_swapBehind orderMade]
      ext
      grind
  · -- The hidden labels of the right operand close up, and its interface stays where it is.
    have inLate := (placed_append_right bothMade).trans (placed_link lateMade)
    refine (placed_append_right earlyMade).block_move inLate order.extend ?_ ?_ partInside
    all_goals
      intro label _
      rw [Renaming.extend_swapBehind orderMade]
      ext
      grind

/-- Linked late, a fragment beside another is what the exchange of the linked labels with the hidden
ones of the other makes of it linked early. -/
theorem exists_swapBehind_renameHidden :
    ∃ order, Renaming.swapBehind fragment.internal width other.internal = .ok order ∧
      early.renameHidden order = .ok late := by
  obtain ⟨internal, inputs, outputs⟩ :=
    link_append_interface loopedMade earlyMade bothMade lateMade
  have earlyInternal := count_internal_append earlyMade
  have loopedInternal := count_internal_link loopedMade
  have fits := early.internal.fits
  obtain ⟨order, orderMade⟩ :=
    Renaming.exists_swapBehind fragment.internal width other.internal (by omega)
  obtain ⟨back, inverts⟩ := Renaming.exists_inverts_swapBehind orderMade
  have domain := Renaming.count_domain_swapBehind orderMade
  refine ⟨order, orderMade, ?_⟩
  apply renameHidden_eq_ok inverts (Size.ext (by omega)) internal inputs outputs
  intro label inside
  exact link_append_block loopedMade earlyMade bothMade lateMade orderMade inside

end Made

/-- Links can be made before or after an append. Where one way is refused because there are too many
labels, so is the other; else both come out with the same interface, and the code of the second is that
of the first with the linked labels brought behind the hidden labels of the right operand. -/
theorem link_append_superposes (fragment other : Fragment Inst Cond) (width : Size)
    (inputsWide : width.count ≤ fragment.inputs.count)
    (outputsWide : width.count ≤ fragment.outputs.count) :
    ((fragment.link width >>= fun looped => looped.append other) = .error (.label .overflow) ∧
        (fragment.append other >>= fun both => both.link width) = .error (.label .overflow)) ∨
      ∃ early late order,
        (fragment.link width >>= fun looped => looped.append other) = .ok early ∧
          (fragment.append other >>= fun both => both.link width) = .ok late ∧
            late.internal = early.internal ∧ late.inputs = early.inputs ∧
              late.outputs = early.outputs ∧
                Renaming.swapBehind fragment.internal width other.internal = .ok order ∧
                  early.renameHidden order = .ok late := by
  obtain ⟨looped, loopedMade⟩ := fragment.exists_link width inputsWide outputsWide
  have loopedInternal := count_internal_link loopedMade
  have loopedInputs := count_inputs_link loopedMade
  have loopedOutputs := count_outputs_link loopedMade
  cases bothMade : fragment.append other with
  | error error =>
    obtain ⟨wide, rfl⟩ := append_eq_error_iff.mp bothMade
    have earlyFailed : looped.append other = .error (.label .overflow) :=
      append_eq_error_iff.mpr ⟨by omega, rfl⟩
    refine .inl ⟨?_, rfl⟩
    rw [loopedMade]
    exact earlyFailed
  | ok both =>
    obtain ⟨bothInternal, bothInputs, bothOutputs⟩ := counts_append bothMade
    have entriesFit := both.code.entries.fits
    have exitsFit := both.code.exits.fits
    rw [both.entries_eq] at entriesFit
    rw [both.exits_eq] at exitsFit
    obtain ⟨early, earlyMade⟩ := exists_append looped other (by omega) (by omega)
    obtain ⟨late, lateMade⟩ := both.exists_link width (by omega) (by omega)
    obtain ⟨internal, inputs, outputs⟩ :=
      link_append_interface loopedMade earlyMade bothMade lateMade
    obtain ⟨order, orderMade, renamed⟩ :=
      exists_swapBehind_renameHidden loopedMade earlyMade bothMade lateMade
    refine .inr ⟨early, late, order, ?_, lateMade, internal, inputs, outputs, orderMade, renamed⟩
    rw [loopedMade]
    exact earlyMade

end Fragment

namespace Countdown

/-- A round that is linked beside a descent: the label that is linked and the one that the descent
hides trade places. -/
theorem round_link_append_descent :
    Size.one.count ≤ round.inputs.count ∧ Size.one.count ≤ round.outputs.count ∧
      ∃ early late order,
        (round.link .one >>= fun looped => looped.append descent) = .ok early ∧
          (round.append descent >>= fun both => both.link .one) = .ok late ∧
            Renaming.swapBehind round.internal .one descent.internal = .ok order ∧
              early.renameHidden order = .ok late := by
  refine ⟨by decide, by decide, ?_⟩
  rcases Fragment.link_append_superposes round descent .one (by decide) (by decide) with
    ⟨-, refused⟩ | ⟨early, late, order, earlyMade, lateMade, -, -, -, orderMade, renamed⟩
  · -- There are few labels, so this case does not arise.
    obtain ⟨both, bothMade⟩ := Fragment.exists_append round descent (by decide) (by decide)
    obtain ⟨-, inputs, outputs⟩ := Fragment.counts_append bothMade
    obtain ⟨late, lateMade⟩ := both.exists_link .one (inputs ▸ by decide) (outputs ▸ by decide)
    have made : (round.append descent >>= fun both => both.link .one) = .ok late :=
      bind_eq_ok_iff.mpr ⟨both, bothMade, lateMade⟩
    rw [made] at refused
    cases refused
  · exact ⟨early, late, order, earlyMade, lateMade, orderMade, renamed⟩

end Countdown

end Flowgraph
