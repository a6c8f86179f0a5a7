import Flowgraph.Proofs.Fragment.Hidden
import Flowgraph.Proofs.Fragment.Placement
import Flowgraph.Proofs.Run.Sequence

/-!
# Sequences are associative up to the order of hidden labels

Three fragments can be put in sequence from the left or from the right. Either way the same labels are
hidden, but not in the same order: from the left, the interface between the first two is hidden before
the labels of the third are added, and from the right it is hidden last. `seqOrder` is the permutation
that leads from the one order to the other, and `seq_seq_block` says that it leads each block to its
place and each branch to its target.
-/

namespace Flowgraph

namespace Fragment

variable {Inst Cond : Type}

/-- From the order of hidden labels in a sequence that is put together from the left to that in one
that is put together from the right: the interface between the first two fragments moves behind the
labels of the third. -/
def seqOrder (first second third : Fragment Inst Cond) : Except LabelError Renaming := do
  let kept ← first.internal.sum second.internal
  let behind ← third.internal.sum third.inputs
  Renaming.swapBehind kept second.inputs behind

variable {first second third : Fragment Inst Cond}

theorem seqOrder_eq_ok_iff {order : Renaming} :
    seqOrder first second third = .ok order ↔
      ∃ kept behind : Size,
        kept.count = first.internal.count + second.internal.count ∧
          behind.count = third.internal.count + third.inputs.count ∧
            Renaming.swapBehind kept second.inputs behind = .ok order := by
  simp only [seqOrder, bind_eq_ok_iff, Size.sum_eq_ok_iff]
  constructor
  · rintro ⟨kept, keptCount, behind, behindCount, made⟩
    exact ⟨kept, behind, keptCount, behindCount, made⟩
  · rintro ⟨kept, behind, keptCount, behindCount, made⟩
    exact ⟨kept, keptCount, behind, behindCount, made⟩

/-- The order can be changed whenever all labels that are hidden have one size together. -/
theorem exists_seqOrder (first second third : Fragment Inst Cond)
    (fits : first.internal.count + second.internal.count + second.inputs.count +
      (third.internal.count + third.inputs.count) < Size.limit) :
    ∃ order, seqOrder first second third = .ok order := by
  obtain ⟨order, swapped⟩ := Renaming.exists_swapBehind
    ⟨first.internal.count + second.internal.count, by omega⟩ second.inputs
    ⟨third.internal.count + third.inputs.count, by omega⟩ fits
  exact ⟨order, seqOrder_eq_ok_iff.mpr ⟨_, _, rfl, rfl, swapped⟩⟩

section Order

variable {order : Renaming} (made : seqOrder first second third = .ok order)

include made

theorem count_domain_seqOrder :
    order.domain.count = first.internal.count + second.internal.count + second.inputs.count +
      (third.internal.count + third.inputs.count) := by
  obtain ⟨kept, behind, keptCount, behindCount, swapped⟩ := seqOrder_eq_ok_iff.mp made
  rw [Renaming.count_domain_swapBehind swapped, keptCount, behindCount]

/-- The order is changed by one exchange of neighbours. -/
theorem extend_seqOrder (label : Label) :
    order.extend label =
      label.exchange (first.internal.count + second.internal.count) second.inputs.count
        (third.internal.count + third.inputs.count) := by
  obtain ⟨kept, behind, keptCount, behindCount, swapped⟩ := seqOrder_eq_ok_iff.mp made
  rw [Renaming.extend_swapBehind swapped, keptCount, behindCount]

theorem exists_inverts_seqOrder : ∃ back, Renaming.Inverts back order := by
  obtain ⟨kept, behind, -, -, swapped⟩ := seqOrder_eq_ok_iff.mp made
  exact Renaming.exists_inverts_swapBehind swapped

end Order

/-- What three fragments have to meet to be put in sequence: they share two interfaces, and all labels
of each side of the code have one size together. -/
structure FitInSequence (first second third : Fragment Inst Cond) : Prop where
  early : first.outputs = second.inputs
  late : second.outputs = third.inputs
  entries : first.internal.count + second.internal.count + third.internal.count +
    first.inputs.count + second.inputs.count + third.inputs.count < Size.limit
  exits : first.internal.count + second.internal.count + third.internal.count +
    second.inputs.count + third.inputs.count + third.outputs.count < Size.limit

/-- Three fragments can be put in sequence from the left exactly when they fit. -/
theorem exists_seq_bind_iff :
    (∃ left, (first.seq second >>= fun both => both.seq third) = .ok left) ↔
      FitInSequence first second third := by
  simp only [bind_eq_ok_iff]
  constructor
  · rintro ⟨left, both, bothMade, leftMade⟩
    obtain ⟨early, -, -⟩ := exists_seq_iff.mp ⟨both, bothMade⟩
    obtain ⟨late, entries, exits⟩ := exists_seq_iff.mp ⟨left, leftMade⟩
    rw [outputs_seq bothMade] at late exits
    rw [inputs_seq bothMade] at entries
    rw [count_internal_seq bothMade] at entries exits
    have lateCount := congrArg Size.count late
    exact ⟨early, late, by omega, by omega⟩
  · rintro ⟨early, late, entries, exits⟩
    have earlyCount := congrArg Size.count early
    have lateCount := congrArg Size.count late
    obtain ⟨both, bothMade⟩ := exists_seq first second early (by omega) (by omega)
    have internal := count_internal_seq bothMade
    have inputs := congrArg Size.count (inputs_seq bothMade)
    have outputs := congrArg Size.count (outputs_seq bothMade)
    obtain ⟨left, leftMade⟩ := exists_seq both third ((outputs_seq bothMade).trans late) (by omega)
      (by omega)
    exact ⟨left, both, bothMade, leftMade⟩

/-- They can be put in sequence from the right under the same condition. -/
theorem exists_bind_seq_iff :
    (∃ right, (second.seq third >>= fun both => first.seq both) = .ok right) ↔
      FitInSequence first second third := by
  simp only [bind_eq_ok_iff]
  constructor
  · rintro ⟨right, both, bothMade, rightMade⟩
    obtain ⟨late, -, -⟩ := exists_seq_iff.mp ⟨both, bothMade⟩
    obtain ⟨early, entries, exits⟩ := exists_seq_iff.mp ⟨right, rightMade⟩
    rw [inputs_seq bothMade] at early entries
    rw [outputs_seq bothMade] at exits
    rw [count_internal_seq bothMade] at entries exits
    have earlyCount := congrArg Size.count early
    exact ⟨early, late, by omega, by omega⟩
  · rintro ⟨early, late, entries, exits⟩
    have earlyCount := congrArg Size.count early
    have lateCount := congrArg Size.count late
    obtain ⟨both, bothMade⟩ := exists_seq second third late (by omega) (by omega)
    have internal := count_internal_seq bothMade
    have inputs := congrArg Size.count (inputs_seq bothMade)
    have outputs := congrArg Size.count (outputs_seq bothMade)
    obtain ⟨right, rightMade⟩ := exists_seq first both (early.trans (inputs_seq bothMade).symm)
      (by omega) (by omega)
    exact ⟨right, both, bothMade, rightMade⟩

section Nested

variable {early late left right : Fragment Inst Cond} (earlyMade : first.seq second = .ok early)
  (leftMade : early.seq third = .ok left) (lateMade : second.seq third = .ok late)
  (rightMade : first.seq late = .ok right)

include earlyMade leftMade lateMade rightMade

/-- What stands at a label from the left stands from the right where the new order has that label, and
its targets follow. The cases are the three fragments that the label can come from. -/
theorem seq_seq_block {order : Renaming} (orderMade : seqOrder first second third = .ok order)
    {label : Label} (inside : label.Within left.code.entries) :
    right.code.get? (order.extend label) =
      (left.code.get? label).map (·.mapLabels order.extend) := by
  have earlyInternal := count_internal_seq earlyMade
  have lateInternal := count_internal_seq lateMade
  have lateInputs := congrArg Size.count (inputs_seq lateMade)
  have earlyAgree := congrArg Size.count (seq_steps earlyMade).1
  have lateAgree := congrArg Size.count (seq_steps lateMade).1
  rcases seq_cases leftMade inside with ⟨inner, innerInside, rfl⟩ | ⟨inner, innerInside, rfl⟩
  · rcases seq_cases earlyMade innerInside with ⟨part, partInside, rfl⟩ | ⟨part, partInside, rfl⟩
    · -- Of the first fragment, only the exits are among the labels that trade places.
      have inLeft := (placed_seq_first earlyMade).trans (placed_seq_first leftMade)
      refine inLeft.block_move (placed_seq_first rightMade) order.extend ?_ ?_ partInside
      · intro entry _
        rw [extend_seqOrder orderMade]
        ext
        grind
      · intro target within
        rw [Label.Within, first.exits_eq] at within
        rw [extend_seqOrder orderMade]
        ext
        grind
    · -- The entries of the second make way for the third, whose entries are its exits.
      have inLeft := (placed_seq_second earlyMade).trans (placed_seq_first leftMade)
      have inRight := (placed_seq_first lateMade).trans (placed_seq_second rightMade)
      refine inLeft.block_move inRight order.extend ?_ ?_ partInside
      · intro entry within
        rw [Label.Within, second.entries_eq] at within
        rw [extend_seqOrder orderMade]
        ext
        grind
      · intro target within
        rw [Label.Within, second.exits_eq] at within
        rw [extend_seqOrder orderMade]
        ext
        grind
  · -- The third closes up as a whole, and its exits stay behind everything that is hidden.
    have inRight := (placed_seq_second lateMade).trans (placed_seq_second rightMade)
    refine (placed_seq_second leftMade).block_move inRight order.extend ?_ ?_ innerInside
    · intro entry within
      rw [Label.Within, third.entries_eq] at within
      rw [extend_seqOrder orderMade]
      ext
      grind
    · intro target _
      rw [extend_seqOrder orderMade]
      ext
      grind

/-- Both ways hide the same labels, and leave the same interface. -/
theorem seq_seq_interface :
    right.internal = left.internal ∧ right.inputs = left.inputs ∧ right.outputs = left.outputs := by
  have leftInternal := count_internal_seq leftMade
  have earlyInternal := count_internal_seq earlyMade
  have rightInternal := count_internal_seq rightMade
  have lateInternal := count_internal_seq lateMade
  have lateInputs := congrArg Size.count (inputs_seq lateMade)
  refine ⟨Size.ext (by omega), ?_, ?_⟩
  · rw [inputs_seq rightMade, inputs_seq leftMade, inputs_seq earlyMade]
  · rw [outputs_seq rightMade, outputs_seq leftMade, outputs_seq lateMade]

/-- Put in sequence from the right, three fragments are what `seqOrder` makes of them put in sequence
from the left. -/
theorem exists_seqOrder_renameHidden :
    ∃ order, seqOrder first second third = .ok order ∧ left.renameHidden order = .ok right := by
  obtain ⟨internal, inputs, outputs⟩ := seq_seq_interface earlyMade leftMade lateMade rightMade
  have leftInternal := count_internal_seq leftMade
  have earlyInternal := count_internal_seq earlyMade
  have fits := left.internal.fits
  obtain ⟨order, orderMade⟩ := exists_seqOrder first second third (by omega)
  obtain ⟨back, inverts⟩ := exists_inverts_seqOrder orderMade
  have domain := count_domain_seqOrder orderMade
  refine ⟨order, orderMade, ?_⟩
  refine renameHidden_eq_ok inverts (Size.ext (by omega)) internal inputs outputs ?_
  intro label inside
  exact seq_seq_block earlyMade leftMade lateMade rightMade orderMade inside

end Nested

/-- Sequences are associative up to the order of hidden labels: three fragments can be put in sequence
from the left exactly when they can from the right, the interface is the same, and the one permutation
`seqOrder` of the hidden labels takes all code of the first to that of the second. -/
theorem seq_assoc (first second third : Fragment Inst Cond) :
    ((∃ left, (first.seq second >>= fun both => both.seq third) = .ok left) ↔
        ∃ right, (second.seq third >>= fun both => first.seq both) = .ok right) ∧
      ∀ left right, (first.seq second >>= fun both => both.seq third) = .ok left →
        (second.seq third >>= fun both => first.seq both) = .ok right →
          right.internal = left.internal ∧ right.inputs = left.inputs ∧
            right.outputs = left.outputs ∧
              ∃ order, seqOrder first second third = .ok order ∧
                left.renameHidden order = .ok right := by
  refine ⟨exists_seq_bind_iff.trans exists_bind_seq_iff.symm, ?_⟩
  intro left right leftMade rightMade
  obtain ⟨early, earlyMade, leftMade⟩ := bind_eq_ok_iff.mp leftMade
  obtain ⟨late, lateMade, rightMade⟩ := bind_eq_ok_iff.mp rightMade
  obtain ⟨internal, inputs, outputs⟩ := seq_seq_interface earlyMade leftMade lateMade rightMade
  exact ⟨internal, inputs, outputs,
    exists_seqOrder_renameHidden earlyMade leftMade lateMade rightMade⟩

end Fragment

namespace Countdown

/-- Three descents in sequence: from the left and from the right, they differ in the order of the five
labels that are hidden. -/
theorem descent_seq_assoc :
    ∃ left right order,
      (descent.seq descent >>= fun both => both.seq descent) = .ok left ∧
        (descent.seq descent >>= fun both => descent.seq both) = .ok right ∧
          Fragment.seqOrder descent descent descent = .ok order ∧
            left.renameHidden order = .ok right := by
  have assoc := Fragment.seq_assoc descent descent descent
  obtain ⟨left, leftMade⟩ := Fragment.exists_seq_bind_iff.mpr
    (show Fragment.FitInSequence descent descent descent from
      ⟨rfl, rfl, by decide, by decide⟩)
  obtain ⟨right, rightMade⟩ := assoc.1.mp ⟨left, leftMade⟩
  obtain ⟨-, -, -, order, orderMade, renamed⟩ := assoc.2 left right leftMade rightMade
  exact ⟨left, right, order, leftMade, rightMade, orderMade, renamed⟩

end Countdown

end Flowgraph
