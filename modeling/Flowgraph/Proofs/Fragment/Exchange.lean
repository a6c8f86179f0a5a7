import Flowgraph.Proofs.Run.Hidden
import Flowgraph.Proofs.Run.Sequence

/-!
# Two sequences side by side

Four fragments can be put together as two sequences that are placed side by side, or as two pairs side by
side that are put in sequence. The first way lays out all labels of one sequence before those of the
other. The second hides what the pairs hide before the interface between them, so that three groups of
one sequence alternate with three groups of the other.

`exchangeOrder` leads from the first layout to the second, by two interchanges: one brings the hidden
labels of the first pair together, and the other sorts what lies behind them. `exchange_block` follows the
blocks of the four fragments through it, and what is known of permutations of hidden labels does the rest.
-/

namespace Flowgraph

namespace Fragment

variable {Inst Cond : Type}

/-- From the order of hidden labels in two sequences side by side to that in a sequence of two pairs. -/
def exchangeOrder (first next other otherNext : Fragment Inst Cond) : Except LabelError Renaming := do
  let behind ← next.internal.sum next.inputs
  let otherBehind ← otherNext.internal.sum otherNext.inputs
  let kept ← first.internal.sum other.internal
  let gathered ← Renaming.interchange first.internal behind other.internal otherBehind
  let sorted ← Renaming.interchange next.internal next.inputs otherNext.internal otherNext.inputs
  gathered.andThen (← (Renaming.identity kept).sum sorted)

variable {first next other otherNext : Fragment Inst Cond}

theorem exchangeOrder_eq_ok_iff {order : Renaming} :
    exchangeOrder first next other otherNext = .ok order ↔
      ∃ (behind otherBehind kept : Size) (gathered sorted settled : Renaming),
        behind.count = next.internal.count + next.inputs.count ∧
          otherBehind.count = otherNext.internal.count + otherNext.inputs.count ∧
            kept.count = first.internal.count + other.internal.count ∧
              Renaming.interchange first.internal behind other.internal otherBehind =
                  .ok gathered ∧
                Renaming.interchange next.internal next.inputs otherNext.internal
                    otherNext.inputs = .ok sorted ∧
                  (Renaming.identity kept).sum sorted = .ok settled ∧
                    gathered.andThen settled = .ok order := by
  simp only [exchangeOrder, bind_eq_ok_iff, Size.sum_eq_ok_iff]
  constructor
  · rintro ⟨behind, behindCount, otherBehind, otherCount, kept, keptCount, gathered, gatheredMade,
      sorted, sortedMade, settled, settledMade, made⟩
    exact ⟨behind, otherBehind, kept, gathered, sorted, settled, behindCount, otherCount, keptCount,
      gatheredMade, sortedMade, settledMade, made⟩
  · rintro ⟨behind, otherBehind, kept, gathered, sorted, settled, behindCount, otherCount, keptCount,
      gatheredMade, sortedMade, settledMade, made⟩
    exact ⟨behind, behindCount, otherBehind, otherCount, kept, keptCount, gathered, gatheredMade,
      sorted, sortedMade, settled, settledMade, made⟩

/-- The order can be changed whenever all labels that are hidden have one size together. -/
theorem exists_exchangeOrder (first next other otherNext : Fragment Inst Cond)
    (fits : first.internal.count + (next.internal.count + next.inputs.count) +
      other.internal.count + (otherNext.internal.count + otherNext.inputs.count) < Size.limit) :
    ∃ order, exchangeOrder first next other otherNext = .ok order := by
  let behind : Size := ⟨next.internal.count + next.inputs.count, by omega⟩
  let otherBehind : Size := ⟨otherNext.internal.count + otherNext.inputs.count, by omega⟩
  let kept : Size := ⟨first.internal.count + other.internal.count, by omega⟩
  obtain ⟨gathered, gatheredMade⟩ :=
    Renaming.exists_interchange (a := first.internal) (b := behind) (c := other.internal)
      (d := otherBehind) fits
  obtain ⟨sorted, sortedMade⟩ :=
    Renaming.exists_interchange (a := next.internal) (b := next.inputs) (c := otherNext.internal)
      (d := otherNext.inputs) (by omega)
  have sortedDomain := Renaming.count_domain_interchange sortedMade
  have sortedCodomain := Renaming.count_codomain_interchange sortedMade
  have keptCount : kept.count = first.internal.count + other.internal.count := rfl
  obtain ⟨settled, settledMade, settledCodomain, settledDomain⟩ :=
    Renaming.exists_identity_sum kept sorted (by omega) (by omega)
  have gatheredCodomain : gathered.codomain.count =
      first.internal.count + (next.internal.count + next.inputs.count) + other.internal.count +
        (otherNext.internal.count + otherNext.inputs.count) :=
    Renaming.count_codomain_interchange gatheredMade
  have agree : gathered.codomain = settled.domain := Size.ext (by omega)
  obtain ⟨order, made⟩ := Renaming.exists_andThen agree
  exact ⟨order, exchangeOrder_eq_ok_iff.mpr ⟨behind, otherBehind, kept, gathered, sorted, settled,
    rfl, rfl, rfl, gatheredMade, sortedMade, settledMade, made⟩⟩

section Order

variable {order : Renaming} (made : exchangeOrder first next other otherNext = .ok order)

include made

theorem count_domain_exchangeOrder :
    order.domain.count = first.internal.count + (next.internal.count + next.inputs.count) +
      other.internal.count + (otherNext.internal.count + otherNext.inputs.count) := by
  obtain ⟨behind, otherBehind, kept, gathered, sorted, settled, behindCount, otherCount, -,
    gatheredMade, -, -, composed⟩ := exchangeOrder_eq_ok_iff.mp made
  rw [Renaming.domain_andThen composed, Renaming.count_domain_interchange gatheredMade, behindCount,
    otherCount]

/-- The order is changed by two exchanges of neighbours, one after the other. -/
theorem extend_exchangeOrder (label : Label) :
    order.extend label =
      (label.exchange first.internal.count (next.internal.count + next.inputs.count)
        other.internal.count).exchange
          (first.internal.count + other.internal.count + next.internal.count) next.inputs.count
          otherNext.internal.count := by
  obtain ⟨behind, otherBehind, kept, gathered, sorted, settled, behindCount, -, keptCount,
    gatheredMade, sortedMade, settledMade, composed⟩ := exchangeOrder_eq_ok_iff.mp made
  have sorts : sorted.extend =
      (·.exchange next.internal.count next.inputs.count otherNext.internal.count) :=
    funext (Renaming.extend_interchange sortedMade)
  rw [Renaming.extend_andThen composed, Renaming.extend_interchange gatheredMade,
    Renaming.extend_identity_sum settledMade, sorts, Label.mapVisible_exchange, behindCount,
    keptCount]

theorem exists_inverts_exchangeOrder : ∃ back, Renaming.Inverts back order := by
  obtain ⟨behind, otherBehind, kept, gathered, sorted, settled, -, -, -, gatheredMade, sortedMade,
    settledMade, composed⟩ := exchangeOrder_eq_ok_iff.mp made
  obtain ⟨gatheredBack, gatheredInverts⟩ := Renaming.exists_inverts_interchange gatheredMade
  obtain ⟨sortedBack, sortedInverts⟩ := Renaming.exists_inverts_interchange sortedMade
  obtain ⟨settledBack, settledInverts⟩ :=
    (Renaming.Inverts.identity kept).exists_sum sortedInverts settledMade
  obtain ⟨back, -, inverts⟩ := gatheredInverts.andThen settledInverts composed
  exact ⟨back, inverts⟩

end Order

section Sizes

variable (agree : first.outputs = next.inputs) (otherAgree : other.outputs = otherNext.inputs)

/-- What four fragments have to meet to be put together in a square: the labels of all of them on one
side of the code, with the interfaces in the middle, have one size together. -/
structure FitInSquare (first next other otherNext : Fragment Inst Cond) : Prop where
  entries : first.internal.count + next.internal.count + next.inputs.count +
    other.internal.count + otherNext.internal.count + otherNext.inputs.count +
      first.inputs.count + other.inputs.count < Size.limit
  exits : first.internal.count + next.internal.count + next.inputs.count +
    other.internal.count + otherNext.internal.count + otherNext.inputs.count +
      next.outputs.count + otherNext.outputs.count < Size.limit

include agree otherAgree

/-- Two pairs of fragments side by side can be put in sequence exactly when all four fit. -/
theorem exists_append_seq_append_iff :
    (∃ both, (do (← first.append other).seq (← next.append otherNext)) = .ok both) ↔
      FitInSquare first next other otherNext := by
  have agreeCount := congrArg Size.count agree
  have otherCount := congrArg Size.count otherAgree
  simp only [bind_eq_ok_iff]
  constructor
  · rintro ⟨both, front, frontMade, back, backMade, made⟩
    obtain ⟨frontInternal, frontInputs, -⟩ := counts_append frontMade
    obtain ⟨backInternal, backInputs, backOutputs⟩ := counts_append backMade
    obtain ⟨meet, entries, exits⟩ := exists_seq_iff.mp ⟨both, made⟩
    have meetCount := congrArg Size.count meet
    exact ⟨by omega, by omega⟩
  · rintro ⟨entries, exits⟩
    obtain ⟨front, frontMade⟩ := exists_append first other (by omega) (by omega)
    obtain ⟨back, backMade⟩ := exists_append next otherNext (by omega) (by omega)
    obtain ⟨frontInternal, frontInputs, frontOutputs⟩ := counts_append frontMade
    obtain ⟨backInternal, backInputs, backOutputs⟩ := counts_append backMade
    obtain ⟨both, made⟩ := exists_seq front back (Size.ext (by omega)) (by omega) (by omega)
    exact ⟨both, front, frontMade, back, backMade, made⟩

/-- Two sequences can be placed side by side under the same condition. -/
theorem exists_seq_append_seq_iff :
    (∃ both, (do (← first.seq next).append (← other.seq otherNext)) = .ok both) ↔
      FitInSquare first next other otherNext := by
  have agreeCount := congrArg Size.count agree
  have otherCount := congrArg Size.count otherAgree
  simp only [bind_eq_ok_iff]
  constructor
  · rintro ⟨both, upper, upperMade, lower, lowerMade, made⟩
    obtain ⟨entriesFit, exitsFit⟩ := both.counts_fit
    rw [count_internal_append made, count_inputs_append made, count_internal_seq upperMade,
      count_internal_seq lowerMade, inputs_seq upperMade, inputs_seq lowerMade] at entriesFit
    rw [count_internal_append made, count_outputs_append made, count_internal_seq upperMade,
      count_internal_seq lowerMade, outputs_seq upperMade, outputs_seq lowerMade] at exitsFit
    exact ⟨by omega, by omega⟩
  · rintro ⟨entries, exits⟩
    obtain ⟨upper, upperMade⟩ := exists_seq first next agree (by omega) (by omega)
    obtain ⟨lower, lowerMade⟩ := exists_seq other otherNext otherAgree (by omega) (by omega)
    obtain ⟨both, made⟩ := exists_append upper lower
      (by
        rw [count_internal_seq upperMade, count_internal_seq lowerMade, inputs_seq upperMade,
          inputs_seq lowerMade]
        omega)
      (by
        rw [count_internal_seq upperMade, count_internal_seq lowerMade, outputs_seq upperMade,
          outputs_seq lowerMade]
        omega)
    exact ⟨both, upper, upperMade, lower, lowerMade, made⟩

end Sizes

section Square

variable {upper lower beside front back inTurn : Fragment Inst Cond}
  (upperMade : first.seq next = .ok upper) (lowerMade : other.seq otherNext = .ok lower)
  (besideMade : upper.append lower = .ok beside) (frontMade : first.append other = .ok front)
  (backMade : next.append otherNext = .ok back) (inTurnMade : front.seq back = .ok inTurn)

include upperMade lowerMade besideMade frontMade backMade inTurnMade

/-- Both ways hide the same labels, and leave the same interface. -/
theorem exchange_interface :
    inTurn.internal = beside.internal ∧ inTurn.inputs = beside.inputs ∧
      inTurn.outputs = beside.outputs := by
  have upperInternal := count_internal_seq upperMade
  have lowerInternal := count_internal_seq lowerMade
  have inTurnInternal := count_internal_seq inTurnMade
  obtain ⟨besideInternal, besideInputs, besideOutputs⟩ := counts_append besideMade
  obtain ⟨frontInternal, frontInputs, -⟩ := counts_append frontMade
  obtain ⟨backInternal, backInputs, backOutputs⟩ := counts_append backMade
  rw [inputs_seq upperMade, inputs_seq lowerMade] at besideInputs
  rw [outputs_seq upperMade, outputs_seq lowerMade] at besideOutputs
  refine ⟨Size.ext (by omega), ?_, ?_⟩
  · rw [inputs_seq inTurnMade]
    exact Size.ext (by omega)
  · rw [outputs_seq inTurnMade]
    exact Size.ext (by omega)

/-- What stands at a label of the two sequences stands, in the sequence of the two pairs, where the new
order has that label, and its targets follow. The cases are the four fragments that it can come from. -/
theorem exchange_block {order : Renaming}
    (orderMade : exchangeOrder first next other otherNext = .ok order) {label : Label}
    (inside : label.Within beside.code.entries) :
    inTurn.code.get? (order.extend label) =
      (beside.code.get? label).map (·.mapLabels order.extend) := by
  have upperInternal := count_internal_seq upperMade
  have lowerInternal := count_internal_seq lowerMade
  have upperInputs := congrArg Size.count (inputs_seq upperMade)
  have upperOutputs := congrArg Size.count (outputs_seq upperMade)
  have agree := congrArg Size.count (seq_steps upperMade).1
  have otherAgree := congrArg Size.count (seq_steps lowerMade).1
  obtain ⟨frontInternal, frontInputs, frontOutputs⟩ := counts_append frontMade
  obtain ⟨backInternal, backInputs, backOutputs⟩ := counts_append backMade
  have moves := extend_exchangeOrder orderMade
  rcases append_cases besideMade inside with ⟨inner, innerInside, rfl⟩ | ⟨inner, innerInside, rfl⟩
  · rcases seq_cases upperMade innerInside with ⟨part, partInside, rfl⟩ | ⟨part, partInside, rfl⟩
    · -- Of the first fragment, only the exits are moved: they are the entries of the next one.
      have inBeside := (placed_seq_first upperMade).trans (placed_append_left besideMade)
      have inTurned := (placed_append_left frontMade).trans (placed_seq_first inTurnMade)
      refine inBeside.block_move inTurned order.extend ?_ ?_ partInside
      all_goals
        intro label within
        rw [Label.Within] at within
        rw [moves]
        ext
        grind [first.entries_eq, first.exits_eq]
    · -- The next one makes way for the hidden labels of the other pair, twice at its entries.
      have inBeside := (placed_seq_second upperMade).trans (placed_append_left besideMade)
      have inTurned := (placed_append_left backMade).trans (placed_seq_second inTurnMade)
      refine inBeside.block_move inTurned order.extend ?_ ?_ partInside
      all_goals
        intro label within
        rw [Label.Within] at within
        rw [moves]
        ext
        grind [next.entries_eq, next.exits_eq]
  · rcases seq_cases lowerMade innerInside with ⟨part, partInside, rfl⟩ | ⟨part, partInside, rfl⟩
    · -- The hidden labels of the other fragment close up to those of the first.
      have inBeside := (placed_seq_first lowerMade).trans (placed_append_right besideMade)
      have inTurned := (placed_append_right frontMade).trans (placed_seq_first inTurnMade)
      refine inBeside.block_move inTurned order.extend ?_ ?_ partInside
      all_goals
        intro label within
        rw [Label.Within] at within
        rw [moves]
        ext
        grind [other.entries_eq, other.exits_eq]
    · -- Those of the last one close up to those of the next, and its entries stay.
      have inBeside := (placed_seq_second lowerMade).trans (placed_append_right besideMade)
      have inTurned := (placed_append_right backMade).trans (placed_seq_second inTurnMade)
      refine inBeside.block_move inTurned order.extend ?_ ?_ partInside
      all_goals
        intro label within
        rw [Label.Within] at within
        rw [moves]
        ext
        grind [otherNext.entries_eq, otherNext.exits_eq]

/-- The sequence of the two pairs is what `exchangeOrder` makes of the two sequences side by side. -/
theorem exists_exchangeOrder_renameHidden :
    ∃ order, exchangeOrder first next other otherNext = .ok order ∧
      beside.renameHidden order = .ok inTurn := by
  obtain ⟨internal, inputs, outputs⟩ :=
    exchange_interface upperMade lowerMade besideMade frontMade backMade inTurnMade
  have besideInternal := count_internal_append besideMade
  rw [count_internal_seq upperMade, count_internal_seq lowerMade] at besideInternal
  have fits := beside.internal.fits
  obtain ⟨order, orderMade⟩ := exists_exchangeOrder first next other otherNext (by omega)
  obtain ⟨undo, inverts⟩ := exists_inverts_exchangeOrder orderMade
  have domain := count_domain_exchangeOrder orderMade
  refine ⟨order, orderMade, ?_⟩
  apply renameHidden_eq_ok inverts (Size.ext (by omega)) internal inputs outputs
  intro label inside
  exact exchange_block upperMade lowerMade besideMade frontMade backMade inTurnMade orderMade inside

end Square

/-- Where two pairs of fragments each meet in one interface, it does not matter whether the pairs are put
in sequence before they are placed side by side or after. Both can be done or neither can, with the same
interface, and the one permutation `exchangeOrder` of the hidden labels takes all code of the one to that
of the other. So from every entry and on every machine, both come to the same verdict after the same
blocks, under their new names, and leave the machine in the same state. -/
theorem append_seq_exchange (first next other otherNext : Fragment Inst Cond)
    (agree : first.outputs = next.inputs) (otherAgree : other.outputs = otherNext.inputs) :
    ((∃ inTurn, (do (← first.append other).seq (← next.append otherNext)) = .ok inTurn) ↔
        ∃ beside, (do (← first.seq next).append (← other.seq otherNext)) = .ok beside) ∧
      ∀ inTurn beside, (do (← first.append other).seq (← next.append otherNext)) = .ok inTurn →
        (do (← first.seq next).append (← other.seq otherNext)) = .ok beside →
          inTurn.internal = beside.internal ∧ inTurn.inputs = beside.inputs ∧
            inTurn.outputs = beside.outputs ∧
              ∃ order, exchangeOrder first next other otherNext = .ok order ∧ order.Bijective ∧
                order.domain = beside.internal ∧ beside.renameHidden order = .ok inTurn ∧
                (∀ label : Label, label.Within beside.code.entries →
                  inTurn.code.get? (order.extend label) =
                    (beside.code.get? label).map (·.mapLabels order.extend)) ∧
                ∀ {State Fault : Type} (machine : Machine Inst Cond State Fault) (entry : Label)
                  (fuel : Nat) (state : State),
                    inTurn.run machine entry fuel state =
                      ⟨(beside.run machine entry fuel state).verdict,
                        (beside.run machine entry fuel state).visited.map order.extend,
                        (beside.run machine entry fuel state).state⟩ := by
  constructor
  · rw [exists_append_seq_append_iff agree otherAgree, exists_seq_append_seq_iff agree otherAgree]
  intro inTurn beside inTurnMade besideMade
  simp only [bind_eq_ok_iff] at inTurnMade besideMade
  obtain ⟨front, frontMade, back, backMade, inTurnMade⟩ := inTurnMade
  obtain ⟨upper, upperMade, lower, lowerMade, besideMade⟩ := besideMade
  obtain ⟨internal, inputs, outputs⟩ :=
    exchange_interface upperMade lowerMade besideMade frontMade backMade inTurnMade
  obtain ⟨order, orderMade, renamed⟩ :=
    exists_exchangeOrder_renameHidden upperMade lowerMade besideMade frontMade backMade inTurnMade
  obtain ⟨undo, inverts⟩ := exists_inverts_exchangeOrder orderMade
  refine ⟨internal, inputs, outputs, order, orderMade, inverts.bijective,
    domain_of_renameHidden renamed, renamed, ?_, ?_⟩
  · intro label inside
    exact get?_renameHidden renamed inside
  · intro State Fault machine entry fuel state
    rw [run_renameHidden renamed, Run.relocate_id]

end Fragment

namespace Countdown

/-- Four descents: in a sequence of two pairs, the second entry counts down twice, as it does in two
sequences side by side. -/
theorem run_descent_exchange :
    ∃ inTurn beside order,
      (do (← descent.append descent).seq (← descent.append descent)) = .ok inTurn ∧
        (do (← descent.seq descent).append (← descent.seq descent)) = .ok beside ∧
          Fragment.exchangeOrder descent descent descent descent = .ok order ∧
            beside.renameHidden order = .ok inTurn ∧
              inTurn.run machine ⟨1⟩ 9 ⟨2, #[]⟩ =
                ⟨(beside.run machine ⟨1⟩ 9 ⟨2, #[]⟩).verdict,
                  (beside.run machine ⟨1⟩ 9 ⟨2, #[]⟩).visited.map order.extend,
                  (beside.run machine ⟨1⟩ 9 ⟨2, #[]⟩).state⟩ := by
  have exchange := Fragment.append_seq_exchange descent descent descent descent rfl rfl
  obtain ⟨inTurn, inTurnMade⟩ := (Fragment.exists_append_seq_append_iff rfl rfl).mpr
    (show Fragment.FitInSquare descent descent descent descent from ⟨by decide, by decide⟩)
  obtain ⟨beside, besideMade⟩ := exchange.1.mp ⟨inTurn, inTurnMade⟩
  obtain ⟨-, -, -, order, orderMade, -, -, renamed, -, runs⟩ :=
    exchange.2 inTurn beside inTurnMade besideMade
  exact ⟨inTurn, beside, order, inTurnMade, besideMade, orderMade, renamed,
    runs machine ⟨1⟩ 9 ⟨2, #[]⟩⟩

end Countdown

end Flowgraph
