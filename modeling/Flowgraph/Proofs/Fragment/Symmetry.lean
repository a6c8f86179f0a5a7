import Flowgraph.Proofs.Fragment.Hidden
import Flowgraph.Proofs.Fragment.Placement

/-!
# Side by side in the other order

Two fragments can be placed side by side in either order. That exchanges the two groups of the interface,
on both sides, and it exchanges the two groups of hidden labels as well, so that two steps lead from the
one order to the other: `Fragment.appendTurned` exchanges the groups of the interface, and
`Fragment.swapHidden` those of the hidden labels. Entries are read through their renaming and exits are
written through theirs, so at each level the two sides exchange the groups in opposite directions.
-/

namespace Flowgraph.Fragment

variable {Inst Cond : Type}

/-- Place two fragments side by side, and then exchange the two groups of their interface. -/
def appendTurned (left right : Fragment Inst Cond) : Except FragmentError (Fragment Inst Cond) := do
  let both ← left.append right
  let entries ← (Renaming.swap right.inputs left.inputs).mapError .label
  let exits ← (Renaming.swap left.outputs right.outputs).mapError .label
  both.relabel entries exits

/-- The code of a fragment with the first `front` of its hidden labels behind the `behind` others. -/
def swapHidden (fragment : Fragment Inst Cond) (front behind : Size) :
    Except FragmentError (BlockMap Inst Cond) := do
  let back ← (Renaming.swap behind front).mapError .label
  let order ← (Renaming.swap front behind).mapError .label
  let entries ← (back.sum (.identity fragment.inputs)).mapError .label
  let exits ← (order.sum (.identity fragment.outputs)).mapError .label
  (fragment.code.relabel entries exits).mapError .blockMap

variable {left right both other turned : Fragment Inst Cond}

/-- An interface of two groups can be turned around. -/
theorem exists_appendTurned (bothMade : left.append right = .ok both) :
    ∃ turned, left.appendTurned right = .ok turned := by
  obtain ⟨internal, inputs, outputs⟩ := counts_append bothMade
  obtain ⟨entriesFit, exitsFit⟩ := both.counts_fit
  obtain ⟨entries, entriesMade⟩ := Renaming.exists_swap right.inputs left.inputs (by omega)
  obtain ⟨exits, exitsMade⟩ := Renaming.exists_swap left.outputs right.outputs (by omega)
  have entriesDomain := Renaming.count_domain_swap entriesMade
  have entriesCodomain := Renaming.count_codomain_swap entriesMade
  have exitsDomain := Renaming.count_domain_swap exitsMade
  have exitsCodomain := Renaming.count_codomain_swap exitsMade
  obtain ⟨turned, made⟩ := both.exists_relabel entries exits (Size.ext (by omega))
    (Size.ext (by omega)) (by omega) (by omega)
  refine ⟨turned, ?_⟩
  simp only [appendTurned, bind_eq_ok_iff, mapError_eq_ok_iff]
  exact ⟨both, bothMade, entries, entriesMade, exits, exitsMade, made⟩

section Turned

variable (bothMade : left.append right = .ok both) (made : left.appendTurned right = .ok turned)

include bothMade made

/-- What an append with an interface that is turned around is made of. -/
theorem appendTurned_steps :
    ∃ entries exits : Renaming, Renaming.swap right.inputs left.inputs = .ok entries ∧
      Renaming.swap left.outputs right.outputs = .ok exits ∧
        both.relabel entries exits = .ok turned := by
  simp only [appendTurned, bothMade, ok_bind, bind_eq_ok_iff, mapError_eq_ok_iff] at made
  obtain ⟨entries, entriesMade, exits, exitsMade, made⟩ := made
  exact ⟨entries, exits, entriesMade, exitsMade, made⟩

/-- Turned around, the interface has the sizes of the other order. -/
theorem counts_appendTurned :
    turned.internal.count = left.internal.count + right.internal.count ∧
      turned.inputs.count = right.inputs.count + left.inputs.count ∧
        turned.outputs.count = right.outputs.count + left.outputs.count := by
  obtain ⟨entries, exits, entriesMade, exitsMade, made⟩ := appendTurned_steps bothMade made
  refine ⟨?_, ?_, ?_⟩
  · rw [internal_relabel made, count_internal_append bothMade]
  · rw [inputs_relabel made, Renaming.count_domain_swap entriesMade]
  · rw [outputs_relabel made, Renaming.count_codomain_swap exitsMade, Nat.add_comm]

/-- The entries of both operands have traded places, and the exits likewise. -/
theorem placed_appendTurned :
    Placed both turned
      (·.exchange both.internal.count left.inputs.count right.inputs.count)
      (·.exchange both.internal.count left.outputs.count right.outputs.count) where
  block label inside := by
    obtain ⟨entries, exits, entriesMade, exitsMade, made⟩ := appendTurned_steps bothMade made
    have entriesDomain := Renaming.count_domain_swap entriesMade
    have exitsDomain := Renaming.count_domain_swap exitsMade
    obtain ⟨-, inputs, outputs⟩ := counts_append bothMade
    have placed : (label.exchange both.internal.count left.inputs.count
        right.inputs.count).Within turned.code.entries := by
      rw [Label.Within, both.entries_eq, inputs] at inside
      rw [Label.Within, turned.entries_eq, internal_relabel made, inputs_relabel made, entriesDomain,
        Nat.add_comm right.inputs.count]
      exact Label.index_exchange_lt (Nat.le_refl _) inside
    -- Where the entry has gone, it is read from where it was.
    have read : (label.exchange both.internal.count left.inputs.count right.inputs.count).mapVisible
        both.internal.count entries.image = label := by
      rw [Label.Within, turned.entries_eq, internal_relabel made, inputs_relabel made] at placed
      rw [← Renaming.mapVisible_extend_of_lt placed, funext (Renaming.extend_swap entriesMade),
        Label.mapVisible_exchange, Nat.add_zero, Label.exchange_exchange]
    rw [get?_relabel made placed, read, both.code.get?_eq_some_block inside]
    refine congrArg some (Block.mapLabels_congr fun target member => ?_)
    have bound := both.code.target_within inside member
    rw [Label.Within, both.exits_eq, outputs, ← exitsDomain] at bound
    rw [← Renaming.mapVisible_extend_of_lt bound, funext (Renaming.extend_swap exitsMade),
      Label.mapVisible_exchange, Nat.add_zero]

end Turned

section Both

variable (bothMade : left.append right = .ok both) (turnedMade : left.appendTurned right = .ok turned)
  (otherMade : right.append left = .ok other)

include bothMade turnedMade otherMade

/-- Turned around, the interface is that of the other order, and there are as many hidden labels. -/
theorem appendTurned_interface :
    turned.internal = other.internal ∧ turned.inputs = other.inputs ∧
      turned.outputs = other.outputs := by
  obtain ⟨internal, inputs, outputs⟩ := counts_appendTurned bothMade turnedMade
  obtain ⟨otherInternal, otherInputs, otherOutputs⟩ := counts_append otherMade
  exact ⟨Size.ext (by omega), Size.ext (by omega), Size.ext (by omega)⟩

/-- What stands at a label in the other order stands at its image once the interface has been turned
around, and its targets follow. The cases are the two operands that the label can come from. -/
theorem appendTurned_block {back : Renaming}
    (backMade : Renaming.swap right.internal left.internal = .ok back) {label : Label}
    (inside : label.Within other.code.entries) :
    turned.code.get? (back.extend label) =
      (other.code.get? label).map (·.mapLabels back.extend) := by
  have bothInternal := count_internal_append bothMade
  have turning := placed_appendTurned bothMade turnedMade
  rcases append_cases otherMade inside with ⟨part, partInside, rfl⟩ | ⟨part, partInside, rfl⟩
  · -- The hidden labels of the right operand go behind those of the left.
    have inTurned := (placed_append_right bothMade).trans turning
    refine (placed_append_left otherMade).block_move inTurned back.extend ?_ ?_ partInside
    · intro label inside
      rw [Label.Within, right.entries_eq] at inside
      rw [Renaming.extend_swap backMade, bothInternal]
      exact Label.exchange_behind inside
    · intro label inside
      rw [Label.Within, right.exits_eq] at inside
      rw [Renaming.extend_swap backMade, bothInternal]
      exact Label.exchange_behind inside
  · -- The hidden labels of the left operand come to the front.
    have inTurned := (placed_append_left bothMade).trans turning
    refine (placed_append_right otherMade).block_move inTurned back.extend ?_ ?_ partInside
    · intro label inside
      rw [Label.Within, left.entries_eq] at inside
      rw [Renaming.extend_swap backMade, bothInternal]
      exact Label.exchange_before inside
    · intro label inside
      rw [Label.Within, left.exits_eq] at inside
      rw [Renaming.extend_swap backMade, bothInternal]
      exact Label.exchange_before inside

/-- So the exchange of the two groups of hidden labels leads on to the other order. -/
theorem swapHidden_appendTurned :
    turned.swapHidden left.internal right.internal = .ok other.code := by
  obtain ⟨internal, inputs, outputs⟩ := appendTurned_interface bothMade turnedMade otherMade
  have otherInternal := count_internal_append otherMade
  have fits := other.internal.fits
  obtain ⟨back, backMade⟩ := Renaming.exists_swap right.internal left.internal (by omega)
  obtain ⟨order, orderMade⟩ := Renaming.exists_swap left.internal right.internal (by omega)
  have undone := Renaming.Inverts.swap orderMade backMade
  have backDomain := Renaming.count_domain_swap backMade
  have returned : other.renameHidden back = .ok turned :=
    renameHidden_eq_ok undone.symm (Size.ext (by omega)) internal inputs outputs fun label inside =>
      appendTurned_block bothMade turnedMade otherMade backMade inside
  obtain ⟨found, entries, exits, foundInverts, entriesMade, exitsMade, codeMade, -⟩ :=
    renameHidden_steps (renameHidden_symm returned undone.symm)
  -- What undoes the exchange is known, because there is only one inverse.
  have same := foundInverts.inverse_eq_ok
  rw [undone.inverse_eq_ok] at same
  cases same
  simp only [swapHidden, bind_eq_ok_iff, mapError_eq_ok_iff]
  exact ⟨back, backMade, order, orderMade, entries, entriesMade, exits, exitsMade, codeMade⟩

end Both

/-- Placing fragments side by side is symmetric up to exchanges. Where one order is refused because there
are too many labels, so is the other; else both come out, and once the two groups of the interface have
been exchanged, the code of the one is that of the other with the two groups of hidden labels exchanged. -/
theorem append_symmetric (left right : Fragment Inst Cond) :
    (left.append right = .error (.label .overflow) ∧ right.append left = .error (.label .overflow)) ∨
      ∃ both turned other, left.append right = .ok both ∧ left.appendTurned right = .ok turned ∧
        right.append left = .ok other ∧ turned.internal = other.internal ∧
          turned.inputs = other.inputs ∧ turned.outputs = other.outputs ∧
            turned.swapHidden left.internal right.internal = .ok other.code := by
  cases bothMade : left.append right with
  | error error =>
    obtain ⟨wide, rfl⟩ := append_eq_error_iff.mp bothMade
    exact .inl ⟨rfl, append_eq_error_iff.mpr ⟨by omega, rfl⟩⟩
  | ok both =>
    obtain ⟨internal, inputs, outputs⟩ := counts_append bothMade
    obtain ⟨entriesFit, exitsFit⟩ := both.counts_fit
    obtain ⟨turned, turnedMade⟩ := exists_appendTurned bothMade
    obtain ⟨other, otherMade⟩ := exists_append right left (by omega) (by omega)
    obtain ⟨sameInternal, sameInputs, sameOutputs⟩ :=
      appendTurned_interface bothMade turnedMade otherMade
    exact .inr ⟨both, turned, other, rfl, turnedMade, otherMade, sameInternal, sameInputs, sameOutputs,
      swapHidden_appendTurned bothMade turnedMade otherMade⟩

end Flowgraph.Fragment
