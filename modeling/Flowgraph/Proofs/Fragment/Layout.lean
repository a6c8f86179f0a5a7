import Flowgraph.Proofs.Fragment.Placement

/-!
# The table of two fragments side by side

What `Placed` says label by label, the statements here say of the table as a whole. The blocks of an
append are those of the left hidden labels, of the right hidden labels, of the left entries and of the
right entries, in this order and without any gap: each group is a row of neighbours in the table of its
operand, and `blocksFrom_eq_map` carries it over as one. Only the targets have changed.
-/

namespace Flowgraph.Fragment

variable {Inst Cond : Type}

/-- The blocks of `count` labels in a row, the first of which is `start`. -/
def blocksFrom (fragment : Fragment Inst Cond) (start count : Nat) : List (Block Inst Cond Label) :=
  (fragment.code.blocks.toList.drop start).take count

/-- The blocks of the hidden labels, in order. -/
def hiddenBlocks (fragment : Fragment Inst Cond) : List (Block Inst Cond Label) :=
  fragment.blocksFrom 0 fragment.internal.count

/-- The blocks of the entries, in order. -/
def entryBlocks (fragment : Fragment Inst Cond) : List (Block Inst Cond Label) :=
  fragment.blocksFrom fragment.internal.count fragment.inputs.count

/-- The blocks of two rows that meet are those of the first row, and then those of the second. -/
theorem blocksFrom_add (fragment : Fragment Inst Cond) (start first second : Nat) :
    fragment.blocksFrom start (first + second) =
      fragment.blocksFrom start first ++ fragment.blocksFrom (start + first) second := by
  rw [blocksFrom, List.take_add, List.drop_drop]
  rfl

/-- The hidden labels and the entries are all the labels that have blocks. -/
theorem toList_blocks (fragment : Fragment Inst Cond) :
    fragment.code.blocks.toList = fragment.hiddenBlocks ++ fragment.entryBlocks := by
  have length : fragment.code.blocks.toList.length =
      fragment.internal.count + fragment.inputs.count := fragment.entries_eq
  have whole : fragment.blocksFrom 0 (fragment.internal.count + fragment.inputs.count) =
      fragment.code.blocks.toList := by
    rw [blocksFrom, List.drop_zero, List.take_of_length_le (Nat.le_of_eq length)]
  rw [← whole, blocksFrom_add, Nat.zero_add]
  rfl

/-- Where each block of a row is a copy of its counterpart in a row of another fragment, the one row is
a copy of the other. -/
theorem blocksFrom_eq_map {inner outer : Fragment Inst Cond} {start source count : Nat}
    {copy : Block Inst Cond Label → Block Inst Cond Label}
    (copies : ∀ offset, offset < count →
      outer.code.get? ⟨start + offset⟩ = (inner.code.get? ⟨source + offset⟩).map copy) :
    outer.blocksFrom start count = (inner.blocksFrom source count).map copy := by
  refine List.ext_getElem? fun offset => ?_
  simp only [blocksFrom, List.getElem?_map, List.getElem?_take, List.getElem?_drop,
    Array.getElem?_toList]
  by_cases inside : offset < count
  · rw [if_pos inside, if_pos inside]
    exact copies offset inside
  · rw [if_neg inside, if_neg inside]
    rfl

/-- A block of the left operand of an append: its hidden targets stay, and its exits make room for the
hidden labels of the right operand. -/
def leftCopy (fragment other : Fragment Inst Cond) (block : Block Inst Cond Label) :
    Block Inst Cond Label :=
  block.mapLabels (·.makeRoom fragment.internal.count other.internal.count)

/-- A block of the right operand of an append: its hidden targets go behind the hidden labels of the left
operand, and its exits behind all hidden labels and the exits of the left operand. -/
def rightCopy (fragment other : Fragment Inst Cond) (block : Block Inst Cond Label) :
    Block Inst Cond Label :=
  block.mapLabels fun target =>
    (target.makeRoom other.internal.count fragment.outputs.count).shift fragment.internal.count

section Append

variable {fragment other both : Fragment Inst Cond} (made : fragment.append other = .ok both)

include made

/-- Side by side, the hidden labels of the left operand come before those of the right. -/
theorem hiddenBlocks_append :
    both.hiddenBlocks =
      fragment.hiddenBlocks.map (fragment.leftCopy other) ++
        other.hiddenBlocks.map (fragment.rightCopy other) := by
  rw [hiddenBlocks, count_internal_append made, blocksFrom_add]
  congr 1
  · refine blocksFrom_eq_map fun offset inside => ?_
    rw [Nat.zero_add]
    have hidden : (⟨offset⟩ : Label).Within fragment.internal := inside
    have block := get?_append_left made (fragment.within_entries_of_hidden hidden)
    rwa [Label.makeRoom_of_lt hidden] at block
  · refine blocksFrom_eq_map fun offset inside => ?_
    rw [Nat.zero_add, Nat.zero_add]
    have hidden : (⟨offset⟩ : Label).Within other.internal := inside
    have block := get?_append_right made (other.within_entries_of_hidden hidden)
    rwa [Label.makeRoom_of_lt hidden] at block

/-- And so do the entries, behind all hidden labels. -/
theorem entryBlocks_append :
    both.entryBlocks =
      fragment.entryBlocks.map (fragment.leftCopy other) ++
        other.entryBlocks.map (fragment.rightCopy other) := by
  rw [entryBlocks, count_internal_append made, count_inputs_append made, blocksFrom_add]
  congr 1
  · refine blocksFrom_eq_map fun offset inside => ?_
    have entry : (⟨offset⟩ : Label).Within fragment.inputs := inside
    have block := get?_append_left made (fragment.shift_within_entries entry)
    rwa [Label.makeRoom_shift] at block
  · refine blocksFrom_eq_map fun offset inside => ?_
    have entry : (⟨offset⟩ : Label).Within other.inputs := inside
    have block := get?_append_right made (other.shift_within_entries entry)
    rw [Label.makeRoom_shift, Label.shift_shift] at block
    have place : (⟨fragment.internal.count + other.internal.count + fragment.inputs.count + offset⟩ :
        Label) = (⟨offset⟩ : Label).shift
          (fragment.internal.count + (other.internal.count + fragment.inputs.count)) := by
      ext
      simp only [Label.index_shift]
      omega
    rw [place]
    exact block

end Append

/-- Two fragments side by side are the fragment with the sums of their sizes and this table: the blocks
of the left hidden labels, of the right hidden labels, of the left entries and of the right entries,
each once, and each with the instructions and conditions that it has. -/
theorem append_iff_laid_out {fragment other both : Fragment Inst Cond} :
    fragment.append other = .ok both ↔
      both.internal.count = fragment.internal.count + other.internal.count ∧
        both.inputs.count = fragment.inputs.count + other.inputs.count ∧
          both.outputs.count = fragment.outputs.count + other.outputs.count ∧
            both.code.blocks.toList =
              fragment.hiddenBlocks.map (fragment.leftCopy other) ++
                other.hiddenBlocks.map (fragment.rightCopy other) ++
                  fragment.entryBlocks.map (fragment.leftCopy other) ++
                    other.entryBlocks.map (fragment.rightCopy other) := by
  have table {whole : Fragment Inst Cond} (made : fragment.append other = .ok whole) :=
    (toList_blocks whole).trans
      (congrArg₂ (· ++ ·) (hiddenBlocks_append made) (entryBlocks_append made))
  constructor
  · intro made
    obtain ⟨internal, inputs, outputs⟩ := counts_append made
    refine ⟨internal, inputs, outputs, ?_⟩
    rw [table made, ← List.append_assoc]
  · rintro ⟨internal, inputs, outputs, blocks⟩
    have entriesFit := both.code.entries.fits
    have exitsFit := both.code.exits.fits
    rw [both.entries_eq] at entriesFit
    rw [both.exits_eq] at exitsFit
    obtain ⟨whole, made⟩ := exists_append fragment other (by omega) (by omega)
    obtain ⟨wholeInternal, wholeInputs, wholeOutputs⟩ := counts_append made
    have exitsEq := both.exits_eq
    have wholeExits := whole.exits_eq
    have sameBlocks : whole.code.blocks.toList = both.code.blocks.toList := by
      rw [table made, blocks, ← List.append_assoc]
    have sameCode : whole.code = both.code :=
      BlockMap.ext (Size.ext (by omega)) (Array.toList_inj.mp sameBlocks)
    have same : whole = both :=
      Fragment.ext (Size.ext (by omega)) (Size.ext (by omega)) (Size.ext (by omega)) sameCode
    rw [made, same]

end Flowgraph.Fragment
