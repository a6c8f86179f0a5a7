import Flowgraph.Proofs.Fragment.Append

/-!
# What is accepted, and what is refused for

Block maps are made of blocks, and fragments of block maps. Both are checked once, when they are made, and
everything else relies on that. The statements here are exact in both directions: they say which input is
accepted, and for the rest which of its faults is reported.

Blocks are searched in order, and the slots of each block in order. `BlockMap.FirstDangling` is what comes
first in that search. The sizes of a fragment are compared one after the other, and `Fragment.Refused` has a
case for each comparison. A sum that is too large is refused as such, whatever size it would wrap around to.
-/

namespace Flowgraph

variable {Inst Cond : Type}

namespace BlockMap

/-- A block stays in the exit space when none of its branches leaves it. -/
def Stays (exits : Size) (block : Block Inst Cond Label) : Prop :=
  ∀ target ∈ block.successors, target.Within exits

/-- The first branch out of the exit space: all blocks before `entry` stay inside, and so do all slots of
its block before the one that holds `target`. -/
structure FirstDangling (exits : Size) (blocks : Array (Block Inst Cond Label))
    (entry target : Label) : Prop where
  blocks_before : ∀ index < entry.index, ∀ block, blocks[index]? = some block → Stays exits block
  at_entry : ∃ block before after, blocks[entry.index]? = some block ∧
    block.successors = before ++ target :: after ∧ ∀ earlier ∈ before, earlier.Within exits
  outside : ¬ target.Within exits

/-- A block has no branch out of the exit space exactly when it stays inside. -/
theorem find?_successors_eq_none_iff {exits : Size} {block : Block Inst Cond Label} :
    block.successors.find? (fun target => ¬ target.Within exits) = none ↔ Stays exits block := by
  simp [List.find?_eq_none, Stays]

/-- The slots of a block are searched up to the first branch out of the exit space. -/
theorem find?_successors_eq_some_iff {exits : Size} {block : Block Inst Cond Label} {target : Label} :
    block.successors.find? (fun target => ¬ target.Within exits) = some target ↔
      ¬ target.Within exits ∧ ∃ before after, block.successors = before ++ target :: after ∧
        ∀ earlier ∈ before, earlier.Within exits := by
  simp [List.find?_eq_some_iff_append]

/-- The number of an item in a list says which items come before it. -/
theorem getElem?_of_zipIdx_eq {A : Type} {items : List A} {before after : List (A × Nat)} {item : A}
    {index : Nat} (order : items.zipIdx = before ++ (item, index) :: after) :
    items[index]? = some item ∧
      ∀ earlier < index, ∀ other, items[earlier]? = some other → (other, earlier) ∈ before := by
  obtain ⟨front, back, rfl, rfl, same⟩ := List.zipIdx_eq_append_iff.mp order
  obtain ⟨_, rest, rfl, place, -⟩ := List.zipIdx_eq_cons_iff.mp same.symm
  obtain ⟨rfl, rfl⟩ := Prod.mk.inj place
  rw [Nat.zero_add]
  refine ⟨by simp, fun earlier less other found => ?_⟩
  rw [List.getElem?_append_left less] at found
  exact List.mem_zipIdx_iff_getElem?.mpr found

section Search

variable {exits : Size} {blocks : Array (Block Inst Cond Label)} {entry target : Label}

/-- What dangles first is found by a search of the blocks, and for each of its slots. -/
theorem head?_dangling (exits : Size) (blocks : Array (Block Inst Cond Label)) :
    (dangling exits blocks).head? = blocks.toList.zipIdx.findSome? fun (block, entry) =>
      (block.successors.find? fun target => ¬ target.Within exits).map fun target =>
        (⟨entry⟩, target) := by
  simp only [dangling, List.head?_flatMap, List.head?_map, List.head?_filter]

/-- What is found has nothing dangling before it. -/
theorem firstDangling_of_head? (found : (dangling exits blocks).head? = some (entry, target)) :
    FirstDangling exits blocks entry target := by
  rw [head?_dangling, List.findSome?_eq_some_iff] at found
  obtain ⟨earlier, ⟨block, index⟩, later, order, found, clean⟩ := found
  obtain ⟨_, slot, same⟩ := Option.map_eq_some_iff.mp found
  obtain ⟨rfl, rfl⟩ := Prod.mk.inj same
  obtain ⟨placed, before⟩ := getElem?_of_zipIdx_eq order
  obtain ⟨outside, front, back, slots, inside⟩ := find?_successors_eq_some_iff.mp slot
  refine ⟨fun number less other otherFound => ?_, ⟨block, front, back, ?_, slots, inside⟩, outside⟩
  · have nothing := clean _ (before number less other (by simpa using otherFound))
    exact find?_successors_eq_none_iff.mp (Option.map_eq_none_iff.mp nothing)
  · simpa using placed

/-- Only one branch can come first. -/
theorem FirstDangling.unique {otherEntry otherTarget : Label}
    (first : FirstDangling exits blocks entry target)
    (other : FirstDangling exits blocks otherEntry otherTarget) :
    entry = otherEntry ∧ target = otherTarget := by
  obtain ⟨block, before, after, found, slots, inside⟩ := first.at_entry
  obtain ⟨otherBlock, otherBefore, otherAfter, otherFound, otherSlots, otherInside⟩ := other.at_entry
  have leaves : target ∈ block.successors := by simp [slots]
  have otherLeaves : otherTarget ∈ otherBlock.successors := by simp [otherSlots]
  rcases Nat.lt_trichotomy entry.index otherEntry.index with less | same | greater
  · exact absurd (other.blocks_before _ less block found target leaves) first.outside
  · obtain rfl : block = otherBlock := by
      rw [same, otherFound] at found
      exact (Option.some.inj found).symm
    have slot := find?_successors_eq_some_iff.mpr ⟨first.outside, before, after, slots, inside⟩
    have otherSlot := find?_successors_eq_some_iff.mpr
      ⟨other.outside, otherBefore, otherAfter, otherSlots, otherInside⟩
    exact ⟨Label.ext same, Option.some.inj (slot.symm.trans otherSlot)⟩
  · exact absurd (first.blocks_before _ greater otherBlock otherFound otherTarget otherLeaves)
      other.outside

/-- The search finds what comes first. -/
theorem head?_dangling_eq_some_iff :
    (dangling exits blocks).head? = some (entry, target) ↔ FirstDangling exits blocks entry target := by
  refine ⟨firstDangling_of_head?, fun first => ?_⟩
  cases found : (dangling exits blocks).head? with
  | none =>
    obtain ⟨block, before, after, placed, slots, -⟩ := first.at_entry
    have within := dangling_eq_nil_iff.mp (List.head?_eq_none_iff.mp found) block
      (Array.mem_of_getElem? placed) target (by simp [slots])
    exact absurd within first.outside
  | some pair =>
    obtain ⟨rfl, rfl⟩ := (firstDangling_of_head? found).unique first
    rfl

/-- Blocks are refused for the first branch out of the exit space. Blocks without one would be refused
if there were too many for a size to count. -/
theorem ofBlocks_eq_error_iff {error : BlockMapError} :
    ofBlocks exits blocks = .error error ↔
      (∃ entry target, FirstDangling exits blocks entry target ∧
          error = .danglingTarget entry target exits) ∨
        (∀ block ∈ blocks, Stays exits block) ∧ Size.limit ≤ blocks.size ∧
          error = .label .overflow := by
  cases found : dangling exits blocks with
  | nil =>
    have within := dangling_eq_nil_iff.mp found
    have nothing (entry target : Label) : ¬ FirstDangling exits blocks entry target := by
      rw [← head?_dangling_eq_some_iff, found]
      simp
    rw [ofBlocks_of_within within]
    split
    · rename_i fits
      simp [nothing, Nat.not_le.mpr fits]
    · rename_i tooMany
      simp only [Except.error.injEq, nothing, false_and, exists_false, false_or]
      exact ⟨fun same => ⟨within, Nat.not_lt.mp tooMany, same.symm⟩, fun holds => holds.2.2.symm⟩
  | cons pair rest =>
    obtain ⟨entry, target⟩ := pair
    have first : FirstDangling exits blocks entry target :=
      firstDangling_of_head? (by rw [found]; rfl)
    have leaves : ¬ ∀ block ∈ blocks, Stays exits block := by
      intro within
      rw [dangling_eq_nil_iff.mpr within] at found
      cases found
    rw [ofBlocks_of_dangling found]
    constructor
    · rintro ⟨⟩
      exact .inl ⟨entry, target, first, rfl⟩
    · rintro (⟨otherEntry, otherTarget, other, rfl⟩ | ⟨within, -⟩)
      · obtain ⟨rfl, rfl⟩ := first.unique other
        rfl
      · exact absurd within leaves

/-- The second slot of the conditional branch leaves, as does all of the block behind it. -/
example : ofBlocks (2 : Size) #[Block.jump ⟨1⟩, .terminal (.conditional () ⟨0⟩ ⟨2⟩), .jump ⟨7⟩] =
    (.error (.danglingTarget ⟨1⟩ ⟨2⟩ 2) : Except BlockMapError (BlockMap Unit Unit)) := by
  rfl

/-- Blocks are accepted exactly when they stay in the exit space and can be counted. -/
theorem exists_ofBlocks_iff :
    (∃ code, ofBlocks exits blocks = .ok code) ↔
      (∀ block ∈ blocks, Stays exits block) ∧ blocks.size < Size.limit := by
  constructor
  · rintro ⟨code, made⟩
    obtain ⟨rfl, rfl⟩ := ofBlocks_eq_ok_iff.mp made
    exact ⟨code.targets_within, code.entries_fit⟩
  · rintro ⟨within, fits⟩
    exact ⟨⟨exits, blocks, fits, within⟩, ofBlocks_eq_ok_iff.mpr ⟨rfl, rfl⟩⟩

end Search

end BlockMap

namespace Fragment

/-- What can be wrong with a side of the code, of which the interface has `visible` labels behind the hidden
ones. The sum of the two is exact: one that is too large is never compared. -/
inductive SideFault (what : String) (hidden visible actual : Size) : FragmentError → Prop where
  /-- There are too many labels to have a size. -/
  | tooMany (wide : Size.limit ≤ hidden.count + visible.count) :
      SideFault what hidden visible actual (.label .overflow)
  /-- The code has more labels than there are, or fewer. -/
  | differs {expected : Size} (total : expected.count = hidden.count + visible.count)
      (differ : actual.count ≠ hidden.count + visible.count) :
      SideFault what hidden visible actual (.sizeMismatch what expected actual)

section Side

variable {what : String} {hidden visible actual expected : Size} {error : FragmentError}

/-- A side with the right number of labels has no fault. -/
theorem not_sideFault (agree : actual.count = hidden.count + visible.count) :
    ¬ SideFault what hidden visible actual error := by
  rintro (wide | ⟨total, differ⟩)
  · exact absurd (agree ▸ actual.fits) (Nat.not_lt.mpr wide)
  · exact differ agree

/-- A sum without a size is what is wrong with its side. -/
theorem sideFault_iff_of_wide (wide : Size.limit ≤ hidden.count + visible.count) :
    SideFault what hidden visible actual error ↔ error = .label .overflow := by
  constructor
  · rintro (wide | ⟨total, differ⟩)
    · rfl
    · exact absurd (total ▸ Size.fits _) (Nat.not_lt.mpr wide)
  · rintro rfl
    exact .tooMany wide

/-- Otherwise it is the comparison with the sum. -/
theorem sideFault_iff_of_differ (total : expected.count = hidden.count + visible.count)
    (differ : actual ≠ expected) :
    SideFault what hidden visible actual error ↔ error = .sizeMismatch what expected actual := by
  constructor
  · rintro (wide | ⟨otherTotal, -⟩)
    · exact absurd (total ▸ expected.fits) (Nat.not_lt.mpr wide)
    · rw [Size.ext (otherTotal.trans total.symm)]
  · rintro rfl
    exact .differs total fun same => differ (Size.ext (same.trans total.symm))

end Side

section Interface

variable {internal inputs outputs : Size} {code : BlockMap Inst Cond} {error : FragmentError}

/-- A block map is refused for an interface for what is wrong with its entries, or where nothing is, for
what is wrong with its exits. -/
theorem ofCode_eq_error_iff :
    ofCode internal inputs outputs code = .error error ↔
      SideFault "entry space" internal inputs code.entries error ∨
        code.entries.count = internal.count + inputs.count ∧
          SideFault "exit space" internal outputs code.exits error := by
  unfold ofCode
  split
  · rename_i reported entriesFound
    obtain ⟨wide, rfl⟩ := Size.sum_eq_error_iff.mp entriesFound
    have differ : code.entries.count ≠ internal.count + inputs.count := fun same =>
      absurd (same ▸ code.entries.fits) (Nat.not_lt.mpr wide)
    simp only [sideFault_iff_of_wide wide, differ, false_and, or_false, Except.error.injEq, eq_comm]
  · rename_i entries entriesFound
    have total := Size.sum_eq_ok_iff.mp entriesFound
    split
    · rename_i agree
      have counts : code.entries.count = internal.count + inputs.count := agree ▸ total
      simp only [not_sideFault counts, counts, false_or, true_and]
      split
      · rename_i reported exitsFound
        obtain ⟨wide, rfl⟩ := Size.sum_eq_error_iff.mp exitsFound
        simp only [sideFault_iff_of_wide wide, Except.error.injEq, eq_comm]
      · rename_i exits exitsFound
        have exitsTotal := Size.sum_eq_ok_iff.mp exitsFound
        split
        · rename_i exitsAgree
          simp only [not_sideFault (exitsAgree ▸ exitsTotal), reduceCtorEq]
        · rename_i exitsDiffer
          simp only [sideFault_iff_of_differ exitsTotal exitsDiffer, Except.error.injEq, eq_comm]
    · rename_i differ
      have counts : code.entries.count ≠ internal.count + inputs.count := fun same =>
        differ (Size.ext (same.trans total.symm))
      simp only [sideFault_iff_of_differ total differ, counts, false_and, or_false,
        Except.error.injEq, eq_comm]

/-- The number of entries would wrap around to that of the code, and is refused. -/
example (code : BlockMap Inst Cond) :
    ofCode ⟨Size.limit - 1, by decide⟩ ⟨2, by decide⟩ outputs code = .error (.label .overflow) := by
  rfl

/-- It is accepted exactly when both sides have the right number of labels. -/
theorem exists_ofCode_iff :
    (∃ fragment, ofCode internal inputs outputs code = .ok fragment) ↔
      code.entries.count = internal.count + inputs.count ∧
        code.exits.count = internal.count + outputs.count := by
  constructor
  · rintro ⟨fragment, made⟩
    obtain ⟨rfl, rfl, rfl, rfl⟩ := ofCode_eq_ok_iff.mp made
    exact ⟨fragment.entries_eq, fragment.exits_eq⟩
  · rintro ⟨entries, exits⟩
    exact exists_ofCode entries exits

end Interface

/-- Blocks make a block map exactly when all branches stay in the exit space, and a block map makes a fragment
exactly when both of its sides have the size that the interface asks for; what is made has the parts that
it was made of. Everything else is refused, for the first fault. -/
theorem validation_exact (exits : Size) (blocks : Array (Block Inst Cond Label))
    (internal inputs outputs : Size) (code : BlockMap Inst Cond) :
    (((∃ made, BlockMap.ofBlocks exits blocks = .ok made) ↔
          (∀ block ∈ blocks, BlockMap.Stays exits block) ∧ blocks.size < Size.limit) ∧
        (∀ made, BlockMap.ofBlocks exits blocks = .ok made ↔
          made.exits = exits ∧ made.blocks = blocks) ∧
        ∀ error, BlockMap.ofBlocks exits blocks = .error error ↔
          (∃ entry target, BlockMap.FirstDangling exits blocks entry target ∧
              error = .danglingTarget entry target exits) ∨
            (∀ block ∈ blocks, BlockMap.Stays exits block) ∧ Size.limit ≤ blocks.size ∧
              error = .label .overflow) ∧
      ((∃ fragment, ofCode internal inputs outputs code = .ok fragment) ↔
          code.entries.count = internal.count + inputs.count ∧
            code.exits.count = internal.count + outputs.count) ∧
        (∀ fragment, ofCode internal inputs outputs code = .ok fragment ↔
          fragment.internal = internal ∧ fragment.inputs = inputs ∧ fragment.outputs = outputs ∧
            fragment.code = code) ∧
        ∀ error, ofCode internal inputs outputs code = .error error ↔
          SideFault "entry space" internal inputs code.entries error ∨
            code.entries.count = internal.count + inputs.count ∧
              SideFault "exit space" internal outputs code.exits error :=
  ⟨⟨BlockMap.exists_ofBlocks_iff, fun _ => BlockMap.ofBlocks_eq_ok_iff,
      fun _ => BlockMap.ofBlocks_eq_error_iff⟩,
    exists_ofCode_iff, fun _ => ofCode_eq_ok_iff, fun _ => ofCode_eq_error_iff⟩

end Fragment

end Flowgraph
