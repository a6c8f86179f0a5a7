import Flowgraph.Renaming.Rearrange
import Flowgraph.Block.Basic

/-!
# Block maps

A block map gives one block to each label of an entry space, and every label that these blocks
branch to lies in an exit space. `BlockMap.ofBlocks` is where that is decided; the two operations
that make new block maps from old ones keep it without deciding it again.
-/

namespace Flowgraph

/-- One block for each entry label, with all branch targets in one exit space. -/
structure BlockMap (Inst Cond : Type) where
  exits : Size
  blocks : Array (Block Inst Cond Label)
  entries_fit : blocks.size < Size.limit
  targets_within : ∀ block ∈ blocks, ∀ target ∈ block.successors, target.Within exits
  deriving DecidableEq

/-- The ways in which block maps cannot be made or reindexed. -/
inductive BlockMapError where
  /-- A block branches out of the exit space. -/
  | danglingTarget (entry target : Label) (exits : Size)
  /-- A renaming does not fit the label space that it is to rename. -/
  | sizeMismatch (what : String) (expected actual : Size)
  /-- Label arithmetic failed. -/
  | label (error : LabelError)
  deriving DecidableEq, Repr

namespace BlockMapError

/-- What a failure is reported as. -/
def message : BlockMapError → String
  | danglingTarget entry target exits =>
    s!"block {entry.index} branches to {target.index}, outside of an exit space of size {exits}"
  | sizeMismatch what expected actual =>
    s!"{what}: expected a label space of size {expected}, got {actual}"
  | label error => s!"label space error: {error.message}"

/-- The reports of the failures that led to this one, nearest first. -/
def causes : BlockMapError → List String
  | label error => [error.message]
  | _ => []

end BlockMapError

namespace BlockMap

variable {Inst Cond : Type}

/-- Block maps are equal as soon as exits and blocks are; the bounds carry no identity. -/
@[ext] theorem ext {left right : BlockMap Inst Cond} (exits : left.exits = right.exits)
    (blocks : left.blocks = right.blocks) : left = right := by
  cases left
  cases right
  cases exits
  cases blocks
  rfl

/-- The size of the entry space. -/
def entries (code : BlockMap Inst Cond) : Size := ⟨code.blocks.size, code.entries_fit⟩

@[simp] theorem count_entries (code : BlockMap Inst Cond) :
    code.entries.count = code.blocks.size := rfl

/-- The block at an entry label. -/
def block (code : BlockMap Inst Cond) (entry : Label) (inside : entry.Within code.entries) :
    Block Inst Cond Label :=
  code.blocks[Fin.mk entry.index inside]

/-- The block at a label, if the label is an entry. -/
def get? (code : BlockMap Inst Cond) (entry : Label) : Option (Block Inst Cond Label) :=
  code.blocks[entry.index]?

/-- Every branch target of a block of the map is an exit. -/
theorem target_within (code : BlockMap Inst Cond) {entry target : Label}
    (inside : entry.Within code.entries) (member : target ∈ (code.block entry inside).successors) :
    target.Within code.exits :=
  code.targets_within _ (Array.getElem_mem _) target member

/-- The branches that leave the exit space, each as its entry and its target, in order. -/
def dangling (exits : Size) (blocks : Array (Block Inst Cond Label)) : List (Label × Label) :=
  blocks.toList.zipIdx.flatMap fun (block, entry) =>
    let outside := block.successors.filter fun target => ¬ target.Within exits
    outside.map fun target => (⟨entry⟩, target)

/-- Nothing dangles exactly when every target is an exit. -/
theorem dangling_eq_nil_iff {exits : Size} {blocks : Array (Block Inst Cond Label)} :
    dangling exits blocks = [] ↔
      ∀ block ∈ blocks, ∀ target ∈ block.successors, target.Within exits := by
  simp only [dangling, List.flatMap_eq_nil_iff, List.map_eq_nil_iff, List.filter_eq_nil_iff,
    decide_eq_true_eq, Classical.not_not]
  constructor
  · intro holds block member target targetMember
    obtain ⟨entry, bound, rfl⟩ := Array.mem_iff_getElem.mp member
    exact holds (blocks[entry], entry) (by simp [List.mem_zipIdx_iff_getElem?, bound]) target
      targetMember
  · intro holds pair pairMember target targetMember
    exact holds pair.1 (by simpa using List.fst_mem_of_mem_zipIdx pairMember) target targetMember

/-- The block map with the given blocks. The first branch out of the exit space is reported. -/
def ofBlocks (exits : Size) (blocks : Array (Block Inst Cond Label)) :
    Except BlockMapError (BlockMap Inst Cond) :=
  match found : dangling exits blocks with
  | (entry, target) :: _ => .error (.danglingTarget entry target exits)
  | [] =>
    if fits : blocks.size < Size.limit then
      .ok ⟨exits, blocks, fits, dangling_eq_nil_iff.mp found⟩
    else
      .error (.label .overflow)

/-- The block map whose block at each entry is the value of `f` there. -/
def ofFn (entries exits : Size) (f : Label → Block Inst Cond Label) :
    Except BlockMapError (BlockMap Inst Cond) :=
  ofBlocks exits (Array.ofFn fun entry : Fin entries.count => f ⟨entry⟩)

/-- The block map that sends each label of a renaming's domain straight to its image. -/
def ofRenaming (table : Renaming) : BlockMap Inst Cond where
  exits := table.codomain
  blocks := table.images.map Block.jump
  entries_fit := by simpa using table.domain_fits
  targets_within := by
    intro block member target targetMember
    obtain ⟨image, imageMember, rfl⟩ := Array.mem_map.mp member
    obtain rfl : target = image := by
      simpa [Block.jump, Block.terminal, Block.successors, Branch.labels] using targetMember
    exact table.images_within target imageMember

/-- Reindex on both sides: the block at `entry` becomes the one at `f entry`, with its targets
renamed by `g`. Entries that `f` misses are dropped, and entries that it hits twice are doubled. -/
def relabel (code : BlockMap Inst Cond) (f g : Renaming) :
    Except BlockMapError (BlockMap Inst Cond) :=
  if entriesAgree : f.codomain = code.entries then
    if exitsAgree : g.domain = code.exits then
      .ok {
        exits := g.codomain
        blocks := Array.ofFn fun entry : Fin f.images.size =>
          (code.block f.images[entry]
            (entriesAgree ▸ f.images_within _ (Array.getElem_mem _))).mapLabels g.image
        entries_fit := by simpa using f.domain_fits
        targets_within := by
          intro block member target targetMember
          obtain ⟨entry, rfl⟩ := Array.mem_ofFn.mp member
          simp only [Block.successors_mapLabels, List.mem_map] at targetMember
          obtain ⟨earlier, earlierMember, rfl⟩ := targetMember
          exact g.image_within (exitsAgree ▸ code.target_within _ earlierMember) }
    else
      .error (.sizeMismatch "exit renaming" code.exits g.domain)
  else
    .error (.sizeMismatch "entry renaming" code.entries f.codomain)

/-- Side by side, the blocks of two block maps branch into the sum of the exit spaces. -/
theorem target_within_sum {code other : BlockMap Inst Cond} {exits : Size}
    (found : code.exits.sum other.exits = .ok exits) {block : Block Inst Cond Label}
    (member : block ∈ code.blocks ++
      other.blocks.map (·.mapLabels (·.shift code.exits.count))) {target : Label}
    (targetMember : target ∈ block.successors) : target.Within exits := by
  have total := Size.sum_eq_ok_iff.mp found
  rcases Array.mem_append.mp member with leftMember | rightMember
  · have := code.targets_within block leftMember target targetMember
    simp only [Label.Within] at this ⊢
    omega
  · obtain ⟨right, otherMember, rfl⟩ := Array.mem_map.mp rightMember
    simp only [Block.successors_mapLabels, List.mem_map] at targetMember
    obtain ⟨earlier, earlierMember, rfl⟩ := targetMember
    have := other.targets_within right otherMember earlier earlierMember
    simp only [Label.Within, Label.index_shift] at this ⊢
    omega

/-- Place two block maps side by side: the entries of `code` come first, then those of `other`, and
every target stays in the summand of the exit space that its block came with. -/
def append (code other : BlockMap Inst Cond) : Except BlockMapError (BlockMap Inst Cond) :=
  match exitsFound : code.exits.sum other.exits with
  | .error error => .error (.label error)
  | .ok exits =>
    match entriesFound : code.entries.sum other.entries with
    | .error error => .error (.label error)
    | .ok entries =>
      .ok {
        exits := exits
        blocks := code.blocks ++ other.blocks.map (·.mapLabels (·.shift code.exits.count))
        entries_fit := by
          have := entries.fits
          rw [Size.sum_eq_ok_iff.mp entriesFound] at this
          simpa using this
        targets_within := fun _ member _ targetMember =>
          target_within_sum exitsFound member targetMember }

end BlockMap

end Flowgraph
