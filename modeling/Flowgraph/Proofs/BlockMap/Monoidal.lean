import Flowgraph.Proofs.Raw.BlockMap

/-!
# Block maps as a strict monoidal product

A block map leads from its entries to its exits, and `BlockMap.append` places two of them side by side. Since
sums of label spaces are laid out flat, this is associative on the nose, with the map without labels as
unit, and it is natural: renamings that fit the two maps can be applied to each of them, or their sums to
both at once.

`BlockMap.Joins` says which map it is that comes out, in the terms of label arithmetic: a label of the sum
is split, the summand that it lies in is asked for its block, and each target is injected into the sum
of the exits. None of these steps can fail where the two sums have a size.
-/

namespace Flowgraph.BlockMap

open Unguarded

variable {Inst Cond : Type}

/-- The block at a label of two block maps side by side: the block of the summand in which the label lies,
with its targets placed in the sum of the exits. -/
def blockInSum (code other : BlockMap Inst Cond) (label : Label) :
    Except LabelError (Option (Block Inst Cond Label)) := do
  match ← label.split code.entries other.entries with
  | .inl entry => (code.get? entry).mapM (Block.mapLabelsM (·.inl code.exits other.exits))
  | .inr entry => (other.get? entry).mapM (Block.mapLabelsM (·.inr code.exits other.exits))

/-- The two block maps make up `joined`: its spaces are the sums of theirs, and its blocks are theirs. -/
structure Joins (code other joined : BlockMap Inst Cond) : Prop where
  entries : code.entries.sum other.entries = .ok joined.entries
  exits : code.exits.sum other.exits = .ok joined.exits
  blocks : ∀ label : Label, label.Within joined.entries →
    code.blockInSum other label = .ok (joined.get? label)

section Blocks

variable {code other joined : BlockMap Inst Cond} {entries exits : Size}
  (entriesFound : code.entries.sum other.entries = .ok entries)
  (exitsFound : code.exits.sum other.exits = .ok exits)

include entriesFound exitsFound

/-- In front are the blocks of the first map, as they are. -/
theorem blockInSum_left {label : Label} (inside : label.Within code.entries) :
    code.blockInSum other label = .ok (code.get? label) := by
  have placed : (code.block label inside).mapLabelsM (·.inl code.exits other.exits) =
      .ok ((code.block label inside).mapLabels fun target => target) :=
    Block.mapLabelsM_eq_ok fun target member =>
      Label.inl_eq_ok exitsFound (code.target_within inside member)
  rw [Block.mapLabels_id] at placed
  rw [blockInSum, Label.split_of_within entriesFound inside, ok_bind]
  simp only [get?_eq_some_block code inside, Option.mapM_some, placed]
  rfl

/-- Behind them are those of the second, with their targets behind the exits of the first. -/
theorem blockInSum_right {label : Label} (inside : label.Within other.entries) :
    code.blockInSum other (label.shift code.entries.count) =
      .ok ((other.get? label).map (·.mapLabels (·.shift code.exits.count))) := by
  have placed : (other.block label inside).mapLabelsM (·.inr code.exits other.exits) =
      .ok ((other.block label inside).mapLabels (·.shift code.exits.count)) :=
    Block.mapLabelsM_eq_ok fun target member =>
      Label.inr_eq_ok exitsFound (other.target_within inside member)
  rw [blockInSum, Label.split_shift entriesFound inside, ok_bind]
  simp only [get?_eq_some_block other inside, Option.mapM_some, placed]
  rfl

end Blocks

section Append

variable {code other joined : BlockMap Inst Cond}

/-- Two block maps can be placed side by side exactly when they make up a block map, which is then the one
that comes out. -/
theorem append_eq_ok_iff_joins : code.append other = .ok joined ↔ Joins code other joined := by
  constructor
  · intro made
    have entries : code.entries.sum other.entries = .ok joined.entries :=
      Size.sum_eq_ok_iff.mpr (count_entries_append made)
    have exits : code.exits.sum other.exits = .ok joined.exits :=
      Size.sum_eq_ok_iff.mpr (count_exits_append made)
    refine ⟨entries, exits, fun label inside => ?_⟩
    rcases Label.within_sum_cases entries inside with front | ⟨behind, back, rfl⟩
    · rw [blockInSum_left entries exits front, get?_append_left made front]
    · rw [blockInSum_right entries exits back, get?_append_right made]
  · intro joins
    obtain ⟨both, made⟩ := exists_append code other
      (Size.sum_eq_ok_iff.mp joins.exits ▸ joined.exits.fits)
      (Size.sum_eq_ok_iff.mp joins.entries ▸ joined.entries.fits)
    have entries : both.entries = joined.entries :=
      Size.ext ((count_entries_append made).trans (Size.sum_eq_ok_iff.mp joins.entries).symm)
    have exits : both.exits = joined.exits :=
      Size.ext ((count_exits_append made).trans (Size.sum_eq_ok_iff.mp joins.exits).symm)
    -- What the two make up is what comes out, because `blockInSum` has only one value at each label.
    have same : both = joined := by
      refine eq_of_get? entries exits fun label inside => ?_
      rw [entries] at inside
      have found := joins.blocks label inside
      rcases Label.within_sum_cases joins.entries inside with front | ⟨behind, back, rfl⟩
      · rw [blockInSum_left joins.entries joins.exits front] at found
        rw [get?_append_left made front]
        exact Except.ok.inj found
      · rw [blockInSum_right joins.entries joins.exits back] at found
        rw [get?_append_right made]
        exact Except.ok.inj found
    rw [made, same]

end Append

/-- Block maps side by side are refused for nothing but a sum that is too large. -/
theorem eq_overflow_of_append {code other : BlockMap Inst Cond} {error : BlockMapError}
    (refused : code.append other = .error error) : error = .label .overflow :=
  (append_eq_error_iff.mp refused).2

/-- The block map without entries and exits. -/
def empty : BlockMap Inst Cond where
  exits := .zero
  blocks := #[]
  entries_fit := Size.zero.fits
  targets_within := by simp

/-- It is what is made of no blocks for no exits. -/
theorem ofBlocks_zero : ofBlocks .zero #[] = .ok (empty : BlockMap Inst Cond) :=
  ofBlocks_eq_ok_iff.mpr ⟨rfl, rfl⟩

/-- The map without labels goes before any other without being seen. -/
theorem empty_append (code : BlockMap Inst Cond) : empty.append code = .ok code := by
  rw [append_eq_ok_iff]
  simp [empty]

/-- It goes behind any other in the same way. -/
theorem append_empty (code : BlockMap Inst Cond) : code.append empty = .ok code := by
  rw [append_eq_ok_iff]
  simp [empty]

section Associativity

variable {first second third result : BlockMap Inst Cond}

/-- The blocks of `result` are those of three maps behind each other, each with its targets behind the
exits of those before. -/
structure JoinsThree (first second third result : BlockMap Inst Cond) : Prop where
  exits : result.exits.count = first.exits.count + second.exits.count + third.exits.count
  blocks : result.blocks =
    first.blocks ++ second.blocks.map (·.mapLabels (·.shift first.exits.count)) ++
      third.blocks.map (·.mapLabels (·.shift (first.exits.count + second.exits.count)))

/-- A result has as many blocks as the three maps have together. -/
theorem JoinsThree.entries (joins : JoinsThree first second third result) :
    first.entries.count + second.entries.count + third.entries.count < Size.limit := by
  have fits := result.entries_fit
  simpa [joins.blocks, Nat.add_assoc] using fits

/-- Three maps that are put together from the front come to their blocks behind each other. -/
theorem append_bind_eq_ok_iff :
    (first.append second >>= fun early => early.append third) = .ok result ↔
      JoinsThree first second third result := by
  rw [bind_eq_ok_iff]
  constructor
  · rintro ⟨early, earlyMade, made⟩
    obtain ⟨earlyExits, earlyBlocks⟩ := append_eq_ok_iff.mp earlyMade
    obtain ⟨exits, blocks⟩ := append_eq_ok_iff.mp made
    rw [earlyExits] at exits
    rw [earlyBlocks, earlyExits] at blocks
    exact ⟨exits, blocks⟩
  · intro joins
    have entriesFit := joins.entries
    have exitsFit := joins.exits ▸ result.exits.fits
    obtain ⟨early, earlyMade⟩ := exists_append first second (by omega) (by omega)
    obtain ⟨earlyExits, earlyBlocks⟩ := append_eq_ok_iff.mp earlyMade
    refine ⟨early, earlyMade, append_eq_ok_iff.mpr ⟨?_, ?_⟩⟩
    · rw [earlyExits, joins.exits]
    · rw [earlyBlocks, earlyExits, joins.blocks]

/-- Put together from the back, they come to the same. -/
theorem bind_append_eq_ok_iff :
    (second.append third >>= fun late => first.append late) = .ok result ↔
      JoinsThree first second third result := by
  have behind (late : BlockMap Inst Cond)
      (blocks : late.blocks =
        second.blocks ++ third.blocks.map (·.mapLabels (·.shift second.exits.count))) :
      first.blocks ++ late.blocks.map (·.mapLabels (·.shift first.exits.count)) =
        first.blocks ++ second.blocks.map (·.mapLabels (·.shift first.exits.count)) ++
          third.blocks.map (·.mapLabels (·.shift (first.exits.count + second.exits.count))) := by
    simp [blocks, Function.comp_def, Block.mapLabels_mapLabels, Label.shift_shift]
  rw [bind_eq_ok_iff]
  constructor
  · rintro ⟨late, lateMade, made⟩
    obtain ⟨lateExits, lateBlocks⟩ := append_eq_ok_iff.mp lateMade
    obtain ⟨exits, blocks⟩ := append_eq_ok_iff.mp made
    exact ⟨by omega, blocks.trans (behind late lateBlocks)⟩
  · intro joins
    have entriesFit := joins.entries
    have exitsFit := joins.exits ▸ result.exits.fits
    obtain ⟨late, lateMade⟩ := exists_append second third (by omega) (by omega)
    obtain ⟨lateExits, lateBlocks⟩ := append_eq_ok_iff.mp lateMade
    have exits := joins.exits
    exact ⟨late, lateMade, append_eq_ok_iff.mpr
      ⟨by omega, joins.blocks.trans (behind late lateBlocks).symm⟩⟩

/-- Placing side by side is associative, refusals included. -/
theorem append_assoc (first second third : BlockMap Inst Cond) :
    (first.append second >>= fun early => early.append third) =
      (second.append third >>= fun late => first.append late) :=
  eq_of_eq_ok_iff
    (fun _ => eq_of_bind_eq_error (fun _ => eq_overflow_of_append) fun _ _ => eq_overflow_of_append)
    (fun _ => eq_of_bind_eq_error (fun _ => eq_overflow_of_append) fun _ _ => eq_overflow_of_append)
    fun _ => append_bind_eq_ok_iff.trans bind_append_eq_ok_iff.symm

end Associativity

section Naturality

variable (code other : BlockMap Inst Cond) (f₁ g₁ f₂ g₂ : Renaming)

/-- Reindex two block maps, and place them side by side. -/
def relabelAppend : Except BlockMapError (BlockMap Inst Cond) := do
  let left ← code.relabel f₁ g₁
  let right ← other.relabel f₂ g₂
  left.append right

/-- Place two block maps side by side, and reindex them by the sums. -/
def appendRelabel : Except BlockMapError (BlockMap Inst Cond) := do
  let both ← code.append other
  let f ← (f₁.sum f₂).mapError .label
  let g ← (g₁.sum g₂).mapError .label
  both.relabel f g

end Naturality

section Squares

variable {code other left right both early late : BlockMap Inst Cond} {f₁ g₁ f₂ g₂ f g : Renaming}
  (leftMade : code.relabel f₁ g₁ = .ok left) (rightMade : other.relabel f₂ g₂ = .ok right)
  (earlyMade : left.append right = .ok early) (bothMade : code.append other = .ok both)
  (entriesMade : f₁.sum f₂ = .ok f) (exitsMade : g₁.sum g₂ = .ok g)
  (lateMade : both.relabel f g = .ok late)

include leftMade rightMade earlyMade bothMade entriesMade exitsMade lateMade

/-- Block maps that are reindexed early and late are the same: a label of either summand is read at the
same entry, and its targets are written to the same exits. -/
theorem relabel_append_eq : early = late := by
  obtain ⟨leftEntries, leftExits⟩ := exists_relabel_iff.mp ⟨left, leftMade⟩
  obtain ⟨rightEntries, rightExits⟩ := exists_relabel_iff.mp ⟨right, rightMade⟩
  have leftDomain := entries_relabel leftMade
  have rightDomain := entries_relabel rightMade
  have entries : early.entries = f.domain := by
    refine Size.ext ?_
    rw [count_entries_append earlyMade, leftDomain, rightDomain, Renaming.count_domain_sum entriesMade]
  have exits : early.exits = late.exits := by
    refine Size.ext ?_
    rw [count_exits_append earlyMade, exits_relabel leftMade, exits_relabel rightMade,
      exits_relabel lateMade, Renaming.count_codomain_sum exitsMade]
  refine eq_of_get? (entries.trans (entries_relabel lateMade).symm) exits fun label inside => ?_
  have domains : f₁.domain.sum f₂.domain = .ok early.entries :=
    Size.sum_eq_ok_iff.mpr (by rw [entries, Renaming.count_domain_sum entriesMade])
  rw [get?_relabel lateMade (entries ▸ inside)]
  rcases Label.within_sum_cases domains inside with front | ⟨behind, back, rfl⟩
  · have source : (f₁.image label).Within code.entries := leftEntries ▸ f₁.image_within front
    rw [get?_append_left earlyMade (leftDomain ▸ front), get?_relabel leftMade front,
      Renaming.image_sum_left entriesMade front, get?_append_left bothMade source,
      get?_eq_some_block code source]
    refine congrArg some (Block.mapLabels_congr fun target member => ?_)
    exact (Renaming.image_sum_left exitsMade (leftExits ▸ code.target_within source member)).symm
  · have source : (f₂.image behind).Within other.entries := rightEntries ▸ f₂.image_within back
    rw [Renaming.image_sum_right entriesMade back, leftEntries, get?_append_right bothMade,
      ← leftDomain, get?_append_right earlyMade, get?_relabel rightMade back,
      get?_eq_some_block other source]
    simp only [Option.map_some, Block.mapLabels_mapLabels]
    refine congrArg some (Block.mapLabels_congr fun target member => ?_)
    rw [← leftExits, exits_relabel leftMade]
    exact (Renaming.image_sum_right exitsMade (rightExits ▸ other.target_within source member)).symm

end Squares

section Renamed

variable {code other left right both early late : BlockMap Inst Cond} {f₁ g₁ f₂ g₂ : Renaming}
  (leftMade : code.relabel f₁ g₁ = .ok left) (rightMade : other.relabel f₂ g₂ = .ok right)

include leftMade rightMade

/-- What is reindexed late is what is reindexed early. -/
theorem eq_of_appendRelabel (earlyMade : left.append right = .ok early)
    (made : code.appendRelabel other f₁ g₁ f₂ g₂ = .ok late) : early = late := by
  simp only [appendRelabel, bind_eq_ok_iff, mapError_eq_ok_iff] at made
  obtain ⟨both, bothMade, f, entriesMade, g, exitsMade, lateMade⟩ := made
  exact relabel_append_eq leftMade rightMade earlyMade bothMade entriesMade exitsMade lateMade

/-- Where two block maps can be reindexed late, they can be placed side by side when reindexed early. -/
theorem exists_append_of_appendRelabel
    (made : code.appendRelabel other f₁ g₁ f₂ g₂ = .ok late) :
    ∃ early, left.append right = .ok early := by
  simp only [appendRelabel, bind_eq_ok_iff, mapError_eq_ok_iff] at made
  obtain ⟨both, -, f, entriesMade, g, exitsMade, -⟩ := made
  have domain := Renaming.count_domain_sum entriesMade
  have codomain := Renaming.count_codomain_sum exitsMade
  refine exists_append left right ?_ ?_
  · rw [exits_relabel leftMade, exits_relabel rightMade, ← codomain]
    exact g.codomain.fits
  · rw [entries_relabel leftMade, entries_relabel rightMade, ← domain]
    exact f.domain.fits

/-- Where they can be placed side by side before and after, they can be reindexed late. -/
theorem exists_appendRelabel (bothMade : code.append other = .ok both)
    (earlyMade : left.append right = .ok early) :
    ∃ late, code.appendRelabel other f₁ g₁ f₂ g₂ = .ok late := by
  obtain ⟨leftEntries, leftExits⟩ := exists_relabel_iff.mp ⟨left, leftMade⟩
  obtain ⟨rightEntries, rightExits⟩ := exists_relabel_iff.mp ⟨right, rightMade⟩
  have bothEntries := count_entries_append bothMade
  have bothExits := count_exits_append bothMade
  have earlyEntries := count_entries_append earlyMade
  have earlyExits := count_exits_append earlyMade
  rw [← leftEntries, ← rightEntries] at bothEntries
  rw [← leftExits, ← rightExits] at bothExits
  rw [entries_relabel leftMade, entries_relabel rightMade] at earlyEntries
  rw [exits_relabel leftMade, exits_relabel rightMade] at earlyExits
  obtain ⟨f, entriesMade⟩ := Renaming.exists_sum f₁ f₂ (bothEntries ▸ both.entries.fits)
    (earlyEntries ▸ early.entries.fits)
  obtain ⟨g, exitsMade⟩ := Renaming.exists_sum g₁ g₂ (earlyExits ▸ early.exits.fits)
    (bothExits ▸ both.exits.fits)
  have entriesAgree : f.codomain = both.entries :=
    Size.ext ((Renaming.count_codomain_sum entriesMade).trans bothEntries.symm)
  have exitsAgree : g.domain = both.exits :=
    Size.ext ((Renaming.count_domain_sum exitsMade).trans bothExits.symm)
  obtain ⟨late, lateMade⟩ := exists_relabel_iff.mpr ⟨entriesAgree, exitsAgree⟩
  refine ⟨late, ?_⟩
  simp only [appendRelabel, bind_eq_ok_iff, mapError_eq_ok_iff]
  exact ⟨both, bothMade, f, entriesMade, g, exitsMade, lateMade⟩

end Renamed

/-- Reindexing is natural in block maps side by side. Where the maps can be reindexed each, and placed
side by side as they are, one way comes out exactly when the other does, and both come to the same. -/
theorem relabel_append_natural_iff {code other result : BlockMap Inst Cond} {f₁ g₁ f₂ g₂ : Renaming} :
    (∃ left, code.relabel f₁ g₁ = .ok left) ∧ (∃ right, other.relabel f₂ g₂ = .ok right) ∧
        code.appendRelabel other f₁ g₁ f₂ g₂ = .ok result ↔
      (∃ both, code.append other = .ok both) ∧
        code.relabelAppend other f₁ g₁ f₂ g₂ = .ok result := by
  constructor
  · rintro ⟨⟨left, leftMade⟩, ⟨right, rightMade⟩, lateMade⟩
    obtain ⟨both, bothMade, -⟩ := bind_eq_ok_iff.mp lateMade
    obtain ⟨early, earlyMade⟩ := exists_append_of_appendRelabel leftMade rightMade lateMade
    obtain rfl := eq_of_appendRelabel leftMade rightMade earlyMade lateMade
    simp only [relabelAppend, bind_eq_ok_iff]
    exact ⟨⟨both, bothMade⟩, left, leftMade, right, rightMade, earlyMade⟩
  · rintro ⟨⟨both, bothMade⟩, made⟩
    simp only [relabelAppend, bind_eq_ok_iff] at made
    obtain ⟨left, leftMade, right, rightMade, earlyMade⟩ := made
    obtain ⟨late, lateMade⟩ := exists_appendRelabel leftMade rightMade bothMade earlyMade
    obtain rfl := eq_of_appendRelabel leftMade rightMade earlyMade lateMade
    exact ⟨⟨left, leftMade⟩, ⟨right, rightMade⟩, lateMade⟩

/-- Block maps are a strict monoidal product.
* They can be placed side by side unless a sum of their spaces is too large, and that is the only refusal.
The block map that comes out consists of their blocks, each label and each target in its place in a sum.
That each target is checked as it is placed never matters.
* Placing side by side is associative, refusals included, and the map without labels is a unit.
* Reindexing each of two maps and then placing them side by side is the same as placing them side by side
and then reindexing by the sums. -/
theorem append_strict_monoidal (first second third : BlockMap Inst Cond) (f₁ g₁ f₂ g₂ : Renaming) :
    ((∀ error, first.append second = .error error ↔
          (Size.limit ≤ first.entries.count + second.entries.count ∨
            Size.limit ≤ first.exits.count + second.exits.count) ∧ error = .label .overflow) ∧
        (∀ joined, first.append second = .ok joined ↔ Joins first second joined) ∧
        Agrees (first.raw.append second.raw) raw (first.append second)) ∧
      ((first.append second >>= fun early => early.append third) =
          (second.append third >>= fun late => first.append late) ∧
        ofBlocks .zero #[] = .ok (empty : BlockMap Inst Cond) ∧
        empty.append first = .ok first ∧ first.append empty = .ok first) ∧
      ∀ result,
        (∃ left, first.relabel f₁ g₁ = .ok left) ∧ (∃ right, second.relabel f₂ g₂ = .ok right) ∧
            first.appendRelabel second f₁ g₁ f₂ g₂ = .ok result ↔
          (∃ both, first.append second = .ok both) ∧
            first.relabelAppend second f₁ g₁ f₂ g₂ = .ok result := by
  refine ⟨⟨fun error => ?_, fun joined => append_eq_ok_iff_joins, agrees_append first second⟩,
    ⟨append_assoc first second third, ofBlocks_zero, empty_append first, append_empty first⟩,
    fun result => relabel_append_natural_iff⟩
  rw [append_eq_error_iff, or_comm]

end Flowgraph.BlockMap
