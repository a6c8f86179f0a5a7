import Flowgraph.BlockMap.Basic
import Flowgraph.Proofs.Renaming.Image

/-!
# Where the blocks of a block map come from

For the two operations that make block maps from others, the statements here say when they come
out and which block they give to each entry, in terms of the blocks that the operands give.
-/

namespace Flowgraph.BlockMap

variable {Inst Cond : Type}

/-- A label has a block exactly when it is an entry. -/
theorem get?_eq_some_block (code : BlockMap Inst Cond) {entry : Label}
    (inside : entry.Within code.entries) : code.get? entry = some (code.block entry inside) :=
  Array.getElem?_eq_getElem inside

/-- A label that is no entry has no block. -/
theorem get?_eq_none (code : BlockMap Inst Cond) {entry : Label}
    (outside : ¬ entry.Within code.entries) : code.get? entry = none :=
  Array.getElem?_eq_none (Nat.not_lt.mp outside)

/-- A label that has a block is an entry. -/
theorem within_of_get? {code : BlockMap Inst Cond} {entry : Label} {block : Block Inst Cond Label}
    (found : code.get? entry = some block) : entry.Within code.entries := by
  obtain ⟨inside, -⟩ := Array.getElem?_eq_some_iff.mp found
  exact inside

/-- Block maps into the same exit space are equal as soon as they give the same blocks. -/
theorem ext_get? {left right : BlockMap Inst Cond} (exits : left.exits = right.exits)
    (blocks : ∀ entry, left.get? entry = right.get? entry) : left = right :=
  BlockMap.ext exits (Array.ext_getElem? fun index => blocks ⟨index⟩)

/-- Block maps between the same spaces are equal as soon as they give the same block to each entry. -/
theorem eq_of_get? {left right : BlockMap Inst Cond} (entries : left.entries = right.entries)
    (exits : left.exits = right.exits)
    (blocks : ∀ entry : Label, entry.Within left.entries → left.get? entry = right.get? entry) :
    left = right := by
  refine ext_get? exits fun entry => ?_
  by_cases inside : entry.Within left.entries
  · exact blocks entry inside
  · rw [get?_eq_none left inside, get?_eq_none right (entries ▸ inside)]

section OfBlocks

variable {exits : Size} {blocks : Array (Block Inst Cond Label)}

/-- Blocks with a branch out of the exit space are refused, and the first such branch is named. -/
theorem ofBlocks_of_dangling {entry target : Label} {rest : List (Label × Label)}
    (found : dangling exits blocks = (entry, target) :: rest) :
    ofBlocks exits blocks = .error (.danglingTarget entry target exits) := by
  unfold ofBlocks
  split
  · rename_i found'
    rw [found] at found'
    cases found'
    rfl
  · rename_i found'
    rw [found] at found'
    cases found'

/-- Blocks that stay in the exit space make a block map, unless they are too many. -/
theorem ofBlocks_of_within
    (within : ∀ block ∈ blocks, ∀ target ∈ block.successors, target.Within exits) :
    ofBlocks exits blocks =
      if fits : blocks.size < Size.limit then .ok ⟨exits, blocks, fits, within⟩
      else .error (.label .overflow) := by
  have found := dangling_eq_nil_iff.mpr within
  unfold ofBlocks
  split
  · rename_i found'
    rw [found] at found'
    cases found'
  · rfl

/-- A block map is made of the blocks that it has, and of no others. -/
theorem ofBlocks_eq_ok_iff {code : BlockMap Inst Cond} :
    ofBlocks exits blocks = .ok code ↔ code.exits = exits ∧ code.blocks = blocks := by
  constructor
  · intro made
    unfold ofBlocks at made
    split at made
    · cases made
    · split at made
      · cases made
        exact ⟨rfl, rfl⟩
      · cases made
  · rintro ⟨rfl, rfl⟩
    rw [ofBlocks_of_within code.targets_within, dif_pos code.entries_fit]

end OfBlocks

section Relabel

variable {code renamed : BlockMap Inst Cond} {f g : Renaming}

/-- A block map can be reindexed exactly when the renamings fit its two spaces. -/
theorem exists_relabel_iff :
    (∃ renamed, code.relabel f g = .ok renamed) ↔
      f.codomain = code.entries ∧ g.domain = code.exits := by
  unfold relabel
  constructor
  · rintro ⟨renamed, made⟩
    split at made
    · rename_i entriesAgree
      split at made
      · rename_i exitsAgree
        exact ⟨entriesAgree, exitsAgree⟩
      · cases made
    · cases made
  · rintro ⟨entriesAgree, exitsAgree⟩
    rw [dif_pos entriesAgree, dif_pos exitsAgree]
    exact ⟨_, rfl⟩

variable (made : code.relabel f g = .ok renamed)

include made

theorem exits_relabel : renamed.exits = g.codomain := by
  obtain ⟨entriesAgree, exitsAgree⟩ := exists_relabel_iff.mp ⟨renamed, made⟩
  rw [relabel, dif_pos entriesAgree, dif_pos exitsAgree] at made
  cases made
  rfl

theorem entries_relabel : renamed.entries = f.domain := by
  obtain ⟨entriesAgree, exitsAgree⟩ := exists_relabel_iff.mp ⟨renamed, made⟩
  rw [relabel, dif_pos entriesAgree, dif_pos exitsAgree] at made
  cases made
  simp [Size.ext_iff]

/-- The block of a reindexed map is read at the image of its entry under `f`, and its targets are
written through `g`. -/
theorem get?_relabel {entry : Label} (inside : entry.Within f.domain) :
    renamed.get? entry = (code.get? (f.image entry)).map (·.mapLabels g.image) := by
  obtain ⟨entriesAgree, exitsAgree⟩ := exists_relabel_iff.mp ⟨renamed, made⟩
  have source : (f.image entry).Within code.entries := entriesAgree ▸ f.image_within inside
  rw [get?_eq_some_block code source]
  rw [relabel, dif_pos entriesAgree, dif_pos exitsAgree] at made
  cases made
  have bound : entry.index < f.images.size := inside
  simp [get?, bound, block, f.image_eq_getElem bound]

end Relabel

/-- Reindexing by identities changes nothing. -/
theorem relabel_identity (code : BlockMap Inst Cond) :
    code.relabel (.identity code.entries) (.identity code.exits) = .ok code := by
  obtain ⟨renamed, made⟩ := exists_relabel_iff.mpr
    ⟨Renaming.codomain_identity code.entries, Renaming.domain_identity code.exits⟩
  rw [made]
  have entries : renamed.entries = code.entries :=
    (entries_relabel made).trans (Renaming.domain_identity _)
  have exits : renamed.exits = code.exits := exits_relabel made
  have stays : (Renaming.identity code.exits).image = fun label => label :=
    funext (Renaming.image_identity code.exits)
  refine congrArg Except.ok (eq_of_get? entries exits fun entry inside => ?_)
  have source : entry.Within (Renaming.identity code.entries).domain := by
    rw [Renaming.domain_identity, ← entries]
    exact inside
  rw [get?_relabel made source, Renaming.image_identity, stays]
  simp

section Twice

variable {code middle : BlockMap Inst Cond} {f₁ g₁ f₂ g₂ f g : Renaming}

/-- Reindexing twice is reindexing once by composites. Entries are read against the direction of their
renamings, so the second of these comes first. -/
theorem relabel_relabel_eq (middleMade : code.relabel f₁ g₁ = .ok middle)
    (entriesMade : f₂.andThen f₁ = .ok f) (exitsMade : g₁.andThen g₂ = .ok g) :
    middle.relabel f₂ g₂ = code.relabel f g := by
  obtain ⟨entriesAgree, exitsAgree⟩ := exists_relabel_iff.mp ⟨_, middleMade⟩
  obtain ⟨meet, fCodomain, -⟩ := Renaming.andThen_eq_ok_iff.mp entriesMade
  obtain ⟨exitsMeet, gCodomain, -⟩ := Renaming.andThen_eq_ok_iff.mp exitsMade
  have fDomain := Renaming.domain_andThen entriesMade
  have gDomain := Renaming.domain_andThen exitsMade
  obtain ⟨twice, twiceMade⟩ := exists_relabel_iff.mpr
    (show f₂.codomain = middle.entries ∧ g₂.domain = middle.exits from
      ⟨meet.trans (entries_relabel middleMade).symm,
        exitsMeet.symm.trans (exits_relabel middleMade).symm⟩)
  obtain ⟨once, onceMade⟩ := exists_relabel_iff.mpr
    (show f.codomain = code.entries ∧ g.domain = code.exits from
      ⟨fCodomain.trans entriesAgree, gDomain.trans exitsAgree⟩)
  have twiceEntries := entries_relabel twiceMade
  rw [twiceMade, onceMade]
  refine congrArg Except.ok (eq_of_get? ?_ ?_ fun entry inside => ?_)
  · rw [twiceEntries, entries_relabel onceMade, fDomain]
  · rw [exits_relabel twiceMade, exits_relabel onceMade, gCodomain]
  · rw [twiceEntries] at inside
    have image : (f₂.image entry).Within f₁.domain := meet ▸ f₂.image_within inside
    have source : (f₁.image (f₂.image entry)).Within code.entries :=
      entriesAgree ▸ f₁.image_within image
    rw [get?_relabel twiceMade inside, get?_relabel middleMade image,
      get?_relabel onceMade (fDomain ▸ inside), Renaming.image_andThen entriesMade inside,
      get?_eq_some_block code source]
    simp only [Option.map_some, Block.mapLabels_mapLabels]
    refine congrArg some (Block.mapLabels_congr fun target member => ?_)
    exact (Renaming.image_andThen exitsMade (exitsAgree ▸ code.target_within source member)).symm

/-- And it comes out exactly when the composites exist and fit. -/
theorem relabel_relabel_eq_ok_iff {renamed : BlockMap Inst Cond} :
    (code.relabel f₁ g₁ >>= fun middle => middle.relabel f₂ g₂) = .ok renamed ↔
      ∃ f g : Renaming, f₂.andThen f₁ = .ok f ∧ g₁.andThen g₂ = .ok g ∧
        code.relabel f g = .ok renamed := by
  rw [bind_eq_ok_iff]
  constructor
  · rintro ⟨middle, middleMade, made⟩
    obtain ⟨meet, exitsMeet⟩ := exists_relabel_iff.mp ⟨_, made⟩
    obtain ⟨f, entriesMade⟩ := Renaming.exists_andThen (meet.trans (entries_relabel middleMade))
    obtain ⟨g, exitsMade⟩ :=
      Renaming.exists_andThen ((exits_relabel middleMade).symm.trans exitsMeet.symm)
    rw [relabel_relabel_eq middleMade entriesMade exitsMade] at made
    exact ⟨f, g, entriesMade, exitsMade, made⟩
  · rintro ⟨f, g, entriesMade, exitsMade, made⟩
    obtain ⟨entriesAgree, exitsAgree⟩ := exists_relabel_iff.mp ⟨_, made⟩
    obtain ⟨-, fCodomain, -⟩ := Renaming.andThen_eq_ok_iff.mp entriesMade
    have gDomain := Renaming.domain_andThen exitsMade
    obtain ⟨middle, middleMade⟩ := exists_relabel_iff.mpr
      (show f₁.codomain = code.entries ∧ g₁.domain = code.exits from
        ⟨fCodomain.symm.trans entriesAgree, gDomain.symm.trans exitsAgree⟩)
    rw [← relabel_relabel_eq middleMade entriesMade exitsMade] at made
    exact ⟨middle, middleMade, made⟩

end Twice

section Append

variable {code other joined : BlockMap Inst Cond}

/-- Block maps can be placed side by side exactly when the exits have a sum and the blocks fit, and
the blocks on the right are those of the second, with their targets moved behind the first exits. -/
theorem append_eq_ok_iff :
    code.append other = .ok joined ↔
      joined.exits.count = code.exits.count + other.exits.count ∧
        joined.blocks =
          code.blocks ++ other.blocks.map (·.mapLabels (·.shift code.exits.count)) := by
  unfold append
  split
  · rename_i error exitsFound
    have wide := (Size.sum_eq_error_iff.mp exitsFound).1
    have fits := joined.exits.fits
    simp only [reduceCtorEq, false_iff, not_and]
    omega
  · rename_i exits exitsFound
    rw [Size.sum_eq_ok_iff] at exitsFound
    split
    · rename_i error entriesFound
      have wide := (Size.sum_eq_error_iff.mp entriesFound).1
      have fits := joined.entries_fit
      simp only [reduceCtorEq, false_iff, not_and]
      intro _ blocks
      simp only [blocks, Array.size_append, Array.size_map, count_entries] at fits wide
      omega
    · simp [BlockMap.ext_iff, Size.ext_iff, exitsFound, eq_comm]

/-- Block maps cannot be placed side by side exactly when a sum of their spaces is too large. -/
theorem append_eq_error_iff {error : BlockMapError} :
    code.append other = .error error ↔
      (Size.limit ≤ code.exits.count + other.exits.count ∨
        Size.limit ≤ code.entries.count + other.entries.count) ∧ error = .label .overflow := by
  unfold append
  split
  · rename_i reported exitsFound
    obtain ⟨wide, rfl⟩ := Size.sum_eq_error_iff.mp exitsFound
    simp [wide, eq_comm]
  · rename_i exits exitsFound
    have narrow : code.exits.count + other.exits.count < Size.limit :=
      Size.sum_eq_ok_iff.mp exitsFound ▸ exits.fits
    split
    · rename_i reported entriesFound
      obtain ⟨wide, rfl⟩ := Size.sum_eq_error_iff.mp entriesFound
      simp only [Except.error.injEq, wide, or_true, true_and, eq_comm]
    · rename_i entries entriesFound
      have narrowEntries : code.entries.count + other.entries.count < Size.limit :=
        Size.sum_eq_ok_iff.mp entriesFound ▸ entries.fits
      simp only [reduceCtorEq, false_iff]
      omega

/-- Block maps whose spaces have sums can be placed side by side. -/
theorem exists_append (code other : BlockMap Inst Cond)
    (exits : code.exits.count + other.exits.count < Size.limit)
    (entries : code.entries.count + other.entries.count < Size.limit) :
    ∃ joined, code.append other = .ok joined := by
  refine exists_ok_of_ne_error fun error failed => ?_
  have wide := (append_eq_error_iff.mp failed).1
  omega

variable (made : code.append other = .ok joined)

include made

theorem count_exits_append : joined.exits.count = code.exits.count + other.exits.count :=
  (append_eq_ok_iff.mp made).1

theorem count_entries_append :
    joined.entries.count = code.entries.count + other.entries.count := by
  simp [(append_eq_ok_iff.mp made).2]

/-- The entries in front have the blocks of the first map. -/
theorem get?_append_left {entry : Label} (inside : entry.Within code.entries) :
    joined.get? entry = code.get? entry := by
  rw [get?, (append_eq_ok_iff.mp made).2, Array.getElem?_append_left inside]
  rfl

/-- The entries behind have the blocks of the second map, with moved targets. -/
theorem get?_append_right (entry : Label) :
    joined.get? (entry.shift code.entries.count) =
      (other.get? entry).map (·.mapLabels (·.shift code.exits.count)) := by
  rw [get?, (append_eq_ok_iff.mp made).2, Array.getElem?_append_right (by simp)]
  simp [get?]

end Append

end Flowgraph.BlockMap
