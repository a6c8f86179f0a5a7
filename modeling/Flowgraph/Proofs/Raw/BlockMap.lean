import Flowgraph.Proofs.BlockMap.Lookup
import Flowgraph.Proofs.Raw.Agreement

/-!
# Block maps without proofs

Each operation of `BlockMap.Raw` agrees with the operation on block maps. This is where lookups are
shown to find something: after the sizes have been compared, a renaming leads only to entries that
have a block, each target of such a block can be renamed, and each target has a place in a sum. The
tables that come out are in order, as they are trusted to be.
-/

namespace Flowgraph

open Unguarded

variable {E Inst Cond : Type}

/-- The labels of a block are replaced without failure when each of them is. -/
theorem Block.mapLabelsM_eq_ok {L M : Type} {step : L → Except E M} {rename : L → M}
    {block : Block Inst Cond L}
    (steps : ∀ label ∈ block.successors, step label = .ok (rename label)) :
    block.mapLabelsM step = .ok (block.mapLabels rename) := by
  obtain ⟨insts, branch⟩ := block
  cases branch with
  | jump target =>
    have only := steps target (by simp [Block.successors, Branch.labels])
    simp only [Block.mapLabelsM, Branch.mapLabelsM, only]
    rfl
  | conditional test whenTrue whenFalse =>
    have first := steps whenTrue (by simp [Block.successors, Branch.labels])
    have second := steps whenFalse (by simp [Block.successors, Branch.labels])
    simp only [Block.mapLabelsM, Branch.mapLabelsM, first, second]
    rfl
  | halt => rfl

namespace BlockMap

@[simp] theorem exits_raw (code : BlockMap Inst Cond) : code.raw.exits = code.exits := rfl

/-- The blocks of a block map can be counted. -/
@[simp] theorem entries_raw (code : BlockMap Inst Cond) : code.raw.entries = .ok code.entries := by
  have counted : Size.ofNat? code.blocks.size = some code.entries :=
    Size.ofNat?_eq_some_iff.mpr rfl
  rw [Raw.entries, raw, counted]

/-- At each entry of a block map there is a block. -/
theorem fetch_raw (code : BlockMap Inst Cond) {entry : Label} (inside : entry.Within code.entries) :
    code.raw.fetch entry = .ok (code.block entry inside) := by
  have found : code.blocks[entry.index]? = some (code.block entry inside) :=
    code.get?_eq_some_block inside
  rw [Raw.fetch, raw, found]

/-- The parts of a block map fit together. -/
theorem ofParts_eq_ok {code : BlockMap Inst Cond} {exits : Size}
    {blocks : Array (Block Inst Cond Label)} (sameExits : code.exits = exits)
    (sameBlocks : code.blocks = blocks) : Raw.ofParts exits blocks = .ok code.raw := by
  subst sameExits sameBlocks
  rw [Raw.ofParts, dangling_eq_nil_iff.mpr code.targets_within]
  rfl

theorem agrees_ofBlocks (exits : Size) (blocks : Array (Block Inst Cond Label)) :
    Agrees (Raw.ofBlocks exits blocks) raw (ofBlocks exits blocks) := by
  unfold Raw.ofBlocks
  split
  · rename_i entry target rest found
    rw [ofBlocks_of_dangling found]
    exact agrees_error raw _
  · rename_i found
    have within := dangling_eq_nil_iff.mp found
    rw [ofBlocks_of_within within]
    by_cases fits : blocks.size < Size.limit
    · rw [if_pos fits, dif_pos fits]
      exact agrees_trusting (ofParts_eq_ok rfl rfl)
    · rw [if_neg fits, dif_neg fits]
      exact agrees_error raw _

theorem agrees_ofFn (entries exits : Size) (f : Label → Block Inst Cond Label) :
    Agrees (Raw.ofFn entries exits f) raw (ofFn entries exits f) :=
  agrees_ofBlocks exits _

/-- Reindexing finds every block that it looks for, and renames only targets that the renaming is
defined on, as soon as the sizes have been compared. -/
theorem agrees_relabel (code : BlockMap Inst Cond) (f g : Renaming) :
    Agrees (code.raw.relabel f g) raw (code.relabel f g) := by
  unfold Raw.relabel relabel
  rw [entries_raw, trusting_ok_bind, exits_raw]
  refine agrees_dite (fun entriesAgree => ?_) fun _ => agrees_error raw _
  refine agrees_dite (fun exitsAgree => ?_) fun _ => agrees_error raw _
  refine agrees_trusting ?_
  have traversed : (f.images.mapM fun source => do
      let block ← code.raw.fetch source
      block.mapLabelsM fun target => (g.apply target).mapError .outsideDomain) =
        .ok (Array.ofFn fun entry : Fin f.images.size =>
          (code.block f.images[entry]
            (entriesAgree ▸ f.images_within _ (Array.getElem_mem _))).mapLabels g.image) := by
    refine mapM_array_eq_ok (by simp) fun index inside placed => ?_
    have source : f.images[index].Within code.entries :=
      entriesAgree ▸ f.images_within _ (Array.getElem_mem inside)
    rw [fetch_raw code source, Array.getElem_ofFn]
    refine Block.mapLabelsM_eq_ok fun target member => ?_
    have bound : target.Within g.domain := exitsAgree ▸ code.target_within source member
    rw [g.apply_eq_ok bound]
    rfl
  rw [traversed]
  exact ofParts_eq_ok rfl rfl

/-- Targets are placed elsewhere without failure when each of them has a place. -/
theorem placeTargets_eq_ok {place : Label → Except LabelError Label} {rename : Label → Label}
    {blocks : Array (Block Inst Cond Label)}
    (places : ∀ block ∈ blocks, ∀ target ∈ block.successors, place target = .ok (rename target)) :
    Raw.placeTargets place blocks = .ok (blocks.map (·.mapLabels rename)) := by
  have traversed : blocks.mapM (Block.mapLabelsM place) =
      .ok (blocks.map (·.mapLabels rename)) := by
    refine mapM_array_eq_ok (by simp) fun index inside placed => ?_
    rw [Array.getElem_map]
    exact Block.mapLabelsM_eq_ok (places _ (Array.getElem_mem inside))
  rw [Raw.placeTargets, traversed]
  rfl

/-- Placing two block maps side by side finds a place for every target of either. -/
theorem agrees_append (code other : BlockMap Inst Cond) :
    Agrees (code.raw.append other.raw) raw (code.append other) := by
  unfold Raw.append append
  refine agrees_sum fun exits exitsFound => ?_
  rw [entries_raw, entries_raw, trusting_ok_bind, trusting_ok_bind]
  refine agrees_sum fun entries entriesFound => ?_
  have first : Raw.placeTargets (·.inl code.exits other.exits) code.blocks = .ok code.blocks := by
    have placed : Raw.placeTargets (·.inl code.exits other.exits) code.blocks =
        .ok (code.blocks.map (·.mapLabels fun target => target)) :=
      placeTargets_eq_ok fun block member target targetMember =>
        Label.inl_eq_ok exitsFound (code.targets_within block member target targetMember)
    simpa using placed
  have second : Raw.placeTargets (·.inr code.exits other.exits) other.blocks =
      .ok (other.blocks.map (·.mapLabels (·.shift code.exits.count))) :=
    placeTargets_eq_ok fun block member target targetMember =>
      Label.inr_eq_ok exitsFound (other.targets_within block member target targetMember)
  simp only [raw, first, second, ordinary_ok_bind]
  exact agrees_trusting (ofParts_eq_ok rfl rfl)

end BlockMap

end Flowgraph
