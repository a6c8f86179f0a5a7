import Flowgraph.Draft.Assemble
import Flowgraph.Proofs.BlockMap.Lookup
import Flowgraph.Proofs.Fragment.Append
import Mathlib.Data.List.Basic

/-!
# What becomes of the names

A finished draft has numbers in place of names. Both sides of the code number the hidden labels first;
behind them, the side of the blocks goes on with the entries, and the side of the branches with the
exits. `Draft.position` and `Draft.target` say so for a name, and the statements here read
a finished fragment in these terms: where it has a block, which it is, and what its branches have become.
-/

namespace Flowgraph

section Traversals

variable {E Inst Cond L M : Type} {known : L → Prop} {rename : L → M} {step : L → Except E M}
  (steps : ∀ label renamed, step label = .ok renamed ↔ known label ∧ rename label = renamed)

include steps

/-- The labels of a branch are replaced without failure exactly when all of them are known. -/
theorem Branch.mapLabelsM_eq_ok_iff {branch : Branch Cond L} {mapped : Branch Cond M} :
    branch.mapLabelsM step = .ok mapped ↔
      (∀ label ∈ branch.labels, known label) ∧ branch.mapLabels rename = mapped := by
  cases branch with
  | jump target =>
    simp only [mapLabelsM, bind_eq_ok_iff, pure_eq_ok_iff, steps]
    simp [labels, mapLabels]
  | conditional test whenTrue whenFalse =>
    simp only [mapLabelsM, bind_eq_ok_iff, pure_eq_ok_iff, steps]
    simp [labels, mapLabels, and_assoc]
  | halt => simp [mapLabelsM, labels, mapLabels, pure_eq_ok_iff]

/-- So are the labels of a block. -/
theorem Block.mapLabelsM_eq_ok_iff {block : Block Inst Cond L} {mapped : Block Inst Cond M} :
    block.mapLabelsM step = .ok mapped ↔
      (∀ label ∈ block.successors, known label) ∧ block.mapLabels rename = mapped := by
  simp only [mapLabelsM, bind_eq_ok_iff, pure_eq_ok_iff, Branch.mapLabelsM_eq_ok_iff steps]
  constructor
  · rintro ⟨_, ⟨known, rfl⟩, rfl⟩
    exact ⟨known, rfl⟩
  · rintro ⟨known, rfl⟩
    exact ⟨_, ⟨known, rfl⟩, rfl⟩

end Traversals

section Failures

variable {E Inst Cond L M : Type} {step : L → Except E M} {error : E}

/-- Replacing the labels of a branch fails as going through the list of them does. -/
theorem Branch.mapLabelsM_eq_error_iff {branch : Branch Cond L} :
    branch.mapLabelsM step = .error error ↔ branch.labels.mapM step = .error error := by
  cases branch with
  | jump target =>
    simp [mapLabelsM, labels, List.mapM_cons, bind_eq_error_iff, pure, Except.pure]
  | conditional test whenTrue whenFalse =>
    simp [mapLabelsM, labels, List.mapM_cons, bind_eq_error_iff, pure, Except.pure]
  | halt => simp [mapLabelsM, labels, pure, Except.pure]

/-- So does replacing those of a block. -/
theorem Block.mapLabelsM_eq_error_iff {block : Block Inst Cond L} :
    block.mapLabelsM step = .error error ↔ block.successors.mapM step = .error error := by
  rw [mapLabelsM, bind_eq_error_iff, Branch.mapLabelsM_eq_error_iff, successors]
  simp [pure, Except.pure]

end Failures

namespace Draft

variable {Inst Cond : Type}

/-- The number of a name when hidden labels are numbered first, and behind them the names of another
kind: its position among its own kind, moved behind the hidden labels if it is not one of them. -/
def numberAmong (draft : Draft Inst Cond) (others : List String) (name : String) : Label :=
  if name ∈ draft.hiddenNames then
    ⟨draft.hiddenNames.idxOf name⟩
  else
    ⟨draft.hidden.length + others.idxOf name⟩

/-- The label at which the block of a hidden label or an entry comes to lie. -/
def position (draft : Draft Inst Cond) (name : String) : Label :=
  draft.numberAmong draft.entryNames name

/-- The label that a branch to a hidden label or an exit comes to have. -/
def target (draft : Draft Inst Cond) (name : String) : Label :=
  draft.numberAmong draft.exits name

/-- The block that a hidden label or an entry has been given. -/
def block? (draft : Draft Inst Cond) (name : String) : Option (Block Inst Cond String) := do
  let declaration ← (draft.hidden ++ draft.entries).find? (·.name == name)
  declaration.block?

variable {draft : Draft Inst Cond} {name : String}

section Numbers

@[simp] theorem length_hiddenNames : draft.hiddenNames.length = draft.hidden.length :=
  List.length_map _

@[simp] theorem length_entryNames : draft.entryNames.length = draft.entries.length :=
  List.length_map _

/-- The number of a hidden label, whatever comes behind. -/
theorem numberAmong_of_hidden (others : List String) (hidden : name ∈ draft.hiddenNames) :
    draft.numberAmong others name = ⟨draft.hiddenNames.idxOf name⟩ :=
  if_pos hidden

/-- The number of any other name. -/
theorem numberAmong_of_not_hidden (others : List String) (visible : name ∉ draft.hiddenNames) :
    draft.numberAmong others name = ⟨draft.hidden.length + others.idxOf name⟩ :=
  if_neg visible

/-- Both numbers are positions in the one list of the two kinds. -/
theorem numberAmong_eq_idxOf (others : List String) (name : String) :
    draft.numberAmong others name = ⟨(draft.hiddenNames ++ others).idxOf name⟩ := by
  by_cases hidden : name ∈ draft.hiddenNames
  · rw [numberAmong_of_hidden others hidden, List.idxOf_append_of_mem hidden]
  · rw [numberAmong_of_not_hidden others hidden, List.idxOf_append_of_notMem hidden,
      length_hiddenNames]

/-- The block of a name is that of the declaration at its position. -/
theorem block?_eq_getElem? (draft : Draft Inst Cond) (name : String) :
    draft.block? name =
      (draft.hidden ++ draft.entries)[(draft.position name).index]?.bind Declaration.block? := by
  have number : (draft.position name).index =
      (draft.hidden ++ draft.entries).findIdx (·.name == name) := by
    rw [position, numberAmong_eq_idxOf, hiddenNames, entryNames, ← List.map_append, List.idxOf,
      List.findIdx_map]
    rfl
  rw [number, ← List.find?_eq_getElem?_findIdx]
  rfl

end Numbers

/-- A name that is in a list is found where it is. -/
theorem idxOf?_of_mem {names : List String} (member : name ∈ names) :
    names.idxOf? name = some (names.idxOf name) :=
  List.findIdx?_eq_some_iff_findIdx_eq.mpr ⟨List.idxOf_lt_length_iff.mpr member, rfl⟩

/-- Branches may go to a hidden label, and leave through an exit. -/
def Targets (draft : Draft Inst Cond) (name : String) : Prop :=
  name ∈ draft.hiddenNames ∨ name ∈ draft.exits

/-- The names of targets have labels, and no others have. -/
theorem resolve_eq_ok_iff (draft : Draft Inst Cond) (name : String) (label : Label) :
    draft.resolve name = .ok label ↔ draft.Targets name ∧ draft.target name = label := by
  unfold resolve
  by_cases hidden : name ∈ draft.hiddenNames
  · simp [idxOf?_of_mem hidden, Targets, hidden, target, numberAmong_of_hidden]
  · have missed : draft.hiddenNames.idxOf? name = none := List.idxOf?_eq_none_iff.mpr hidden
    by_cases exit : name ∈ draft.exits
    · simp [missed, idxOf?_of_mem exit, Targets, exit, target, numberAmong_of_not_hidden _ hidden]
    · have neither : draft.exits.idxOf? name = none := List.idxOf?_eq_none_iff.mpr exit
      simp [missed, neither, Targets, hidden, exit]

/-- Any other name is reported as unknown. -/
theorem resolve_eq_error_iff (draft : Draft Inst Cond) (name : String) (error : DraftError) :
    draft.resolve name = .error error ↔ ¬ draft.Targets name ∧ error = .unknownLabel name := by
  unfold resolve
  by_cases hidden : name ∈ draft.hiddenNames
  · simp [idxOf?_of_mem hidden, Targets, hidden]
  · have missed : draft.hiddenNames.idxOf? name = none := List.idxOf?_eq_none_iff.mpr hidden
    by_cases exit : name ∈ draft.exits
    · simp [missed, idxOf?_of_mem exit, Targets, exit]
    · have neither : draft.exits.idxOf? name = none := List.idxOf?_eq_none_iff.mpr exit
      simp [missed, neither, Targets, hidden, exit, eq_comm]

/-- The block of a declaration can be used when there is one and it branches to targets only. -/
theorem resolveBlock_eq_ok_iff {declaration : Declaration Inst Cond}
    {resolved : Block Inst Cond Label} :
    draft.resolveBlock declaration = .ok resolved ↔
      ∃ block, declaration.block? = some block ∧ (∀ name ∈ block.successors, draft.Targets name) ∧
        block.mapLabels draft.target = resolved := by
  unfold resolveBlock
  split
  · rename_i block found
    rw [Block.mapLabelsM_eq_ok_iff draft.resolve_eq_ok_iff, found]
    simp
  · rename_i missing
    simp [missing]

theorem fittingSize_eq_ok_iff {count : Nat} {size : Size} :
    fittingSize count = .ok size ↔ size.count = count := by
  unfold fittingSize
  rw [← Size.ofNat?_eq_some_iff]
  split <;> simp_all

/-- A draft is finished as a fragment exactly when that has the sizes that are declared, and for each
declaration, in order, the block that it resolves to. -/
theorem assemble_eq_ok_iff {fragment : Fragment Inst Cond} :
    draft.assemble = .ok fragment ↔
      List.Forall₂ (fun declaration block => draft.resolveBlock declaration = .ok block)
        (draft.hidden ++ draft.entries) fragment.code.blocks.toList ∧
      fragment.internal.count = draft.hidden.length ∧
      fragment.inputs.count = draft.entries.length ∧
      fragment.outputs.count = draft.exits.length := by
  simp only [assemble, bind_eq_ok_iff, mapError_eq_ok_iff, mapM_list_eq_ok_iff,
    fittingSize_eq_ok_iff, BlockMap.ofBlocks_eq_ok_iff, Fragment.ofCode_eq_ok_iff]
  constructor
  · rintro ⟨blocks, resolved, _, internal, _, inputs, _, outputs, _, -, code, ⟨-, codeBlocks⟩,
      rfl, rfl, rfl, rfl⟩
    rw [codeBlocks]
    exact ⟨resolved, internal, inputs, outputs⟩
  · rintro ⟨resolved, internal, inputs, outputs⟩
    have exits : fragment.code.exits.count = draft.hidden.length + draft.exits.length := by
      rw [fragment.exits_eq, internal, outputs]
    exact ⟨_, resolved, _, internal, _, inputs, _, outputs, _, exits, _, ⟨rfl, rfl⟩,
      rfl, rfl, rfl, rfl⟩

section Assembled

variable {fragment : Fragment Inst Cond} (made : draft.assemble = .ok fragment)

include made

/-- At the position of a hidden label or an entry lies the block that it has been given, which branches
to targets only, and they have become their labels. -/
theorem get?_assemble (declared : name ∈ draft.hiddenNames ∨ name ∈ draft.entryNames) :
    ∃ block, draft.block? name = some block ∧ (∀ name ∈ block.successors, draft.Targets name) ∧
      fragment.code.get? (draft.position name) = some (block.mapLabels draft.target) := by
  obtain ⟨resolved, -, -, -⟩ := assemble_eq_ok_iff.mp made
  have inside : (draft.position name).index < (draft.hidden ++ draft.entries).length := by
    have listed : name ∈ draft.hiddenNames ++ draft.entryNames := List.mem_append.mpr declared
    have bound := List.idxOf_lt_length_of_mem listed
    rw [position, numberAmong_eq_idxOf]
    simpa using bound
  have placed : (draft.position name).index < fragment.code.blocks.toList.length :=
    resolved.length_eq ▸ inside
  obtain ⟨block, given, targets, made⟩ := resolveBlock_eq_ok_iff.mp (resolved.get inside placed)
  refine ⟨block, ?_, targets, ?_⟩
  · rw [block?_eq_getElem?, List.getElem?_eq_getElem inside]
    exact given
  · rw [BlockMap.get?, ← Array.getElem?_toList, List.getElem?_eq_getElem placed, made]
    rfl

end Assembled

end Draft

end Flowgraph
