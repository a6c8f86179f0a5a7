import Flowgraph.Draft.Basic

/-!
# From a draft to a fragment

The hidden labels of a draft become the hidden labels of the fragment, its entries and exits the
interface, each in the order of declaration. A branch may name hidden labels and exits; an entry is
only for those who come from outside. Hidden labels and then entries are looked at in order, and the
first fault that is met is the one that is reported.
-/

namespace Flowgraph.Draft

variable {Inst Cond : Type}

/-- The label that a branch target is to become: hidden labels come first, then exits. -/
def resolve (draft : Draft Inst Cond) (target : String) : Except DraftError Label :=
  match draft.hiddenNames.idxOf? target with
  | some index => .ok ⟨index⟩
  | none =>
    match draft.exits.idxOf? target with
    | some index => .ok ⟨draft.hidden.length + index⟩
    | none => .error (.unknownLabel target)

/-- The block of a declaration, with its targets resolved one after the other. -/
def resolveBlock (draft : Draft Inst Cond) (declaration : Declaration Inst Cond) :
    Except DraftError (Block Inst Cond Label) :=
  match declaration.block? with
  | some block => block.mapLabelsM draft.resolve
  | none => .error (.missingBlock declaration.name)

/-- The size with a given count. A count that does not fit is a failure of label arithmetic. -/
def fittingSize (count : Nat) : Except DraftError Size :=
  match Size.ofNat? count with
  | some size => .ok size
  | none => .error (.fragment (.label .overflow))

/-- Finish a draft. The draft itself can be continued afterwards. -/
def assemble (draft : Draft Inst Cond) : Except DraftError (Fragment Inst Cond) := do
  let blocks ← (draft.hidden ++ draft.entries).mapM draft.resolveBlock
  let internal ← fittingSize draft.hidden.length
  let inputs ← fittingSize draft.entries.length
  let outputs ← fittingSize draft.exits.length
  let exits ← fittingSize (draft.hidden.length + draft.exits.length)
  let code ← (BlockMap.ofBlocks exits blocks.toArray).mapError .blockMap
  (Fragment.ofCode internal inputs outputs code).mapError .fragment

end Flowgraph.Draft
