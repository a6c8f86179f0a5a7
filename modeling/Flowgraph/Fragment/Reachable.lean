import Flowgraph.Fragment.Basic

/-!
# Labels that control can reach

Control enters a fragment at an entry of its interface and moves on from block to block as long as
it goes to hidden labels. `Fragment.reachable` is the set of labels it can come to, whatever the
conditions say; the blocks of the other labels are kept, but they never run.
-/

namespace Flowgraph.Fragment

variable {Inst Cond : Type}

/-- The hidden labels that the block at a label can go on to. -/
def continuations (fragment : Fragment Inst Cond) (label : Label) : List Label :=
  match fragment.code.get? label with
  | some block => block.successors.filter fun target => target.Within fragment.internal
  | none => []

/-- The labels of the code at which control enters. -/
def starts (fragment : Fragment Inst Cond) : List Label :=
  (Label.range fragment.inputs.count).map (·.shift fragment.internal.count)

/-- Marking a label that was not marked leaves fewer unmarked labels. -/
theorem count_false_set_lt {seen : Array Bool} {index : Nat} (unseen : seen[index]? = some false) :
    (seen.setIfInBounds index true).count false < seen.count false := by
  obtain ⟨bound, value⟩ := Array.getElem?_eq_some_iff.mp unseen
  have positive : 0 < seen.count false :=
    Array.count_pos_iff.mpr (value ▸ Array.getElem_mem bound)
  rw [Array.setIfInBounds_def, dif_pos bound, Array.count_set, value]
  change seen.count false - 1 + 0 < seen.count false
  omega

/-- Mark all labels that can be reached from the pending ones through labels without a mark. -/
def explore (fragment : Fragment Inst Cond) (pending : List Label) (seen : Array Bool) :
    Array Bool :=
  match pending with
  | [] => seen
  | label :: rest =>
    if seen[label.index]? = some false then
      explore fragment (fragment.continuations label ++ rest) (seen.setIfInBounds label.index true)
    else
      explore fragment rest seen
termination_by (seen.count false, pending.length)
decreasing_by
  · exact Prod.Lex.left _ _ (count_false_set_lt ‹_›)
  · exact Prod.Lex.right _ (by simp)

/-- For each label of the code, whether control can reach it. -/
def reachMarks (fragment : Fragment Inst Cond) : Array Bool :=
  fragment.explore fragment.starts (Array.replicate fragment.code.entries.count false)

/-- The labels that control can reach from the interface, in ascending order. -/
def reachable (fragment : Fragment Inst Cond) : List Label :=
  let marks := fragment.reachMarks
  (Label.range fragment.code.entries.count).filter fun label => marks[label.index]? == some true

/-- The hidden labels that control cannot reach from the interface, in ascending order. -/
def unreachable (fragment : Fragment Inst Cond) : List Label :=
  let marks := fragment.reachMarks
  (Label.range fragment.internal.count).filter fun label => marks[label.index]? != some true

end Flowgraph.Fragment
