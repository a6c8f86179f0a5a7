import Flowgraph.Fragment.Basic
import Flowgraph.Block.Spelling

/-!
# How fragments are written

In the text of a fragment, a label is written by its place in the interface and not by its index:
hidden labels, entries and exits are numbered from zero each, and a letter tells which of them is
meant. The first line gives the sizes, then there is one line for each block.
-/

namespace Flowgraph

/-- A label of a fragment, by its place in the interface. -/
inductive Place where
  | hidden (index : Nat)
  | entry (index : Nat)
  | exit (index : Nat)
  deriving DecidableEq, Repr

/-- A place is written as a letter and a number. -/
def Place.text : Place → String
  | hidden index => s!"i{index}"
  | entry index => s!"e{index}"
  | exit index => s!"x{index}"

namespace Fragment

variable {Inst Cond : Type}

/-- The place of a label of the entry space. -/
def entryPlace (fragment : Fragment Inst Cond) (label : Label) : Place :=
  if label.Within fragment.internal then
    .hidden label.index
  else
    .entry (label.index - fragment.internal.count)

/-- The place of a label of the exit space. -/
def targetPlace (fragment : Fragment Inst Cond) (label : Label) : Place :=
  if label.Within fragment.internal then
    .hidden label.index
  else
    .exit (label.index - fragment.internal.count)

/-- The first line of a fragment's text, which gives its sizes. -/
def header (fragment : Fragment Inst Cond) : String :=
  let sizes :=
    s!"internal: {fragment.internal}, inputs: {fragment.inputs}, outputs: {fragment.outputs}"
  s!"unit ({sizes}) \x7b"

/-- The line of a fragment's text for one of its blocks. -/
def blockLine (spelling : Spelling Inst Cond) (fragment : Fragment Inst Cond) (label : Label)
    (block : Block Inst Cond Label) : String :=
  let places := block.mapLabels fragment.targetPlace
  s!"  {(fragment.entryPlace label).text}: {places.render spelling Place.text}"

/-- The lines of a fragment's text. -/
def lines (spelling : Spelling Inst Cond) (fragment : Fragment Inst Cond) : List String :=
  let blocks := fragment.code.blocks.toList.zipIdx.map fun (block, index) =>
    fragment.blockLine spelling ⟨index⟩ block
  fragment.header :: blocks ++ ["\x7d"]

/-- The text of a fragment, without an end of line after the last line. -/
def render (spelling : Spelling Inst Cond) (fragment : Fragment Inst Cond) : String :=
  "\n".intercalate (fragment.lines spelling)

end Fragment

end Flowgraph
