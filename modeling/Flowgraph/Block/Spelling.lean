import Flowgraph.Block.Basic

/-!
# How blocks are written

An instruction set decides how its instructions and conditions are written; everything else about
the text of a block is fixed here. Labels are written as the context wants them: by number, by name
or by their place in the interface of a fragment.
-/

namespace Flowgraph

/-- How the instructions and conditions of an instruction set are written. -/
structure Spelling (Inst Cond : Type) where
  inst : Inst → String
  cond : Cond → String

/-- Write a block: each instruction and a semicolon after it, then the branch. -/
def Block.render {Inst Cond L : Type} (spelling : Spelling Inst Cond) (labelText : L → String)
    (block : Block Inst Cond L) : String :=
  let straight := block.insts.map fun inst => s!"{spelling.inst inst}; "
  String.join straight ++ block.branch.render spelling.cond labelText

end Flowgraph
