import Flowgraph.Draft.Assemble

/-!
# All failures of making fragments

Every failure of label arithmetic, block maps, fragments and drafts can be held as one `Error`,
which says in its report what part of the work it comes from.
-/

namespace Flowgraph

/-- A failure from any part of the making of fragments. -/
inductive Error where
  | label (error : LabelError)
  | blockMap (error : BlockMapError)
  | fragment (error : FragmentError)
  | draft (error : DraftError)
  deriving DecidableEq, Repr

namespace Error

/-- What a failure is reported as. -/
def message : Error → String
  | label error => s!"label space error: {error.message}"
  | blockMap error => s!"block map error: {error.message}"
  | fragment error => s!"unit error: {error.message}"
  | draft error => s!"unit builder error: {error.message}"

/-- The reports of the failures that led to this one, nearest first. -/
def causes : Error → List String
  | label error => [error.message]
  | blockMap error => error.message :: error.causes
  | fragment error => error.message :: error.causes
  | draft error => error.message :: error.causes

end Error

end Flowgraph
