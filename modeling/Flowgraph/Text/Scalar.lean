import Flowgraph.Text.Quoted

/-!
# Scalars

Plain values, as the operands of conditions are. Each kind of scalar has one written form, and the
forms of different kinds never agree.
-/

namespace Flowgraph.Text

/-- A plain value. -/
inductive Scalar where
  /-- The value that carries no information. -/
  | unit
  | bool (value : Bool)
  | int (value : Int)
  | text (value : String)
  deriving DecidableEq, Repr

/-- The written form of a plain value. -/
def Scalar.render : Scalar → String
  | unit => "()"
  | bool value => if value then "true" else "false"
  | int value => toString value
  | text value => quote value

end Flowgraph.Text
