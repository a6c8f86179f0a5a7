import Flowgraph.Label.Size

/-!
# Labels

A label is a position in some label space. It does not know the space: whoever holds it (a block
map, a renaming) is responsible for the bound, and `Label.check` is how the bound is decided.
-/

namespace Flowgraph

/-- A label, which is an index into some label space. -/
structure Label where
  index : Nat
  deriving DecidableEq, Repr, Inhabited

/-- The ways in which label arithmetic fails. -/
inductive LabelError where
  /-- A label is not in the space that it was checked against. -/
  | outOfRange (label : Label) (size : Size)
  /-- Two label spaces that have to agree in size do not. -/
  | sizeMismatch (expected actual : Size)
  /-- A sum of label spaces is too large to have a size. -/
  | overflow
  /-- A renaming without an inverse was to be inverted. -/
  | notBijective
  deriving DecidableEq, Repr

namespace LabelError

/-- What a failure is reported as. -/
def message : LabelError → String
  | outOfRange label size =>
    s!"label {label.index} is out of range for a label space of size {size}"
  | sizeMismatch expected actual =>
    s!"label space size mismatch: expected {expected}, got {actual}"
  | overflow => "label space size overflow"
  | notBijective => "renaming is not a bijection"

end LabelError

namespace Label

/-- Labels are ordered by their index. -/
instance : Ord Label where
  compare left right := compare left.index right.index

/-- A label by itself is written `L` and its index. -/
instance : ToString Label where
  toString label := s!"L{label.index}"

/-- Labels are equal as soon as their indexes are. -/
@[ext] theorem ext {left right : Label} (indexes : left.index = right.index) : left = right := by
  cases left
  cases right
  cases indexes
  rfl

/-- The label `offset` places further on. -/
def shift (label : Label) (offset : Nat) : Label := ⟨offset + label.index⟩

@[simp, grind =] theorem index_shift (label : Label) (offset : Nat) :
    (label.shift offset).index = offset + label.index := rfl

/-- A label is in the space of a size when its index is below it. -/
def Within (label : Label) (size : Size) : Prop := label.index < size.count

instance (label : Label) (size : Size) : Decidable (label.Within size) :=
  inferInstanceAs (Decidable (label.index < size.count))

/-- The label itself if it lies in the space of the given size. -/
def check (label : Label) (size : Size) : Except LabelError Label :=
  if label.Within size then .ok label else .error (.outOfRange label size)

/-- A check succeeds exactly on the labels of the space, and returns them unchanged. -/
theorem check_eq_ok_iff {label checked : Label} {size : Size} :
    label.check size = .ok checked ↔ label.Within size ∧ checked = label := by
  unfold check
  split <;> simp_all [eq_comm]

/-- A check that fails names the label and the size. -/
theorem check_eq_error_iff {label : Label} {size : Size} {error : LabelError} :
    label.check size = .error error ↔
      ¬ label.Within size ∧ error = .outOfRange label size := by
  unfold check
  split <;> simp_all [eq_comm]

/-- The labels of the space with `count` labels, in order. -/
def range (count : Nat) : List Label := (List.range count).map Label.mk

end Label

end Flowgraph
