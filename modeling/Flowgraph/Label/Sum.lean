import Flowgraph.Label.Basic

/-!
# Sums of label spaces

The sum of two label spaces is laid out flat: the labels of the left summand come first, and those
of the right summand follow. `Label.split` and the two injections are the two directions of that
layout. The size of the sum is decided before the label is looked at.
-/

namespace Flowgraph

/-- The size of the sum of two label spaces, if it has one. -/
def Size.sum (left right : Size) : Except LabelError Size :=
  match Size.ofNat? (left.count + right.count) with
  | some size => .ok size
  | none => .error .overflow

/-- A sum has a size exactly when the two counts add up to one. -/
theorem Size.sum_eq_ok_iff {left right total : Size} :
    left.sum right = .ok total ↔ total.count = left.count + right.count := by
  unfold Size.sum
  split
  · rename_i size found
    rw [Size.ofNat?_eq_some_iff] at found
    simp [Size.ext_iff, found, eq_comm]
  · rename_i missing
    rw [Size.ofNat?_eq_none_iff] at missing
    have := total.fits
    simp only [reduceCtorEq, false_iff]
    omega

/-- A sum without a size fails with `overflow`, and with nothing else. -/
theorem Size.sum_eq_error_iff {left right : Size} {error : LabelError} :
    left.sum right = .error error ↔
      Size.limit ≤ left.count + right.count ∧ error = .overflow := by
  unfold Size.sum
  split
  · rename_i size found
    rw [Size.ofNat?_eq_some_iff] at found
    have := size.fits
    simp only [reduceCtorEq, false_iff]
    omega
  · rename_i missing
    rw [Size.ofNat?_eq_none_iff] at missing
    simp [missing, eq_comm]

namespace Label

/-- Find the summand that a label of a sum belongs to, and its index there. -/
def split (label : Label) (left right : Size) : Except LabelError (Label ⊕ Label) := do
  let total ← left.sum right
  let label ← label.check total
  if label.Within left then
    return .inl label
  else
    return .inr ⟨label.index - left.count⟩

/-- Place a label of the left summand in the sum. -/
def inl (label : Label) (left right : Size) : Except LabelError Label := do
  let _ ← left.sum right
  label.check left

/-- Place a label of the right summand in the sum. -/
def inr (label : Label) (left right : Size) : Except LabelError Label := do
  let _ ← left.sum right
  let label ← label.check right
  return label.shift left.count

end Label

end Flowgraph
