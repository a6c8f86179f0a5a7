/-!
# Sizes of label spaces

A label space is a finite initial segment of the naturals, so it is known by its size alone. Sizes
are bounded by `Size.limit`; `Size.ofNat?` is the one place where that bound is decided, and every
type that holds a size inherits it from here.
-/

namespace Flowgraph

/-- Every size is strictly below this bound, the number of values of a 64-bit word. -/
abbrev Size.limit : Nat := 18446744073709551616

/-- The number of labels in a label space, which one machine word can hold. -/
structure Size where
  count : Nat
  fits : count < Size.limit
  deriving DecidableEq

namespace Size

/-- Sizes are equal as soon as they count the same number of labels. -/
@[ext] theorem ext {left right : Size} (counts : left.count = right.count) : left = right := by
  cases left
  cases right
  cases counts
  rfl

instance : Repr Size where
  reprPrec size precedence := reprPrec size.count precedence

instance : ToString Size where
  toString size := toString size.count

/-- The size of the space without labels. -/
def zero : Size := ⟨0, by decide⟩

/-- The size of the space with a single label. -/
def one : Size := ⟨1, by decide⟩

instance : Inhabited Size := ⟨zero⟩

/-- Numerals are sizes, and wrap around at the limit as they do for machine words. -/
instance (count : Nat) : OfNat Size count where
  ofNat := ⟨count % limit, Nat.mod_lt count (by decide)⟩

/-- The size with a given count, unless the count does not fit. -/
def ofNat? (count : Nat) : Option Size :=
  if fits : count < limit then some ⟨count, fits⟩ else none

/-- The size that is left when `part` labels are taken out of `whole`. -/
def diff (whole part : Size) : Size :=
  ⟨whole.count - part.count, Nat.lt_of_le_of_lt (Nat.sub_le _ _) whole.fits⟩

@[simp] theorem count_zero : zero.count = 0 := rfl

@[simp] theorem count_one : one.count = 1 := rfl

@[simp] theorem count_diff (whole part : Size) :
    (whole.diff part).count = whole.count - part.count := rfl

/-- A count is a size exactly when it is below the limit. -/
theorem ofNat?_eq_some_iff {count : Nat} {size : Size} :
    ofNat? count = some size ↔ size.count = count := by
  unfold ofNat?
  split
  · simp [Size.ext_iff, eq_comm]
  · rename_i large
    simp only [reduceCtorEq, false_iff]
    intro equal
    exact large (equal ▸ size.fits)

/-- A count is refused exactly from the limit on. -/
theorem ofNat?_eq_none_iff {count : Nat} : ofNat? count = none ↔ limit ≤ count := by
  unfold ofNat?
  split
  · rename_i small
    simp only [reduceCtorEq, false_iff]
    omega
  · rename_i large
    simp only [true_iff]
    omega

end Size

end Flowgraph
