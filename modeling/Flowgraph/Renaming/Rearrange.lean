import Flowgraph.Renaming.Compose

/-!
# Renamings that rearrange the summands of a sum

Sums are laid out flat, so regrouping a sum of three spaces changes no index, and every other
rearrangement comes down to exchanging two neighbours. `Renaming.interchange`, which pairs up the
summands of two sums, is put together from these pieces. All of them can only fail because a sum
has no size.
-/

namespace Flowgraph.Renaming

/-- A label of a sum stays in it when its two summands are exchanged. -/
theorem within_of_exchanged {a b total : Size} (found : a.sum b = .ok total)
    (label : Fin total.count) :
    Label.Within ⟨if label < a.count then b.count + label else label - a.count⟩ total := by
  have := Size.sum_eq_ok_iff.mp found
  have := label.isLt
  simp only [Label.Within]
  split <;> omega

/-- Exchange the summands: `a + b → b + a`. -/
def swap (a b : Size) : Except LabelError Renaming :=
  match found : a.sum b with
  | .error error => .error error
  | .ok total =>
    .ok {
      codomain := total
      images := Array.ofFn fun label : Fin total.count =>
        ⟨if label < a.count then b.count + label else label - a.count⟩
      domain_fits := by simpa using total.fits
      images_within := by
        intro image member
        obtain ⟨label, rfl⟩ := Array.mem_ofFn.mp member
        exact within_of_exchanged found label }

/-- Regroup to the right: `(a + b) + c → a + (b + c)`. -/
def regroupRight (a b c : Size) : Except LabelError Renaming := do
  let left ← a.sum b
  return identity (← left.sum c)

/-- Regroup to the left: `a + (b + c) → (a + b) + c`. -/
def regroupLeft (a b c : Size) : Except LabelError Renaming := do
  let right ← b.sum c
  return identity (← a.sum right)

/-- Exchange the middle summands: `(a + b) + (c + d) → (a + c) + (b + d)`. -/
def interchange (a b c d : Size) : Except LabelError Renaming := do
  let regrouped ← regroupRight a b (← c.sum d)
  let paired ← regrouped.andThen (← (identity a).sum (← regroupLeft b c d))
  let swapped ← paired.andThen (← (identity a).sum (← (← swap b c).sum (identity d)))
  let unpaired ← swapped.andThen (← (identity a).sum (← regroupRight c b d))
  unpaired.andThen (← regroupLeft a c (← b.sum d))

end Flowgraph.Renaming
