import Flowgraph.Label.Sum
import Flowgraph.Proofs.Except

/-!
# Moving labels

Fragments are put together by giving their labels new places. `Label.shift` moves all labels by the
same distance, and `Label.makeRoom` moves only those from a border on, so that other labels find
room at the border. `Label.exchange` lets two neighbouring groups trade places. `Label.mapVisible` is
a change of the interface alone, seen from the code: the labels before the border are hidden and stay.
-/

namespace Flowgraph.Label

/-- Labels that are moved twice have moved by both distances. -/
theorem shift_shift (label : Label) (inner outer : Nat) :
    (label.shift inner).shift outer = label.shift (outer + inner) := by
  simp [Label.ext_iff, Nat.add_assoc]

/-- Where a label goes when room for `room` labels is made at `border`: labels before the border
stay, and those from the border on make way. -/
def makeRoom (label : Label) (border room : Nat) : Label :=
  if label.index < border then label else label.shift room

theorem makeRoom_of_lt {label : Label} {border room : Nat} (before : label.index < border) :
    label.makeRoom border room = label := by
  rw [makeRoom, if_pos before]

theorem makeRoom_of_le {label : Label} {border room : Nat} (behind : border ≤ label.index) :
    label.makeRoom border room = label.shift room := by
  rw [makeRoom, if_neg (Nat.not_lt.mpr behind)]

@[grind =] theorem index_makeRoom (label : Label) (border room : Nat) :
    (label.makeRoom border room).index =
      if label.index < border then label.index else room + label.index := by
  unfold makeRoom
  split <;> rfl

/-- No label goes further than the room that is made. -/
theorem index_makeRoom_le (label : Label) (border room : Nat) :
    (label.makeRoom border room).index ≤ room + label.index := by
  unfold makeRoom
  split
  · exact Nat.le_add_left _ _
  · exact Nat.le_refl _

/-- A label that lies behind the border by its making goes behind the room. -/
theorem makeRoom_shift (label : Label) (border room : Nat) :
    (label.shift border).makeRoom border room = label.shift (border + room) := by
  rw [makeRoom_of_le (by simp), shift_shift, Nat.add_comm]

/-- Making room twice, the second time behind the first room, makes room for both at once. -/
theorem makeRoom_makeRoom (label : Label) (border first second : Nat) :
    (label.makeRoom border first).makeRoom (border + first) second =
      label.makeRoom border (first + second) := by
  ext
  grind

/-- Labels that were different are different after they have moved. -/
theorem shift_injective (offset : Nat) : Function.Injective fun label : Label => label.shift offset := by
  intro left right same
  have indices := congrArg Label.index same
  simp only [index_shift] at indices
  exact Label.ext (Nat.add_left_cancel indices)

/-- And so they are after room has been made between them. -/
theorem makeRoom_injective (border room : Nat) :
    Function.Injective fun label : Label => label.makeRoom border room := by
  intro left right same
  have indices := congrArg Label.index same
  ext
  grind

/-- Where no room is needed, all labels stay. -/
@[simp] theorem makeRoom_zero (label : Label) (border : Nat) : label.makeRoom border 0 = label := by
  ext
  grind

@[simp] theorem shift_zero (label : Label) : label.shift 0 = label := by
  ext
  simp

/-- A label from a border on is some label moved by the border. -/
theorem exists_eq_shift_of_le {label : Label} {border : Nat} (behind : border ≤ label.index) :
    ∃ inner : Label, label = inner.shift border := by
  refine ⟨⟨label.index - border⟩, ?_⟩
  simp only [Label.ext_iff, index_shift]
  omega

/-- Where a label goes when the labels behind the first `hidden` ones are renamed among themselves,
and the first ones stay. -/
def mapVisible (hidden : Nat) (rename : Label → Label) (label : Label) : Label :=
  if label.index < hidden then label else (rename ⟨label.index - hidden⟩).shift hidden

theorem mapVisible_of_lt {hidden : Nat} {rename : Label → Label} {label : Label}
    (before : label.index < hidden) : label.mapVisible hidden rename = label := by
  rw [mapVisible, if_pos before]

theorem mapVisible_shift (hidden : Nat) (rename : Label → Label) (label : Label) :
    (label.shift hidden).mapVisible hidden rename = (rename label).shift hidden := by
  have behind : ¬ (label.shift hidden).index < hidden := by simp
  rw [mapVisible, if_neg behind]
  simp

/-- Where nothing is hidden, all labels are renamed. -/
@[simp] theorem mapVisible_zero (rename : Label → Label) (label : Label) :
    label.mapVisible 0 rename = rename label := by
  simpa using mapVisible_shift 0 rename label

/-- Only what is done to the visible part of a label matters. -/
theorem mapVisible_congr {hidden : Nat} {rename other : Label → Label} {label : Label}
    (agree : ∀ visible : Label, label = visible.shift hidden → rename visible = other visible) :
    label.mapVisible hidden rename = label.mapVisible hidden other := by
  by_cases before : label.index < hidden
  · rw [mapVisible_of_lt before, mapVisible_of_lt before]
  · obtain ⟨visible, rfl⟩ := exists_eq_shift_of_le (Nat.not_lt.mp before)
    rw [mapVisible_shift, mapVisible_shift, agree visible rfl]

/-- Renaming the visible labels by the identity changes nothing. -/
theorem mapVisible_id {hidden : Nat} {rename : Label → Label}
    (trivial : ∀ label, rename label = label) (label : Label) : label.mapVisible hidden rename = label := by
  by_cases before : label.index < hidden
  · exact mapVisible_of_lt before
  · obtain ⟨inner, rfl⟩ := exists_eq_shift_of_le (Nat.not_lt.mp before)
    rw [mapVisible_shift, trivial]

/-- Labels that are moved by some distance are renamed behind a border that has moved as far. -/
theorem mapVisible_shift_add (label : Label) (distance hidden : Nat) (rename : Label → Label) :
    (label.shift distance).mapVisible (distance + hidden) rename =
      (label.mapVisible hidden rename).shift distance := by
  by_cases before : label.index < hidden
  · rw [mapVisible_of_lt before, mapVisible_of_lt]
    rw [index_shift]
    exact Nat.add_lt_add_left before distance
  · obtain ⟨visible, rfl⟩ := exists_eq_shift_of_le (Nat.not_lt.mp before)
    rw [shift_shift, mapVisible_shift, mapVisible_shift, shift_shift]

/-- Where room is made at the border, they are renamed behind the room. -/
theorem mapVisible_makeRoom (label : Label) (hidden room : Nat) (rename : Label → Label) :
    (label.makeRoom hidden room).mapVisible (hidden + room) rename =
      (label.mapVisible hidden rename).makeRoom hidden room := by
  by_cases before : label.index < hidden
  · rw [makeRoom_of_lt before, mapVisible_of_lt before, makeRoom_of_lt before,
      mapVisible_of_lt (Nat.lt_add_right room before)]
  · obtain ⟨visible, rfl⟩ := exists_eq_shift_of_le (Nat.not_lt.mp before)
    rw [makeRoom_shift, mapVisible_shift, mapVisible_shift, makeRoom_shift]

/-- Where the room lies among the labels that are renamed, what is behind it is renamed behind the room
that comes of it. -/
theorem mapVisible_makeRoom_of_shift {label : Label} {hidden room newRoom : Nat}
    {rename other : Label → Label}
    (agree : ∀ visible : Label, label = visible.shift hidden →
      rename (visible.shift room) = (other visible).shift newRoom) :
    (label.makeRoom hidden room).mapVisible hidden rename =
      (label.mapVisible hidden other).makeRoom hidden newRoom := by
  by_cases before : label.index < hidden
  · rw [makeRoom_of_lt before, mapVisible_of_lt before, mapVisible_of_lt before,
      makeRoom_of_lt before]
  · obtain ⟨visible, rfl⟩ := exists_eq_shift_of_le (Nat.not_lt.mp before)
    rw [makeRoom_shift, ← shift_shift, mapVisible_shift, mapVisible_shift, makeRoom_shift,
      agree visible rfl, shift_shift]

/-- Where a label goes when two neighbouring groups of `left` and `right` labels trade places, behind
`kept` labels that stay: the first group makes way, and the second closes up. -/
def exchange (label : Label) (kept left right : Nat) : Label :=
  if label.index < kept then label
  else if label.index < kept + left then label.shift right
  else if label.index < kept + left + right then ⟨label.index - left⟩
  else label

@[grind =] theorem index_exchange (label : Label) (kept left right : Nat) :
    (label.exchange kept left right).index =
      if label.index < kept then label.index
      else if label.index < kept + left then right + label.index
      else if label.index < kept + left + right then label.index - left
      else label.index := by
  unfold exchange
  repeat' split
  all_goals rfl

/-- Groups that have traded places are back in them when they trade places again. -/
theorem exchange_exchange (label : Label) (kept left right : Nat) :
    (label.exchange kept left right).exchange kept right left = label := by
  ext
  grind

/-- A group trades places with two others at once as it does with one of them after the other. -/
theorem exchange_add (label : Label) (left near far : Nat) :
    label.exchange 0 left (near + far) = (label.exchange 0 left near).exchange near left far := by
  ext
  grind

/-- No label leaves an initial segment that contains both groups. -/
theorem index_exchange_lt {label : Label} {kept left right bound : Nat}
    (wide : kept + (left + right) ≤ bound) (below : label.index < bound) :
    (label.exchange kept left right).index < bound := by
  grind

/-- Groups that trade places behind a border do so behind it and the labels that they have kept. -/
theorem mapVisible_exchange (label : Label) (hidden kept left right : Nat) :
    label.mapVisible hidden (·.exchange kept left right) =
      label.exchange (hidden + kept) left right := by
  by_cases before : label.index < hidden
  · rw [mapVisible_of_lt before, exchange, if_pos (Nat.lt_add_right kept before)]
  · obtain ⟨visible, rfl⟩ := exists_eq_shift_of_le (Nat.not_lt.mp before)
    rw [mapVisible_shift]
    ext
    grind

section Beside

/-! Two parts lie side by side in either order: `label` is a label of the one, with `hidden` and `visible`
labels, and the other has `otherHidden` and `otherVisible` ones. -/

variable {label : Label} {hidden visible otherHidden otherVisible : Nat}

/-- Behind the other part and with the visible groups exchanged, a label is where it is before the other
part with the hidden groups exchanged. -/
theorem exchange_behind (inside : label.index < hidden + visible) :
    ((label.makeRoom hidden otherVisible).shift otherHidden).exchange (otherHidden + hidden) otherVisible
        visible =
      (label.makeRoom hidden otherHidden).exchange 0 hidden otherHidden := by
  ext
  grind

/-- Before the other part and with the visible groups exchanged, it is where it is behind the other part
with the hidden groups exchanged. -/
theorem exchange_before (inside : label.index < hidden + visible) :
    (label.makeRoom hidden otherHidden).exchange (hidden + otherHidden) visible otherVisible =
      ((label.makeRoom hidden otherVisible).shift otherHidden).exchange 0 otherHidden hidden := by
  ext
  grind

end Beside

/-- A label of the space passes the check. -/
theorem check_of_within {label : Label} {size : Size} (inside : label.Within size) :
    label.check size = .ok label :=
  check_eq_ok_iff.mpr ⟨inside, rfl⟩

/-- Any other label is refused by it. -/
theorem check_of_not_within {label : Label} {size : Size} (outside : ¬ label.Within size) :
    label.check size = .error (.outOfRange label size) :=
  check_eq_error_iff.mpr ⟨outside, rfl⟩

section Sum

variable {label : Label} {left right total : Size} (fits : left.sum right = .ok total)

include fits

/-- A label of the left summand has its place in a sum that has a size. -/
theorem inl_eq_ok (inside : label.Within left) : label.inl left right = .ok label := by
  rw [inl, fits]
  exact check_of_within inside

/-- A label of the right summand has its place in a sum that has a size, behind the left one. -/
theorem inr_eq_ok (inside : label.Within right) :
    label.inr left right = .ok (label.shift left.count) := by
  rw [inr, fits, check_of_within inside]
  rfl

/-- A label of a sum lies in the left summand, or behind it in the right one. -/
theorem within_sum_cases (inside : label.Within total) :
    label.Within left ∨ ∃ behind : Label, behind.Within right ∧ label = behind.shift left.count := by
  rw [Within, Size.sum_eq_ok_iff.mp fits] at inside
  by_cases front : label.Within left
  · exact .inl front
  · obtain ⟨behind, rfl⟩ := exists_eq_shift_of_le (Nat.not_lt.mp front)
    rw [index_shift] at inside
    exact .inr ⟨behind, Nat.lt_of_add_lt_add_left inside, rfl⟩

/-- A label of a sum that lies in the left summand is found there. -/
theorem split_of_within (inside : label.Within left) :
    label.split left right = .ok (.inl label) := by
  have counts := Size.sum_eq_ok_iff.mp fits
  have checked : label.check total = .ok label :=
    check_of_within (by simp only [Within] at inside ⊢; omega)
  rw [split, fits, ok_bind, checked, ok_bind, if_pos inside]
  rfl

/-- One that lies behind the left summand is found in the right one. -/
theorem split_shift (inside : label.Within right) :
    (label.shift left.count).split left right = .ok (.inr label) := by
  have counts := Size.sum_eq_ok_iff.mp fits
  have behind : ¬ (label.shift left.count).Within left := by simp [Within]
  have checked : (label.shift left.count).check total = .ok (label.shift left.count) :=
    check_of_within (by simp only [Within, index_shift] at inside ⊢; omega)
  rw [split, fits, ok_bind, checked, ok_bind, if_neg behind, index_shift, Nat.add_sub_cancel_left]
  rfl

end Sum

end Flowgraph.Label
