import Flowgraph.Proofs.Fragment.Sequence

/-!
# Fragments as parts of others

The code of a combined fragment consists of the code of its operands, each at places of its own. Where
`Placed` says that all blocks of one fragment are found in another, `Placed.trans` follows a part
through several combinations. The statements that end in `_cases` say that there is nothing else:
each label of a combination is a place of one of the operands.

So two combinations of the same parts can be compared part by part. `Placed.block_move` does so for
one part, when its places in the one are those in the other up to some move of the labels.
-/

namespace Flowgraph.Fragment

variable {Inst Cond : Type}

/-- Each block of `inner` is a block of `outer`: `place` says where it is found, and `target` what its
branch targets have become. -/
structure Placed (inner outer : Fragment Inst Cond) (place target : Label → Label) : Prop where
  block : ∀ label : Label, label.Within inner.code.entries →
    outer.code.get? (place label) = (inner.code.get? label).map (·.mapLabels target)

namespace Placed

variable {inner middle outer other : Fragment Inst Cond}
  {place target outerPlace outerTarget otherPlace otherTarget : Label → Label}

/-- So the labels of `inner` are placed at labels of `outer`. -/
theorem within (placed : Placed inner outer place target) {label : Label}
    (inside : label.Within inner.code.entries) : (place label).Within outer.code.entries := by
  have found := placed.block label inside
  rw [inner.code.get?_eq_some_block inside] at found
  exact BlockMap.within_of_get? found

/-- A part of a part is a part. -/
theorem trans (inside : Placed inner middle place target)
    (outside : Placed middle outer outerPlace outerTarget) :
    Placed inner outer (fun label => outerPlace (place label))
      (fun label => outerTarget (target label)) where
  block label labelInside := by
    rw [outside.block _ (inside.within labelInside), inside.block label labelInside,
      Option.map_map]
    refine congrArg (Option.map · _) (funext fun block => ?_)
    exact Block.mapLabels_mapLabels target outerTarget block

/-- Where two fragments have the same part, and its labels have been moved on from the one to the
other, the blocks of that part have been moved on as they are. -/
theorem block_move (first : Placed inner outer place target)
    (second : Placed inner other otherPlace otherTarget) (move : Label → Label)
    (places : ∀ label : Label, label.Within inner.code.entries →
      otherPlace label = move (place label))
    (targets : ∀ label : Label, label.Within inner.code.exits →
      otherTarget label = move (target label))
    {label : Label} (inside : label.Within inner.code.entries) :
    other.code.get? (move (place label)) =
      (outer.code.get? (place label)).map (·.mapLabels move) := by
  rw [← places label inside, second.block label inside, first.block label inside,
    inner.code.get?_eq_some_block inside]
  simp only [Option.map_some, Block.mapLabels_mapLabels]
  refine congrArg some (Block.mapLabels_congr fun target member => ?_)
  exact targets target (inner.code.target_within inside member)

/-- Where two fragments have the same part at the same places, they have the same blocks there. -/
theorem block_eq (first : Placed inner outer place target)
    (second : Placed inner other otherPlace otherTarget)
    (places : ∀ label : Label, label.Within inner.code.entries → otherPlace label = place label)
    (targets : ∀ label : Label, label.Within inner.code.exits → otherTarget label = target label)
    {label : Label} (inside : label.Within inner.code.entries) :
    outer.code.get? (place label) = other.code.get? (place label) := by
  rw [first.block_move second (fun label => label) places targets inside]
  simp

end Placed

/-- Linking leaves all of a fragment in its place. -/
theorem placed_link {fragment linked : Fragment Inst Cond} {width : Size}
    (made : fragment.link width = .ok linked) :
    Placed fragment linked (fun label => label) (fun target => target) where
  block label _ := get?_link made label

/-- A fragment with the interface of another and the same block at each label is that fragment. -/
theorem eq_of_get? {left right : Fragment Inst Cond} (internal : left.internal = right.internal)
    (inputs : left.inputs = right.inputs) (outputs : left.outputs = right.outputs)
    (blocks : ∀ label : Label, label.Within left.code.entries →
      left.code.get? label = right.code.get? label) : left = right := by
  have entries : left.code.entries = right.code.entries := by
    refine Size.ext ?_
    rw [left.entries_eq, right.entries_eq, internal, inputs]
  have exits : left.code.exits = right.code.exits := by
    refine Size.ext ?_
    rw [left.exits_eq, right.exits_eq, internal, outputs]
  exact Fragment.ext internal inputs outputs (BlockMap.eq_of_get? entries exits blocks)

section Append

variable {fragment other both : Fragment Inst Cond}

/-- The left operand of an append and the right one have their blocks at different places. -/
theorem disjoint_places {left right : Label} (leftInside : left.Within fragment.code.entries) :
    left.makeRoom fragment.internal.count other.internal.count ≠
      (right.makeRoom other.internal.count fragment.inputs.count).shift
        fragment.internal.count := by
  intro same
  have bound : left.index < fragment.internal.count + fragment.inputs.count :=
    fragment.entries_eq ▸ leftInside
  have indices := congrArg Label.index same
  rw [Label.index_shift] at indices
  rcases Nat.lt_or_ge left.index fragment.internal.count with leftHidden | leftVisible
  · rw [Label.makeRoom_of_lt leftHidden] at indices
    omega
  · rw [Label.makeRoom_of_le leftVisible, Label.index_shift] at indices
    rcases Nat.lt_or_ge right.index other.internal.count with rightHidden | rightVisible
    · rw [Label.makeRoom_of_lt rightHidden] at indices
      omega
    · rw [Label.makeRoom_of_le rightVisible, Label.index_shift] at indices
      omega

variable (made : fragment.append other = .ok both)

include made

/-- Visible labels of the left operand, entries and exits alike, are visible under the same names. -/
theorem append_left_visible (label : Label) :
    (label.shift fragment.internal.count).makeRoom fragment.internal.count other.internal.count =
      label.shift both.internal.count := by
  rw [Label.makeRoom_shift, count_internal_append made]

/-- Visible labels of the right operand make room for those of the left one. -/
theorem append_right_visible (label : Label) (room : Nat) :
    ((label.shift other.internal.count).makeRoom other.internal.count room).shift
        fragment.internal.count =
      (label.shift room).shift both.internal.count := by
  rw [Label.makeRoom_shift, Label.shift_shift, Label.shift_shift, count_internal_append made,
    Nat.add_assoc]

/-- The left operand of an append makes room for the hidden labels of the right one. -/
theorem placed_append_left :
    Placed fragment both (·.makeRoom fragment.internal.count other.internal.count)
      (·.makeRoom fragment.internal.count other.internal.count) where
  block _ inside := get?_append_left made inside

/-- The right operand of an append goes behind the hidden labels of the left one, and makes room for
its visible labels. -/
theorem placed_append_right :
    Placed other both
      (fun label =>
        (label.makeRoom other.internal.count fragment.inputs.count).shift fragment.internal.count)
      (fun target =>
        (target.makeRoom other.internal.count fragment.outputs.count).shift
          fragment.internal.count) where
  block _ inside := get?_append_right made inside

/-- Each label of an append belongs to one of its operands. -/
theorem append_cases {label : Label} (inside : label.Within both.code.entries) :
    (∃ left : Label, left.Within fragment.code.entries ∧
        left.makeRoom fragment.internal.count other.internal.count = label) ∨
      ∃ right : Label, right.Within other.code.entries ∧
        (right.makeRoom other.internal.count fragment.inputs.count).shift
          fragment.internal.count = label := by
  rw [Label.Within, both.entries_eq, count_internal_append made, count_inputs_append made] at inside
  simp only [Label.Within, fragment.entries_eq, other.entries_eq, Label.ext_iff, Label.index_shift,
    Label.index_makeRoom]
  rcases Nat.lt_or_ge label.index fragment.internal.count with hidden | behind
  · exact .inl ⟨label, by omega, if_pos hidden⟩
  rcases Nat.lt_or_ge label.index (fragment.internal.count + other.internal.count) with
    otherHidden | visible
  · refine .inr ⟨⟨label.index - fragment.internal.count⟩, by simp only; omega, ?_⟩
    grind
  rcases Nat.lt_or_ge label.index
    (fragment.internal.count + other.internal.count + fragment.inputs.count) with entry | otherEntry
  · refine .inl ⟨⟨label.index - other.internal.count⟩, by simp only; omega, ?_⟩
    grind
  · refine .inr ⟨⟨label.index - fragment.internal.count - fragment.inputs.count⟩,
      by simp only; omega, ?_⟩
    grind

end Append

section Sequence

variable {fragment next both : Fragment Inst Cond} (made : fragment.seq next = .ok both)

include made

/-- The first part of a sequence makes room for all labels of the second. -/
theorem placed_seq_first :
    Placed fragment both
      (·.makeRoom fragment.internal.count (next.internal.count + next.inputs.count))
      (·.makeRoom fragment.internal.count next.internal.count) where
  block _ inside := get?_seq_first made inside

/-- The second part of a sequence goes behind the hidden labels of the first. -/
theorem placed_seq_second :
    Placed next both (·.shift fragment.internal.count)
      (fun target =>
        (target.makeRoom next.internal.count next.inputs.count).shift
          fragment.internal.count) where
  block _ inside := get?_seq_second made inside

/-- Each label of a sequence belongs to one of its parts. -/
theorem seq_cases {label : Label} (inside : label.Within both.code.entries) :
    (∃ first : Label, first.Within fragment.code.entries ∧
        first.makeRoom fragment.internal.count (next.internal.count + next.inputs.count) = label) ∨
      ∃ second : Label, second.Within next.code.entries ∧
        second.shift fragment.internal.count = label := by
  rw [Label.Within, both.entries_eq, count_internal_seq made, inputs_seq made] at inside
  simp only [Label.Within, fragment.entries_eq, next.entries_eq, Label.ext_iff, Label.index_shift,
    Label.index_makeRoom]
  rcases Nat.lt_or_ge label.index fragment.internal.count with hidden | behind
  · exact .inl ⟨label, by omega, if_pos hidden⟩
  rcases Nat.lt_or_ge label.index
    (fragment.internal.count + (next.internal.count + next.inputs.count)) with second | entry
  · exact .inr ⟨⟨label.index - fragment.internal.count⟩, by simp only; omega, by simp only; omega⟩
  · refine .inl ⟨⟨label.index - (next.internal.count + next.inputs.count)⟩,
      by simp only; omega, ?_⟩
    grind

end Sequence

end Flowgraph.Fragment
