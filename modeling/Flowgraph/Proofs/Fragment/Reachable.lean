import Flowgraph.Fragment.Reachable
import Flowgraph.Proofs.BlockMap.Lookup

/-!
# What the exploration of a fragment finds

`Fragment.Reaches` says without an algorithm which labels control can come to. The exploration keeps a
list of labels that are yet to be looked at, and marks those that it has looked at. `Survey` is what
holds of list and marks at any time: everything in them is reached, and whatever a marked label goes on
to is marked or in the list. `survey_mark` and `survey_skip` are the two steps that keep it, and
`survey_explore` follows them to the empty list. Then the marks are closed under going on, and so they
are exactly the labels that are reached.
-/

namespace Flowgraph

namespace Label

/-- A range has the labels of a space. -/
theorem mem_range_iff {label : Label} {count : Nat} :
    label ∈ range count ↔ label.index < count := by
  constructor
  · intro member
    obtain ⟨index, inside, rfl⟩ := List.mem_map.mp member
    exact List.mem_range.mp inside
  · intro inside
    exact List.mem_map.mpr ⟨label.index, List.mem_range.mpr inside, rfl⟩

/-- They are in order. -/
theorem pairwise_range (count : Nat) : (range count).Pairwise (·.index < ·.index) :=
  List.pairwise_map.mpr List.pairwise_lt_range

/-- Labels in ascending order are all different. -/
theorem nodup_of_pairwise {labels : List Label} (ordered : labels.Pairwise (·.index < ·.index)) :
    labels.Nodup :=
  ordered.imp fun below same => Nat.ne_of_lt below (congrArg Label.index same)

/-- Labels of a space that are all different are no more than it has. -/
theorem length_le_of_nodup {labels : List Label} {count : Nat} (distinct : labels.Nodup)
    (inside : ∀ label ∈ labels, label.index < count) : labels.length ≤ count := by
  have listed : labels ⊆ range count := fun label member => mem_range_iff.mpr (inside label member)
  simpa [range] using distinct.length_le_of_subset listed

/-- Labels are compared by their indexes. -/
theorem isLE_compare_iff {left right : Label} :
    (compare left right).isLE = true ↔ left.index ≤ right.index :=
  Nat.isLE_compare

/-- A list in ascending order is what sorting makes of any list of its labels. -/
theorem eq_mergeSort_of_pairwise {ascending labels : List Label}
    (ordered : ascending.Pairwise (·.index < ·.index)) (perm : ascending.Perm labels) :
    ascending = labels.mergeSort fun left right => (compare left right).isLE := by
  have sorted : (labels.mergeSort fun left right => (compare left right).isLE).Pairwise
      fun left right => (compare left right).isLE = true := by
    apply List.pairwise_mergeSort
    · simp only [isLE_compare_iff]
      omega
    · simp only [Bool.or_eq_true, isLE_compare_iff]
      omega
  have weakly := ordered.imp fun below => isLE_compare_iff.mpr (Nat.le_of_lt below)
  apply List.Perm.eq_of_pairwise _ weakly sorted (perm.trans (List.mergeSort_perm labels _).symm)
  intro left right _ _ below above
  rw [isLE_compare_iff] at below above
  exact Label.ext (Nat.le_antisymm below above)

end Label

namespace Fragment

variable {Inst Cond : Type}

/-- The labels that control can come to: the entries of the interface, and the hidden labels among the
successors of any label that it can come to. -/
inductive Reaches (fragment : Fragment Inst Cond) : Label → Prop where
  | entry {entry : Label} (inside : entry.Within fragment.inputs) :
      Reaches fragment (entry.shift fragment.internal.count)
  | step {label target : Label} {block : Block Inst Cond Label}
      (reached : Reaches fragment label) (found : fragment.code.get? label = some block)
      (member : target ∈ block.successors) (hidden : target.Within fragment.internal) :
      Reaches fragment target

variable {fragment : Fragment Inst Cond}

/-- A label goes on to the hidden labels among the successors of its block. -/
theorem mem_continuations_iff {label target : Label} :
    target ∈ fragment.continuations label ↔
      ∃ block, fragment.code.get? label = some block ∧ target ∈ block.successors ∧
        target.Within fragment.internal := by
  unfold continuations
  cases fragment.code.get? label with
  | none => simp
  | some block => simp

/-- So it goes on to hidden labels only. -/
theorem within_of_mem_continuations {label target : Label}
    (continues : target ∈ fragment.continuations label) : target.Within fragment.internal := by
  obtain ⟨_, _, _, hidden⟩ := mem_continuations_iff.mp continues
  exact hidden

/-- And if it is reached, so are these. -/
theorem Reaches.of_mem_continuations {label target : Label} (reached : fragment.Reaches label)
    (continues : target ∈ fragment.continuations label) : fragment.Reaches target := by
  obtain ⟨block, found, successor, hidden⟩ := mem_continuations_iff.mp continues
  exact .step reached found successor hidden

/-- Control starts at the entries of the interface, behind the hidden labels. -/
theorem mem_starts_iff {label : Label} :
    label ∈ fragment.starts ↔
      ∃ entry : Label, entry.Within fragment.inputs ∧
        entry.shift fragment.internal.count = label := by
  simp only [starts, List.mem_map, Label.mem_range_iff, Label.Within]

/-- What is reached has a block. -/
theorem Reaches.within {label : Label} (reached : fragment.Reaches label) :
    label.Within fragment.code.entries := by
  cases reached with
  | entry inside => exact fragment.shift_within_entries inside
  | step _ _ _ hidden => exact fragment.within_entries_of_hidden hidden

/-- What an exploration has found so far, with labels that are yet to be looked at and marks on those
that it has looked at. -/
structure Survey (fragment : Fragment Inst Cond) (pending : List Label) (seen : Array Bool) :
    Prop where
  size_eq : seen.size = fragment.code.entries.count
  pending_reached : ∀ label ∈ pending, fragment.Reaches label
  seen_reached : ∀ label : Label, seen[label.index]? = some true → fragment.Reaches label
  starts_found : ∀ label ∈ fragment.starts, seen[label.index]? = some true ∨ label ∈ pending
  closed : ∀ label : Label, seen[label.index]? = some true →
    ∀ target ∈ fragment.continuations label, seen[target.index]? = some true ∨ target ∈ pending

section Steps

variable {label : Label} {rest : List Label} {seen : Array Bool}

/-- Marking a label adds it to those that are marked. -/
theorem getElem?_mark (unseen : seen[label.index]? = some false) (other : Label) :
    (seen.setIfInBounds label.index true)[other.index]? = some true ↔
      other = label ∨ seen[other.index]? = some true := by
  obtain ⟨bound, -⟩ := Array.getElem?_eq_some_iff.mp unseen
  rw [Array.getElem?_setIfInBounds]
  by_cases same : label.index = other.index
  · obtain rfl : label = other := Label.ext same
    simp [bound]
  · have differ : other ≠ label := fun equal => same (congrArg Label.index equal.symm)
    simp [same, differ]

/-- A label without a mark is marked, and what it goes on to is put in the list. -/
theorem survey_mark (survey : fragment.Survey (label :: rest) seen)
    (unseen : seen[label.index]? = some false) :
    fragment.Survey (fragment.continuations label ++ rest)
      (seen.setIfInBounds label.index true) where
  size_eq := by
    rw [Array.size_setIfInBounds]
    exact survey.size_eq
  pending_reached target member := by
    rcases List.mem_append.mp member with continues | later
    · exact (survey.pending_reached label (.head _)).of_mem_continuations continues
    · exact survey.pending_reached target (.tail _ later)
  seen_reached other marked := by
    rcases (getElem?_mark unseen other).mp marked with rfl | earlier
    · exact survey.pending_reached other (.head _)
    · exact survey.seen_reached other earlier
  starts_found start member := by
    rcases survey.starts_found start member with marked | pending
    · exact .inl ((getElem?_mark unseen start).mpr (.inr marked))
    · rcases List.mem_cons.mp pending with rfl | later
      · exact .inl ((getElem?_mark unseen start).mpr (.inl rfl))
      · exact .inr (List.mem_append_right _ later)
  closed other marked target continues := by
    rcases (getElem?_mark unseen other).mp marked with rfl | earlier
    · exact .inr (List.mem_append_left _ continues)
    · rcases survey.closed other earlier target continues with found | pending
      · exact .inl ((getElem?_mark unseen target).mpr (.inr found))
      · rcases List.mem_cons.mp pending with rfl | later
        · exact .inl ((getElem?_mark unseen target).mpr (.inl rfl))
        · exact .inr (List.mem_append_right _ later)

/-- A label of the list that is not without a mark has one, so it can go. -/
theorem survey_skip (survey : fragment.Survey (label :: rest) seen)
    (looked : ¬ seen[label.index]? = some false) : fragment.Survey rest seen := by
  have bound : label.index < seen.size := by
    rw [survey.size_eq]
    exact (survey.pending_reached label (.head _)).within
  have marked : seen[label.index]? = some true := by
    rw [Array.getElem?_eq_getElem bound] at looked ⊢
    cases value : seen[label.index] with
    | false => exact absurd (congrArg some value) looked
    | true => rfl
  refine ⟨survey.size_eq, ?_, survey.seen_reached, ?_, ?_⟩
  · intro target later
    exact survey.pending_reached target (.tail _ later)
  · intro start member
    rcases survey.starts_found start member with found | pending
    · exact .inl found
    · rcases List.mem_cons.mp pending with rfl | later
      · exact .inl marked
      · exact .inr later
  · intro other otherMarked target continues
    rcases survey.closed other otherMarked target continues with found | pending
    · exact .inl found
    · rcases List.mem_cons.mp pending with rfl | later
      · exact .inl marked
      · exact .inr later

end Steps

/-- An exploration that goes on to its end has looked at everything that it found. -/
theorem survey_explore {pending : List Label} {seen : Array Bool}
    (survey : fragment.Survey pending seen) :
    fragment.Survey [] (fragment.explore pending seen) := by
  fun_induction explore fragment pending seen with
  | case1 seen => exact survey
  | case2 seen label rest unseen inductionHypothesis =>
    exact inductionHypothesis (survey_mark survey unseen)
  | case3 seen label rest looked inductionHypothesis =>
    exact inductionHypothesis (survey_skip survey looked)

/-- At the beginning, nothing is marked and all starts are in the list. -/
theorem survey_starts (fragment : Fragment Inst Cond) :
    fragment.Survey fragment.starts
      (Array.replicate fragment.code.entries.count false) where
  size_eq := Array.size_replicate
  pending_reached label member := by
    obtain ⟨entry, inside, rfl⟩ := mem_starts_iff.mp member
    exact .entry inside
  seen_reached label marked := by
    rw [Array.getElem?_replicate] at marked
    split at marked <;> cases marked
  starts_found label member := .inr member
  closed label marked := by
    rw [Array.getElem?_replicate] at marked
    split at marked <;> cases marked

/-- When there is nothing left to be looked at, the marks are on the labels that are reached. -/
theorem Survey.marked_iff {seen : Array Bool} (survey : fragment.Survey [] seen) {label : Label} :
    seen[label.index]? = some true ↔ fragment.Reaches label := by
  constructor
  · exact survey.seen_reached label
  · intro reached
    induction reached with
    | entry inside =>
      rcases survey.starts_found _ (mem_starts_iff.mpr ⟨_, inside, rfl⟩) with marked | pending
      · exact marked
      · cases pending
    | step _ found member hidden inductionHypothesis =>
      rcases survey.closed _ inductionHypothesis _
        (mem_continuations_iff.mpr ⟨_, found, member, hidden⟩) with marked | pending
      · exact marked
      · cases pending

/-- All that is found from the starts is marked in the end. -/
theorem survey_reachMarks (fragment : Fragment Inst Cond) :
    fragment.Survey [] fragment.reachMarks :=
  survey_explore (survey_starts fragment)

/-- The marks are on the labels that are reached. -/
theorem reachMarks_eq_true_iff {label : Label} :
    fragment.reachMarks[label.index]? = some true ↔ fragment.Reaches label :=
  (survey_reachMarks fragment).marked_iff

/-- A label is listed as reachable exactly when it is reached. -/
theorem mem_reachable_iff {label : Label} :
    label ∈ fragment.reachable ↔ fragment.Reaches label := by
  simp only [reachable, List.mem_filter, Label.mem_range_iff, beq_iff_eq, reachMarks_eq_true_iff,
    and_iff_right_iff_imp]
  exact Reaches.within

/-- A label is listed as unreachable exactly when it is hidden and not reached. -/
theorem mem_unreachable_iff {label : Label} :
    label ∈ fragment.unreachable ↔
      label.Within fragment.internal ∧ ¬ fragment.Reaches label := by
  simp only [unreachable, List.mem_filter, Label.mem_range_iff, bne_iff_ne, ne_eq,
    reachMarks_eq_true_iff, Label.Within]

/-- Reachable labels are listed in ascending order. -/
theorem pairwise_reachable (fragment : Fragment Inst Cond) :
    fragment.reachable.Pairwise (·.index < ·.index) :=
  (Label.pairwise_range _).filter _

/-- So none is listed twice. -/
theorem nodup_reachable (fragment : Fragment Inst Cond) : fragment.reachable.Nodup :=
  Label.nodup_of_pairwise fragment.pairwise_reachable

/-- Unreachable labels are listed in ascending order as well. -/
theorem pairwise_unreachable (fragment : Fragment Inst Cond) :
    fragment.unreachable.Pairwise (·.index < ·.index) :=
  (Label.pairwise_range _).filter _

end Fragment

end Flowgraph
