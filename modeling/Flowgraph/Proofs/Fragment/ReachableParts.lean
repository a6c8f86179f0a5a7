import Flowgraph.Countdown.Program
import Flowgraph.Proofs.Fragment.Placement
import Flowgraph.Proofs.Fragment.Reachable
import Mathlib.Data.List.Nodup

/-!
# What a combined fragment reaches

Combining fragments numbers their labels anew, and so it is told by places what becomes of the labels
that they reach. `Follows` is what makes that work: from the place of a label, the one fragment goes on to
the places of just the labels that the other goes on to. Then trails can be followed in both directions.
`Follows.reaches` carries what is reached to its place, and `Follows.exists_of_mem` finds for each step
from a place the label that it comes from.

An append follows both of its operands, and each label belongs to one of them. With a renamed interface it
is the other way around: the fragment as it was follows the renamed one, since an entry may have been left
out, or be there under several names. A link is followed by nothing, for control now passes former entries;
but these were reached before, as entries.
-/

namespace Flowgraph

namespace Fragment

variable {Inst Cond : Type} {fragment other both inner outer : Fragment Inst Cond}
  {place target : Label → Label}

section Follows

/-- The outer fragment follows the inner one: from the place of each label, it goes on to the places of the
labels that the inner one goes on to. -/
def Follows (inner outer : Fragment Inst Cond) (place : Label → Label) : Prop :=
  ∀ label : Label, label.Within inner.code.entries →
    outer.continuations (place label) = (inner.continuations label).map place

/-- A copy of a block goes on to the copies of the targets, if these are hidden when the targets are. -/
theorem continuations_of_copy {label copy : Label}
    (found : outer.code.get? copy = (inner.code.get? label).map (·.mapLabels target))
    (hidden : ∀ label : Label, (target label).Within outer.internal ↔ label.Within inner.internal) :
    outer.continuations copy = (inner.continuations label).map target := by
  unfold continuations
  rw [found]
  cases inner.code.get? label with
  | none => rfl
  | some block => simp [List.filter_map, Function.comp_def, hidden]

/-- A fragment follows its parts, where hidden targets are found at the places of their labels, and no
others are hidden. -/
theorem Placed.follows (placed : Placed inner outer place target)
    (hidden : ∀ label : Label, (target label).Within outer.internal ↔ label.Within inner.internal)
    (stays : ∀ label : Label, label.Within inner.internal → target label = place label) :
    Follows inner outer place := by
  intro label inside
  rw [continuations_of_copy (placed.block label inside) hidden]
  exact List.map_congr_left fun next member => stays next (within_of_mem_continuations member)

variable (follows : Follows inner outer place)

include follows

/-- What is reached from the entries is reached from their places. -/
theorem Follows.reaches {label : Label}
    (entries : ∀ entry : Label, entry.Within inner.inputs →
      outer.Reaches (place (entry.shift inner.internal.count)))
    (reached : inner.Reaches label) : outer.Reaches (place label) := by
  induction reached with
  | entry inside => exact entries _ inside
  | @step label next block reached found member hidden inductionHypothesis =>
    have continues := mem_continuations_iff.mpr ⟨block, found, member, hidden⟩
    refine inductionHypothesis.of_mem_continuations ?_
    rw [follows label reached.within]
    exact List.mem_map_of_mem continues

/-- And whatever the place of a label that is reached goes on to is the place of another. -/
theorem Follows.exists_of_mem {label next : Label} (reached : inner.Reaches label)
    (continues : next ∈ outer.continuations (place label)) :
    ∃ source, inner.Reaches source ∧ place source = next := by
  rw [follows label reached.within] at continues
  obtain ⟨source, member, placed⟩ := List.mem_map.mp continues
  exact ⟨source, reached.of_mem_continuations member, placed⟩

end Follows

section Append

/-- No label is reached by both operands. -/
theorem disjoint_reachable_places (fragment other : Fragment Inst Cond) :
    (fragment.reachable.map (·.makeRoom fragment.internal.count other.internal.count)).Disjoint
      (other.reachable.map fun label =>
        (label.makeRoom other.internal.count fragment.inputs.count).shift
          fragment.internal.count) := by
  intro label leftMember rightMember
  obtain ⟨left, leftReached, rfl⟩ := List.mem_map.mp leftMember
  obtain ⟨right, -, same⟩ := List.mem_map.mp rightMember
  exact disjoint_places (mem_reachable_iff.mp leftReached).within same.symm

variable (made : fragment.append other = .ok both)

include made

/-- An append follows its left operand. -/
theorem follows_append_left :
    Follows fragment both (·.makeRoom fragment.internal.count other.internal.count) := by
  apply (placed_append_left made).follows
  · intro label
    simp only [Label.Within, count_internal_append made]
    grind
  · exact fun _ _ => rfl

/-- It follows the right one as well, behind the hidden labels of the left. -/
theorem follows_append_right :
    Follows other both fun label =>
      (label.makeRoom other.internal.count fragment.inputs.count).shift fragment.internal.count := by
  apply (placed_append_right made).follows
  · intro label
    simp only [Label.Within, count_internal_append made]
    grind
  · intro label hidden
    rw [Label.makeRoom_of_lt hidden, Label.makeRoom_of_lt hidden]

/-- An entry of the left operand is an entry of the append. -/
theorem reaches_append_left_entry {entry : Label} (inside : entry.Within fragment.inputs) :
    both.Reaches ((entry.shift fragment.internal.count).makeRoom fragment.internal.count
      other.internal.count) := by
  rw [append_left_visible made]
  apply Reaches.entry
  rw [Label.Within, count_inputs_append made]
  exact Nat.lt_add_right _ inside

/-- An entry of the right operand is one behind those of the left. -/
theorem reaches_append_right_entry {entry : Label} (inside : entry.Within other.inputs) :
    both.Reaches (((entry.shift other.internal.count).makeRoom other.internal.count
      fragment.inputs.count).shift fragment.internal.count) := by
  rw [append_right_visible made]
  apply Reaches.entry
  rw [Label.Within, count_inputs_append made, Label.index_shift]
  exact Nat.add_lt_add_left inside _

/-- Whatever an append reaches is reached by one of its operands. -/
theorem Reaches.append_cases {label : Label} (reached : both.Reaches label) :
    (∃ left, fragment.Reaches left ∧
        left.makeRoom fragment.internal.count other.internal.count = label) ∨
      ∃ right, other.Reaches right ∧
        (right.makeRoom other.internal.count fragment.inputs.count).shift
          fragment.internal.count = label := by
  induction reached with
  | @entry entry inside =>
    rw [Label.Within, count_inputs_append made] at inside
    rcases Nat.lt_or_ge entry.index fragment.inputs.count with left | behind
    · exact .inl ⟨entry.shift fragment.internal.count, .entry left, append_left_visible made entry⟩
    · obtain ⟨right, rfl⟩ := Label.exists_eq_shift_of_le behind
      rw [Label.index_shift] at inside
      exact .inr ⟨right.shift other.internal.count, .entry (Nat.lt_of_add_lt_add_left inside),
        append_right_visible made right fragment.inputs.count⟩
  | step _ found member hidden inductionHypothesis =>
    -- Control stays in the operand that it has come to.
    have continues := mem_continuations_iff.mpr ⟨_, found, member, hidden⟩
    rcases inductionHypothesis with ⟨left, leftReached, rfl⟩ | ⟨right, rightReached, rfl⟩
    · exact .inl ((follows_append_left made).exists_of_mem leftReached continues)
    · exact .inr ((follows_append_right made).exists_of_mem rightReached continues)

/-- An append reaches just what its operands reach. -/
theorem reaches_append_iff {label : Label} :
    both.Reaches label ↔
      (∃ left, fragment.Reaches left ∧
          left.makeRoom fragment.internal.count other.internal.count = label) ∨
        ∃ right, other.Reaches right ∧
          (right.makeRoom other.internal.count fragment.inputs.count).shift
            fragment.internal.count = label := by
  constructor
  · exact Reaches.append_cases made
  · rintro (⟨left, reached, rfl⟩ | ⟨right, reached, rfl⟩)
    · exact (follows_append_left made).reaches (fun _ => reaches_append_left_entry made) reached
    · exact (follows_append_right made).reaches (fun _ => reaches_append_right_entry made) reached

/-- In lists, what an append reaches is what the left operand reaches and what the right one does. -/
theorem reachable_append_perm :
    both.reachable.Perm
      (fragment.reachable.map (·.makeRoom fragment.internal.count other.internal.count) ++
        other.reachable.map fun label =>
          (label.makeRoom other.internal.count fragment.inputs.count).shift
            fragment.internal.count) := by
  have leftNodup := fragment.nodup_reachable.map
    (Label.makeRoom_injective fragment.internal.count other.internal.count)
  have rightNodup := other.nodup_reachable.map
    ((Label.shift_injective fragment.internal.count).comp
      (Label.makeRoom_injective other.internal.count fragment.inputs.count))
  have nodup := leftNodup.append rightNodup (disjoint_reachable_places fragment other)
  apply (List.perm_ext_iff_of_nodup both.nodup_reachable nodup).mpr
  intro label
  rw [List.mem_append, List.mem_map, List.mem_map, mem_reachable_iff, reaches_append_iff made]
  simp only [mem_reachable_iff, Function.comp_apply]

end Append

/-- Linking reaches nothing new: control comes to former entries from inside, but it could enter there
before. -/
theorem Reaches.of_link {linked : Fragment Inst Cond} {width : Size} {label : Label}
    (made : fragment.link width = .ok linked) (reached : linked.Reaches label) :
    fragment.Reaches label := by
  obtain ⟨inputsWide, -, internal, code⟩ := link_eq_ok_iff.mp made
  have inputs := count_inputs_link made
  induction reached with
  | @entry entry inside =>
    rw [Label.Within, inputs] at inside
    rw [internal, ← Label.shift_shift]
    exact .entry (Nat.add_lt_of_lt_sub' inside)
  | @step label next block reached found member hidden inductionHypothesis =>
    rw [code] at found
    by_cases before : next.Within fragment.internal
    · exact .step inductionHypothesis found member before
    · -- What is hidden now and was not before is an entry that has been linked.
      obtain ⟨entry, rfl⟩ := Label.exists_eq_shift_of_le (Nat.not_lt.mp before)
      rw [Label.Within, internal, Label.index_shift] at hidden
      exact .entry (Nat.lt_of_lt_of_le (Nat.lt_of_add_lt_add_left hidden) inputsWide)

/-- What a label goes on to is hidden, and does not change when the visible labels are renamed. -/
theorem map_mapVisible_continuations (fragment : Fragment Inst Cond) (rename : Label → Label)
    (label : Label) :
    (fragment.continuations label).map (·.mapVisible fragment.internal.count rename) =
      fragment.continuations label := by
  refine (List.map_congr_left fun next member => ?_).trans (List.map_id _)
  exact Label.mapVisible_of_lt (within_of_mem_continuations member)

section Relabel

variable {renamed : Fragment Inst Cond} {f g : Renaming} (made : fragment.relabel f g = .ok renamed)

include made

/-- A label of a renamed fragment goes on as the label does whose block it has. Only exits have other
names, so both go on to the same hidden labels. -/
theorem continuations_relabel {label : Label} (inside : label.Within renamed.code.entries) :
    renamed.continuations label =
      fragment.continuations (label.mapVisible fragment.internal.count f.image) := by
  have hidden (target : Label) :
      (target.mapVisible fragment.internal.count g.image).Within renamed.internal ↔
        target.Within fragment.internal := by
    rw [internal_relabel made]
    by_cases before : target.Within fragment.internal
    · rw [Label.mapVisible_of_lt before]
    · obtain ⟨exit, rfl⟩ := Label.exists_eq_shift_of_le (Nat.not_lt.mp before)
      simp only [Label.mapVisible_shift, Label.Within, Label.index_shift]
      omega
  rw [continuations_of_copy (get?_relabel made inside) hidden]
  exact fragment.map_mapVisible_continuations g.image _

/-- So the fragment as it was follows the renamed one. -/
theorem follows_relabel :
    Follows renamed fragment (·.mapVisible fragment.internal.count f.image) := by
  intro label inside
  have stay := renamed.map_mapVisible_continuations f.image label
  rw [internal_relabel made] at stay
  rw [← continuations_relabel made inside, stay]

/-- Whatever is reached under another interface was reached before: hidden labels as they are, and the
image of an entry in the place of the entry. -/
theorem Reaches.of_relabel {label : Label} (reached : renamed.Reaches label) :
    fragment.Reaches (label.mapVisible fragment.internal.count f.image) := by
  refine (follows_relabel made).reaches (fun entry inside => ?_) reached
  rw [inputs_relabel made] at inside
  rw [internal_relabel made, Label.mapVisible_shift]
  exact .entry ((relabel_steps made).1 ▸ f.image_within inside)

/-- Where no old entry is left out, nothing that was reached is lost. -/
theorem Reaches.exists_relabel
    (onto : ∀ entry : Label, entry.Within fragment.inputs →
      ∃ source : Label, source.Within f.domain ∧ f.image source = entry)
    {label : Label} (reached : fragment.Reaches label) :
    ∃ source, renamed.Reaches source ∧
      source.mapVisible fragment.internal.count f.image = label := by
  induction reached with
  | entry inside =>
    obtain ⟨source, sourceInside, rfl⟩ := onto _ inside
    refine ⟨source.shift renamed.internal.count, .entry ?_, ?_⟩
    · rwa [inputs_relabel made]
    · rw [internal_relabel made, Label.mapVisible_shift]
  | step _ found member hidden inductionHypothesis =>
    obtain ⟨source, sourceReached, rfl⟩ := inductionHypothesis
    exact (follows_relabel made).exists_of_mem sourceReached
      (mem_continuations_iff.mpr ⟨_, found, member, hidden⟩)

end Relabel

/-- What is reachable respects the ways to combine fragments. Side by side, it is the disjoint union of
what is reachable in the operands, where their labels have gone: hidden labels of the left operand stay,
hidden labels of the right one and entries of the left one come after them, and then the entries of the
right one. Linking makes no more reachable than before. And under another interface, the hidden labels
that are reachable were so before, and are the same if no old entry is left out. -/
theorem reachable_combined (fragment : Fragment Inst Cond) :
    (∀ other both : Fragment Inst Cond, fragment.append other = .ok both →
      both.reachable.Perm
          (fragment.reachable.map (·.makeRoom fragment.internal.count other.internal.count) ++
            other.reachable.map fun label =>
              (label.makeRoom other.internal.count fragment.inputs.count).shift
                fragment.internal.count) ∧
        (fragment.reachable.map (·.makeRoom fragment.internal.count other.internal.count)).Disjoint
          (other.reachable.map fun label =>
            (label.makeRoom other.internal.count fragment.inputs.count).shift
              fragment.internal.count)) ∧
    (∀ (width : Size) (linked : Fragment Inst Cond), fragment.link width = .ok linked →
      linked.reachable ⊆ fragment.reachable) ∧
    ∀ (f g : Renaming) (renamed : Fragment Inst Cond), fragment.relabel f g = .ok renamed →
      renamed.internal = fragment.internal ∧
      (∀ label : Label, label.Within fragment.internal →
        label ∈ renamed.reachable → label ∈ fragment.reachable) ∧
      ((∀ entry : Label, entry.Within fragment.inputs →
          ∃ source : Label, source.Within f.domain ∧ f.image source = entry) →
        ∀ label : Label, label.Within fragment.internal →
          (label ∈ renamed.reachable ↔ label ∈ fragment.reachable)) := by
  refine ⟨?_, ?_, ?_⟩
  · intro other both made
    exact ⟨reachable_append_perm made, disjoint_reachable_places fragment other⟩
  · intro width linked made label member
    exact mem_reachable_iff.mpr ((mem_reachable_iff.mp member).of_link made)
  · intro f g renamed made
    have hiddenBefore {label : Label} (hidden : label.Within fragment.internal)
        (reached : renamed.Reaches label) : fragment.Reaches label := by
      have before := reached.of_relabel made
      rwa [Label.mapVisible_of_lt hidden] at before
    simp only [mem_reachable_iff]
    refine ⟨internal_relabel made, fun label => hiddenBefore, fun onto label hidden => ?_⟩
    refine ⟨hiddenBefore hidden, fun reached => ?_⟩
    obtain ⟨source, sourceReached, image⟩ := reached.exists_relabel made onto
    -- The image of an entry is not hidden, so it is the label itself that is reached.
    rcases Nat.lt_or_ge source.index fragment.internal.count with before | behind
    · rwa [← image, Label.mapVisible_of_lt before]
    · obtain ⟨entry, rfl⟩ := Label.exists_eq_shift_of_le behind
      rw [Label.mapVisible_shift] at image
      rw [← image, Label.Within, Label.index_shift] at hidden
      omega

end Fragment

namespace Countdown

/-- Two hidden labels, each behind an entry of its own. -/
def fork : Fragment Inst Cond where
  internal := 2
  inputs := 2
  outputs := .one
  code := {
    exits := 3
    blocks := #[⟨[.say "tick", .dec], .conditional () ⟨0⟩ ⟨2⟩⟩, ⟨[.say "tock"], .jump ⟨2⟩⟩,
      ⟨[], .jump ⟨0⟩⟩, ⟨[], .jump ⟨1⟩⟩]
    entries_fit := by decide
    targets_within := by decide }
  entries_eq := by decide
  exits_eq := by decide

/-- The two entries in the other order. -/
def crossed : Renaming where
  codomain := 2
  images := #[⟨1⟩, ⟨0⟩]
  domain_fits := by decide
  images_within := by decide

/-- All labels of a fork are reachable, and so are those of two forks, those of a fork that is linked to
itself, and the hidden ones when the entries are crossed. -/
theorem reachable_fork :
    ∃ both linked renamed, fork.append fork = .ok both ∧ fork.link .one = .ok linked ∧
      fork.relabel crossed (.identity fork.outputs) = .ok renamed ∧
        both.reachable.Perm [⟨0⟩, ⟨1⟩, ⟨4⟩, ⟨5⟩, ⟨2⟩, ⟨3⟩, ⟨6⟩, ⟨7⟩] ∧
          linked.reachable ⊆ [⟨0⟩, ⟨1⟩, ⟨2⟩, ⟨3⟩] ∧ ⟨1⟩ ∈ renamed.reachable := by
  have reached : fork.reachable = [⟨0⟩, ⟨1⟩, ⟨2⟩, ⟨3⟩] := by cbv
  obtain ⟨both, bothMade⟩ := Fragment.exists_append fork fork (by decide) (by decide)
  obtain ⟨linked, linkedMade⟩ := Fragment.exists_link fork .one (by decide) (by decide)
  obtain ⟨renamed, renamedMade⟩ := Fragment.exists_relabel fork crossed (.identity fork.outputs)
    rfl (Renaming.domain_identity _) (by decide) (by decide)
  obtain ⟨append, link, relabel⟩ := Fragment.reachable_combined fork
  obtain ⟨perm, -⟩ := append fork both bothMade
  obtain ⟨-, -, same⟩ := relabel crossed _ renamed renamedMade
  have onto (entry : Label) (inside : entry.Within fork.inputs) :
      ∃ source : Label, source.Within crossed.domain ∧ crossed.image source = entry := by
    have sources : ∀ index : Fin 2, ∃ source : Fin 2, crossed.image ⟨source⟩ = ⟨index⟩ := by decide
    obtain ⟨source, image⟩ := sources ⟨entry.index, inside⟩
    exact ⟨⟨source⟩, source.isLt, image⟩
  refine ⟨both, linked, renamed, bothMade, linkedMade, renamedMade, ?_, ?_, ?_⟩
  · rwa [reached] at perm
  · rw [← reached]
    exact link .one linked linkedMade
  · rw [same onto ⟨1⟩ (by decide), reached]
    decide

end Countdown

end Flowgraph
