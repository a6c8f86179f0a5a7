import Flowgraph.Proofs.Fragment.Reachable
import Flowgraph.Proofs.Run.Chain
import Flowgraph.Proofs.Run.Hidden
import Mathlib.Logic.Relation

/-!
# Exploring in any order

`Fragment.explore` takes the labels that it looks at from the front of a list, and puts those that it
finds there as well. Nothing depends on that. `ExploreStep` leaves open which of the pending labels comes
next, so that a queue and a stack are both ways to explore. A step marks a label or shortens the list,
although it may do the first and make the list longer, and so no exploration goes on forever. A step
also keeps `Survey`, and so all explorations end with the same marks.

These marks are what a fragment reaches, which can be said in two more ways: as the least set of labels
that control cannot leave, and by the trails that control can take to a label.
-/

namespace Flowgraph

namespace Fragment

variable {Inst Cond : Type}

/-- One step of an exploration, from the pending labels and the marks to those after it. Any pending
label may be looked at. If it has no mark yet, it gets one, and what it goes on to is added anywhere; and
if it has one, it is dropped. -/
inductive ExploreStep (fragment : Fragment Inst Cond) :
    List Label × Array Bool → List Label × Array Bool → Prop where
  | mark {label : Label} {pending rest later : List Label} {seen : Array Bool}
      (chosen : pending.Perm (label :: rest)) (unseen : seen[label.index]? = some false)
      (added : later.Perm (fragment.continuations label ++ rest)) :
      ExploreStep fragment (pending, seen) (later, seen.setIfInBounds label.index true)
  | skip {label : Label} {pending rest later : List Label} {seen : Array Bool}
      (chosen : pending.Perm (label :: rest)) (looked : ¬ seen[label.index]? = some false)
      (dropped : later.Perm rest) :
      ExploreStep fragment (pending, seen) (later, seen)

/-- Where an exploration begins: with the starts pending, and without marks. -/
def outset (fragment : Fragment Inst Cond) : List Label × Array Bool :=
  (fragment.starts, Array.replicate fragment.code.entries.count false)

/-- What an exploration has yet to do: labels that it can still mark, and labels that are pending. -/
def remaining (point : List Label × Array Bool) : Nat × Nat :=
  (point.2.count false, point.1.length)

variable {fragment : Fragment Inst Cond}

section Steps

variable {point next : List Label × Array Bool}

/-- The order of the pending labels does not matter to what has been found. -/
theorem Survey.perm {pending other : List Label} {seen : Array Bool}
    (survey : fragment.Survey pending seen) (same : pending.Perm other) :
    fragment.Survey other seen where
  size_eq := survey.size_eq
  pending_reached label member := survey.pending_reached label (same.mem_iff.mpr member)
  seen_reached := survey.seen_reached
  starts_found label member :=
    (survey.starts_found label member).imp_right fun pending => same.mem_iff.mp pending
  closed label marked target continues :=
    (survey.closed label marked target continues).imp_right fun pending => same.mem_iff.mp pending

/-- A step keeps what an exploration has found. -/
theorem survey_exploreStep (survey : fragment.Survey point.1 point.2)
    (step : fragment.ExploreStep point next) : fragment.Survey next.1 next.2 := by
  cases step with
  | mark chosen unseen added => exact (survey_mark (survey.perm chosen) unseen).perm added.symm
  | skip chosen looked dropped => exact (survey_skip (survey.perm chosen) looked).perm dropped.symm

/-- So do any number of steps from the outset. -/
theorem survey_of_steps
    (steps : Relation.ReflTransGen fragment.ExploreStep fragment.outset point) :
    fragment.Survey point.1 point.2 := by
  induction steps with
  | refl => exact survey_starts fragment
  | tail _ step inductionHypothesis => exact survey_exploreStep inductionHypothesis step

/-- Each step leaves fewer labels without a mark, or as many of them and fewer that are pending. -/
theorem remaining_lt (step : fragment.ExploreStep point next) :
    Prod.Lex (· < ·) (· < ·) (remaining next) (remaining point) := by
  cases step with
  | mark chosen unseen added => exact .left _ _ (count_false_set_lt unseen)
  | @skip label pending rest later seen chosen looked dropped =>
    have shorter : later.length < pending.length := by
      rw [chosen.length_eq, dropped.length_eq]
      exact Nat.lt_succ_self _
    exact .right _ shorter

/-- So no exploration goes on forever. -/
theorem wellFounded_exploreStep (fragment : Fragment Inst Cond) :
    WellFounded fun next point => fragment.ExploreStep point next :=
  Subrelation.wf remaining_lt (InvImage.wf remaining (Prod.lex Nat.lt_wfRel Nat.lt_wfRel).wf)

/-- As long as labels are pending, there is a step to take. -/
theorem exists_exploreStep (label : Label) (rest : List Label) (seen : Array Bool) :
    ∃ next, fragment.ExploreStep (label :: rest, seen) next := by
  by_cases unseen : seen[label.index]? = some false
  · exact ⟨_, .mark (.refl _) unseen (.refl _)⟩
  · exact ⟨_, .skip (.refl _) unseen (.refl _)⟩

/-- Marks that are on the same labels are the same. -/
theorem Survey.eq_of_done {seen other : Array Bool} (survey : fragment.Survey [] seen)
    (otherSurvey : fragment.Survey [] other) : seen = other := by
  apply Array.ext (survey.size_eq.trans otherSurvey.size_eq.symm)
  intro index inside otherInside
  have reached : seen[index]? = some true ↔ fragment.Reaches ⟨index⟩ := survey.marked_iff
  have otherReached : other[index]? = some true ↔ fragment.Reaches ⟨index⟩ :=
    otherSurvey.marked_iff
  have marked := reached.trans otherReached.symm
  rw [Array.getElem?_eq_getElem inside, Array.getElem?_eq_getElem otherInside, Option.some.injEq,
    Option.some.injEq] at marked
  exact Bool.eq_iff_iff.mpr marked

/-- Wherever an exploration stands, it has come to the marks of `explore`, or it can go on. -/
theorem done_or_exists_exploreStep
    (steps : Relation.ReflTransGen fragment.ExploreStep fragment.outset point) :
    point = ([], fragment.reachMarks) ∨ ∃ next, fragment.ExploreStep point next := by
  have survey := survey_of_steps steps
  obtain ⟨pending, seen⟩ := point
  cases pending with
  | nil => exact .inl (congrArg _ (survey.eq_of_done (survey_reachMarks fragment)))
  | cons label rest => exact .inr (exists_exploreStep label rest seen)

end Steps

section Trails

variable {start last target : Label} {visited : List Label}

/-- A trail can be followed from its last label to a successor of the block there, if that is
hidden. -/
theorem Trail.snoc (trail : fragment.Trail start visited) (ends : visited.getLast? = some last)
    (hidden : target.Within fragment.internal)
    (steps : ∃ block, fragment.code.get? last = some block ∧ target ∈ block.successors) :
    fragment.Trail start (visited ++ [target]) := by
  obtain ⟨earlier, rfl⟩ := List.getLast?_eq_some_iff.mp ends
  have size : (earlier ++ [last]).length = earlier.length + 1 := by simp
  refine ⟨?_, ?_, ?_⟩
  · rw [List.head?_append, trail.head]
    rfl
  · intro label member
    rw [List.tail_append_of_ne_nil (by simp)] at member
    rcases List.mem_append.mp member with before | new
    · exact trail.hidden label before
    · exact List.mem_singleton.mp new ▸ hidden
  · intro index before after beforeFound afterFound
    rcases Nat.lt_or_ge (index + 1) (earlier ++ [last]).length with old | new
    · rw [List.getElem?_append_left old] at afterFound
      rw [List.getElem?_append_left (Nat.lt_of_succ_lt old)] at beforeFound
      exact trail.successor index before after beforeFound afterFound
    · obtain ⟨inside, -⟩ := List.getElem?_eq_some_iff.mp afterFound
      simp only [List.length_append, List.length_singleton] at inside new
      obtain rfl : index = earlier.length := by omega
      obtain rfl : last = before := by simpa using beforeFound
      obtain rfl : target = after := by simpa using afterFound
      exact steps

/-- Whatever is reached lies at the end of a trail from an entry. -/
theorem Reaches.exists_trail {label : Label} (reached : fragment.Reaches label) :
    ∃ (entry : Label) (visited : List Label), entry.Within fragment.inputs ∧
      fragment.Trail (entry.shift fragment.internal.count) visited ∧
        visited.getLast? = some label := by
  induction reached with
  | @entry entry inside => exact ⟨entry, _, inside, trail_single _, rfl⟩
  | step _ found member hidden inductionHypothesis =>
    obtain ⟨entry, visited, inside, trail, ends⟩ := inductionHypothesis
    exact ⟨entry, _, inside, trail.snoc ends hidden ⟨_, found, member⟩, List.getLast?_concat⟩

/-- A trail from a label that is reached passes only labels that are. -/
theorem Trail.reaches (trail : fragment.Trail start visited) (reached : fragment.Reaches start)
    {label : Label} (member : label ∈ visited) : fragment.Reaches label := by
  obtain ⟨index, inside, found⟩ := List.mem_iff_getElem.mp member
  induction index generalizing label with
  | zero =>
    have first := trail.head
    rw [List.head?_eq_getElem?, List.getElem?_eq_getElem inside, found] at first
    exact Option.some.inj first ▸ reached
  | succ index inductionHypothesis =>
    have before := inductionHypothesis (List.getElem_mem (Nat.lt_of_succ_lt inside))
      (Nat.lt_of_succ_lt inside) rfl
    obtain ⟨block, blockFound, successor⟩ := trail.successor index _ label
      (List.getElem?_eq_getElem (Nat.lt_of_succ_lt inside))
      (List.getElem?_eq_some_iff.mpr ⟨inside, found⟩)
    refine .step before blockFound successor (trail.hidden label ?_)
    have inTail : index < visited.tail.length := by
      rw [List.length_tail]
      omega
    rw [← found, ← List.getElem_tail inTail]
    exact List.getElem_mem inTail

end Trails

/-- A set of labels that control does not leave inside of a fragment: it has the entries of the interface,
and the hidden labels among the successors of any label that it has. -/
structure Closed (fragment : Fragment Inst Cond) (labels : Label → Prop) : Prop where
  entry : ∀ entry : Label, entry.Within fragment.inputs →
    labels (entry.shift fragment.internal.count)
  step : ∀ (label target : Label) (block : Block Inst Cond Label), labels label →
    fragment.code.get? label = some block → target ∈ block.successors →
      target.Within fragment.internal → labels target

/-- What is reached is closed. -/
theorem closed_reaches (fragment : Fragment Inst Cond) : fragment.Closed fragment.Reaches where
  entry _ inside := .entry inside
  step _ _ _ reached found member hidden := .step reached found member hidden

/-- Every closed set has whatever is reached. -/
theorem Closed.of_reaches {labels : Label → Prop} (closed : fragment.Closed labels) {label : Label}
    (reached : fragment.Reaches label) : labels label := by
  induction reached with
  | entry inside => exact closed.entry _ inside
  | step _ found member hidden inductionHypothesis =>
    exact closed.step _ _ _ inductionHypothesis found member hidden

/-- Reachability is exact. In whatever order the pending labels are looked at, the exploration comes to
an end, and always to the same marks. The labels that are listed as reachable are the least closed set:
those on the trails from the entries. And those that are listed as unreachable are the hidden labels that
are not among them, in ascending order. -/
theorem reachable_exact (fragment : Fragment Inst Cond) :
    (WellFounded fun next point => fragment.ExploreStep point next) ∧
    (∀ point, Relation.ReflTransGen fragment.ExploreStep fragment.outset point →
      point = ([], fragment.reachMarks) ∨ ∃ next, fragment.ExploreStep point next) ∧
    fragment.Closed (· ∈ fragment.reachable) ∧
    (∀ labels, fragment.Closed labels → ∀ label ∈ fragment.reachable, labels label) ∧
    (∀ label : Label, label ∈ fragment.reachable ↔
      ∃ (entry : Label) (visited : List Label), entry.Within fragment.inputs ∧
        fragment.Trail (entry.shift fragment.internal.count) visited ∧ label ∈ visited) ∧
    (∀ label : Label, label ∈ fragment.unreachable ↔
      label.Within fragment.internal ∧ label ∉ fragment.reachable) ∧
    fragment.unreachable.Pairwise (·.index < ·.index) := by
  have listed : (· ∈ fragment.reachable) = fragment.Reaches :=
    funext fun label => propext mem_reachable_iff
  refine ⟨wellFounded_exploreStep fragment, fun _ => done_or_exists_exploreStep, ?_, ?_, ?_, ?_,
    fragment.pairwise_unreachable⟩
  · rw [listed]
    exact closed_reaches fragment
  · intro labels closed label member
    exact closed.of_reaches (mem_reachable_iff.mp member)
  · intro label
    rw [mem_reachable_iff]
    constructor
    · intro reached
      obtain ⟨entry, visited, inside, trail, ends⟩ := reached.exists_trail
      exact ⟨entry, visited, inside, trail, List.mem_of_getLast? ends⟩
    · rintro ⟨entry, visited, inside, trail, member⟩
      exact trail.reaches (.entry inside) member
  · intro label
    rw [mem_unreachable_iff, mem_reachable_iff]

end Fragment

namespace Countdown

/-- In the relay, control comes to the end of the loop, and never to the label behind it: no block
branches there. -/
theorem reachable_relay :
    ⟨2⟩ ∈ relay.reachable ∧ ⟨3⟩ ∈ relay.unreachable := by
  obtain ⟨-, -, -, least, trails, unreachable, -⟩ := Fragment.reachable_exact relay
  have loop : relay.Trail ⟨1⟩ [⟨1⟩, ⟨2⟩] :=
    (Fragment.trail_single _).cons (by decide) ⟨_, rfl, .head _⟩
  have body : relay.Trail ⟨0⟩ [⟨0⟩, ⟨1⟩, ⟨2⟩] := loop.cons (by decide) ⟨_, rfl, .head _⟩
  have around : relay.Trail ⟨4⟩ [⟨4⟩, ⟨0⟩, ⟨1⟩, ⟨2⟩] :=
    body.cons (by decide) ⟨_, rfl, .head _⟩
  have unused : ∀ block ∈ relay.code.blocks, (⟨3⟩ : Label) ∉ block.successors := by decide
  have closed : relay.Closed (· ≠ ⟨3⟩) := by
    constructor
    · intro entry _ same
      have indices := congrArg Label.index same
      rw [Label.index_shift] at indices
      exact absurd indices (Nat.ne_of_gt (Nat.lt_add_right _ (by decide)))
    · rintro label target block _ found member _ rfl
      exact unused block (Array.mem_of_getElem? found) member
  exact ⟨(trails ⟨2⟩).mpr ⟨⟨0⟩, _, by decide, around, by decide⟩,
    (unreachable ⟨3⟩).mpr ⟨by decide, fun member => least _ closed _ member rfl⟩⟩

end Countdown

end Flowgraph
