import Flowgraph.Countdown.Program
import Flowgraph.Proofs.Fragment.Interface
import Flowgraph.Proofs.Run.Bounds
import Flowgraph.Proofs.Run.Embedding

/-!
# Linking is feedback

Linking hides exits and entries with equal labels. Seen from outside, that is a loop: whenever
control leaves through one of the hidden exits, it comes back at the entry with the same label.
`Fragment.feedback` is that loop, around runs of the fragment that is not linked, and
`run_link_eq_feedback` says that a run of the linked fragment is the same, down to the labels that
it visits, the fuel that it uses up and the state in which it leaves the machine.
-/

namespace Flowgraph

namespace Fragment

variable {Inst Cond State Fault : Type}

/-- Run a fragment from an entry, and again whenever it leaves through one of its first `linked`
exits: from the entry with that label, with the fuel that is left, on the machine as it stands. Any
other exit ends the loop, and is numbered without the first ones. -/
def feedback (fragment : Fragment Inst Cond) (machine : Machine Inst Cond State Fault)
    (linked : Size) (fuel : Nat) (entry : Label) (state : State) : Run State Fault :=
  let round := fragment.run machine entry fuel state
  match _ : round.verdict with
  | .ok (.label exit) =>
    if exit.Within linked then
      (fragment.feedback machine linked (fuel - round.visited.size) exit round.state).after
        round.visited
    else
      ⟨.ok (.label ⟨exit.index - linked.count⟩), round.visited, round.state⟩
  | _ => round
termination_by fuel
decreasing_by
  have positive := fragment.run_visited_pos machine ‹_›
  have size := (fragment.run_bounded machine entry fuel state).size_le
  omega

/-- The loop is one round that is resumed with the loop itself. -/
theorem feedback_eq_resume (fragment : Fragment Inst Cond)
    (machine : Machine Inst Cond State Fault) (linked : Size) (fuel : Nat) (entry : Label)
    (state : State) :
    fragment.feedback machine linked fuel entry state =
      (fragment.run machine entry fuel state).resume (fun label => label) fuel
        fun left exit state =>
          if exit.Within linked then
            fragment.feedback machine linked left exit state
          else
            ⟨.ok (.label ⟨exit.index - linked.count⟩), #[], state⟩ := by
  rw [feedback]
  obtain ⟨verdict, visited, after⟩ := fragment.run machine entry fuel state
  cases verdict with
  | error error => simp
  | ok exit =>
    cases exit with
    | halt => simp
    | label exit =>
      by_cases back : exit.Within linked
      · simp [back]
      · simp [back]

/-- A fragment lies in the one that is made of it by linking, with all labels at their places. -/
theorem embeds_link {fragment looped : Fragment Inst Cond} {linked : Size}
    (made : fragment.link linked = .ok looped) :
    Embeds fragment looped (fun label => label) (fun label => label) where
  target_eq_place _ _ := rfl
  place_hidden label hidden := by
    rw [Label.Within, count_internal_link made]
    exact Nat.lt_add_right _ hidden
  block_hidden label _ := get?_link made label

/-- From the place of any entry, hidden by the link or not, the linked fragment runs as the loop
does. The induction is on the fuel: a round that comes back has used some of it. -/
theorem runFrom_link_eq_feedback {fragment looped : Fragment Inst Cond} {linked : Size}
    (made : fragment.link linked = .ok looped) (machine : Machine Inst Cond State Fault)
    (fuel : Nat) {entry : Label} (inside : entry.Within fragment.inputs)
    (placed : (entry.shift fragment.internal.count).Within looped.code.entries) (state : State) :
    looped.runFrom machine fuel ⟨entry.shift fragment.internal.count, placed⟩ #[] state =
      fragment.feedback machine linked fuel entry state := by
  induction fuel using Nat.strongRecOn generalizing entry state with
  | ind fuel inductionHypothesis =>
    rw [(embeds_link made).runFrom_eq_resume machine fuel
      ⟨_, fragment.shift_within_entries inside⟩ _ rfl (get?_link made _), feedback_eq_resume,
      run_of_within fragment machine inside]
    refine Run.resume_congr fun exit left => ?_
    rw [← run_of_within fragment machine inside] at left ⊢
    have positive := fragment.run_visited_pos machine left
    have size := (fragment.run_bounded machine entry fuel state).size_le
    by_cases back : exit.Within linked
    · have hidden : (exit.shift fragment.internal.count).Within looped.internal := by
        rw [Label.Within, count_internal_link made, Label.index_shift]
        exact Nat.add_lt_add_left back _
      have exitInside : exit.Within fragment.inputs :=
        Nat.lt_of_lt_of_le back (link_eq_ok_iff.mp made).1
      rw [if_pos back, Embeds.next, proceed_of_hidden looped machine hidden]
      exact inductionHypothesis _ (by omega) exitInside _ _
    · obtain ⟨visible, rfl⟩ := Label.exists_eq_shift_of_le (Nat.not_lt.mp back)
      rw [if_neg back, Embeds.next, Label.shift_shift, ← count_internal_link made, proceed_shift]
      simp

/-- Linking is feedback: a fragment that is linked runs, from every entry that is left to it, as the
loop around the fragment that is not, from the entry behind the linked ones. Out of fuel is reported
with the fuel that the whole loop was given. -/
theorem run_link_eq_feedback (fragment : Fragment Inst Cond) (linked : Size)
    (inputsWide : linked.count ≤ fragment.inputs.count)
    (outputsWide : linked.count ≤ fragment.outputs.count)
    (machine : Machine Inst Cond State Fault) :
    ∃ looped, fragment.link linked = .ok looped ∧
      ∀ entry : Label, entry.index < fragment.inputs.count - linked.count →
        ∀ (fuel : Nat) (state : State),
          looped.run machine entry fuel state =
              fragment.feedback machine linked fuel (entry.shift linked.count) state ∧
            ∀ blocks, (looped.run machine entry fuel state).verdict = .error (.outOfFuel blocks) →
              blocks = fuel := by
  obtain ⟨looped, made⟩ := fragment.exists_link linked inputsWide outputsWide
  refine ⟨looped, made, fun entry inside fuel state => ⟨?_, ?_⟩⟩
  · have loopedInside : entry.Within looped.inputs := by
      rw [Label.Within, count_inputs_link made]
      exact inside
    have entryInside : (entry.shift linked.count).Within fragment.inputs := by
      rw [Label.Within, Label.index_shift]
      omega
    rw [run_of_within looped machine loopedInside]
    simp only [count_internal_link made, ← Label.shift_shift]
    exact runFrom_link_eq_feedback made machine fuel entryInside _ state
  · exact (looped.run_bounded machine entry fuel state).outOfFuel_eq

end Fragment

namespace Countdown

/-- One round of counting down, which can be entered in two ways: speak, count, and leave through
the first exit as long as the counter is not zero. -/
def round : Fragment Inst Cond where
  internal := .zero
  inputs := 2
  outputs := 2
  code := {
    exits := 2
    blocks := #[⟨[.say "tick", .dec], .conditional () ⟨0⟩ ⟨1⟩⟩,
      ⟨[.say "tick", .dec], .conditional () ⟨0⟩ ⟨1⟩⟩]
    entries_fit := by decide
    targets_within := by decide }
  entries_eq := by decide
  exits_eq := by decide

/-- The round, linked to its first entry, counts down as the loop around it does. -/
theorem run_link_round_eq_feedback :
    ∃ looped, round.link .one = .ok looped ∧
      looped.run machine ⟨0⟩ 4 ⟨3, #[]⟩ =
        round.feedback machine .one 4 ⟨1⟩ ⟨3, #[]⟩ := by
  obtain ⟨looped, made, loops⟩ := Fragment.run_link_eq_feedback round .one
    (by decide) (by decide) machine
  exact ⟨looped, made, (loops ⟨0⟩ (by decide) 4 ⟨3, #[]⟩).1⟩

end Countdown

end Flowgraph
