import Flowgraph.Countdown.Program
import Flowgraph.Proofs.Fragment.Sequence
import Flowgraph.Proofs.Run.Bounds
import Flowgraph.Proofs.Run.Embedding

/-!
# A sequence runs its parts one after the other

`Fragment.seq` makes five groups of labels share one layout: what the first part hides, what the
second hides, the interface between them, and the entries and exits that remain. Both parts lie in
the result in the sense of `Embeds`. The exits of the first lie where the entries of the second do,
so that the outer fragment goes on with the second part exactly where the first one leaves.
-/

namespace Flowgraph

namespace Fragment

variable {Inst Cond State Fault : Type} {fragment next both : Fragment Inst Cond}

section Places

variable (made : fragment.seq next = .ok both)

include made

/-- The first part lies in the sequence, with room for all labels of the second before its entries,
and room for the hidden ones before its exits. -/
theorem embeds_seq_first :
    Embeds fragment both
      (·.makeRoom fragment.internal.count (next.internal.count + next.inputs.count))
      (·.makeRoom fragment.internal.count next.internal.count) where
  target_eq_place label hidden := by
    rw [Label.makeRoom_of_lt hidden, Label.makeRoom_of_lt hidden]
  place_hidden label hidden := by
    rw [Label.makeRoom_of_lt hidden, Label.Within, count_internal_seq made, Nat.add_assoc]
    exact Nat.lt_add_right _ hidden
  block_hidden label hidden := get?_seq_first made (fragment.within_entries_of_hidden hidden)

/-- The second part lies in the sequence as a whole, behind the hidden labels of the first. -/
theorem embeds_seq_second :
    Embeds next both (·.shift fragment.internal.count)
      (fun target =>
        (target.makeRoom next.internal.count next.inputs.count).shift
          fragment.internal.count) where
  target_eq_place label hidden := by rw [Label.makeRoom_of_lt hidden]
  place_hidden label hidden := by
    rw [Label.Within, count_internal_seq made, Label.index_shift, Nat.add_assoc]
    exact Nat.add_lt_add_left (Nat.lt_add_right _ hidden) _
  block_hidden label hidden := get?_seq_second made (next.within_entries_of_hidden hidden)

/-- From the place of an entry of the second part, the sequence runs as that part does on its own,
and leaves through the same exits. -/
theorem runFrom_seq_second (machine : Machine Inst Cond State Fault) {entry : Label}
    (inside : entry.Within next.inputs)
    (placed : (entry.shift (fragment.internal.count + next.internal.count)).Within
      both.code.entries) (fuel : Nat) (state : State) :
    both.runFrom machine fuel
        ⟨entry.shift (fragment.internal.count + next.internal.count), placed⟩ #[] state =
      (next.run machine entry fuel state).relocate (·.shift fragment.internal.count) id := by
  have places : entry.shift (fragment.internal.count + next.internal.count) =
      (entry.shift next.internal.count).shift fragment.internal.count :=
    (Label.shift_shift entry next.internal.count fragment.internal.count).symm
  have block := get?_seq_second made (next.shift_within_entries inside)
  rw [← places] at block
  -- An exit of the second part lies behind all that the sequence hides, so it is an exit again.
  have leaves (exit : Label) :
      ((exit.shift next.internal.count).makeRoom next.internal.count next.inputs.count).shift
        fragment.internal.count = (id exit).shift both.internal.count := by
    rw [Label.makeRoom_shift, Label.shift_shift, ← Nat.add_assoc, ← count_internal_seq made, id]
  rw [run_of_within next machine inside]
  exact (embeds_seq_second made).runFrom_eq_relocate machine leaves fuel _ _ places block state

/-- From an entry, the sequence runs as its first part does until that leaves through an exit, and
then as the second part does from the entry with the same label, with the fuel that is left and on
the machine as it stands. -/
theorem run_seq_eq_resume (machine : Machine Inst Cond State Fault) (entry : Label) (fuel : Nat)
    (state : State) :
    both.run machine entry fuel state =
      (fragment.run machine entry fuel state).resume
        (·.makeRoom fragment.internal.count (next.internal.count + next.inputs.count)) fuel
        fun left exit state =>
          (next.run machine exit left state).relocate (·.shift fragment.internal.count) id := by
  by_cases inside : entry.Within fragment.inputs
  · have bothInside : entry.Within both.inputs := by
      rw [inputs_seq made]
      exact inside
    have places : entry.shift both.internal.count =
        (entry.shift fragment.internal.count).makeRoom fragment.internal.count
          (next.internal.count + next.inputs.count) := by
      rw [Label.makeRoom_shift, count_internal_seq made, Nat.add_assoc]
    have block := get?_seq_first made (fragment.shift_within_entries inside)
    rw [← places] at block
    rw [(embeds_seq_first made).run_eq_resume machine inside bothInside places block fuel state]
    refine Run.resume_congr fun exit left => ?_
    -- The first part can only leave through an exit that it has, which is an entry of the second.
    have exitInside : exit.Within next.inputs := by
      rw [← (seq_steps made).1]
      exact (fragment.run_bounded machine entry fuel state).exit_within exit left
    have hidden :
        (exit.shift (fragment.internal.count + next.internal.count)).Within both.internal := by
      rw [Label.Within, count_internal_seq made, Label.index_shift]
      exact Nat.add_lt_add_left exitInside _
    rw [Embeds.next, Label.makeRoom_shift, proceed_of_hidden both machine hidden]
    exact runFrom_seq_second made machine exitInside _ _ _
  · have bothOutside : ¬ entry.Within both.inputs := by
      rw [inputs_seq made]
      exact inside
    rw [run_of_not_within both machine bothOutside, run_of_not_within fragment machine inside,
      inputs_seq made]
    simp

/-- A sequence is out of fuel when one of its parts is. The second part gets what the first one has
left, and the report counts the blocks of both. -/
theorem run_seq_eq_outOfFuel_iff (machine : Machine Inst Cond State Fault) (entry : Label)
    (fuel : Nat) (state : State) :
    (both.run machine entry fuel state).verdict = .error (.outOfFuel fuel) ↔
      (fragment.run machine entry fuel state).verdict = .error (.outOfFuel fuel) ∨
        ∃ exit, (fragment.run machine entry fuel state).verdict = .ok (.label exit) ∧
          ∃ left, fuel = (fragment.run machine entry fuel state).visited.size + left ∧
            (next.run machine exit left
              (fragment.run machine entry fuel state).state).verdict =
                .error (.outOfFuel left) := by
  rw [run_seq_eq_resume made machine entry fuel state, Run.verdict_resume_eq_outOfFuel_iff]
  refine or_congr_right (exists_congr fun exit => and_congr_right fun _ => ?_)
  have size := (fragment.run_bounded machine entry fuel state).size_le
  constructor
  · rintro ⟨later, spent, counted⟩
    have left : fuel - (fragment.run machine entry fuel state).visited.size = later := by omega
    rw [Run.verdict_relocate_eq_error_iff, left] at spent
    exact ⟨later, counted, spent⟩
  · rintro ⟨left, counted, spent⟩
    refine ⟨left, ?_, counted⟩
    rw [Run.verdict_relocate_eq_error_iff, Nat.sub_eq_of_eq_add' counted]
    exact spent

/-- A sequence is sequential execution: from each of its entries it runs the first part, and, when
that leaves through an exit, the second part from there. It is out of fuel exactly when one of the
two is, and says so with the fuel that it was given. -/
theorem run_seq (machine : Machine Inst Cond State Fault) (entry : Label) (fuel : Nat)
    (state : State) :
    both.run machine entry fuel state =
        (fragment.run machine entry fuel state).resume
          (·.makeRoom fragment.internal.count (next.internal.count + next.inputs.count)) fuel
          (fun left exit state =>
            (next.run machine exit left state).relocate (·.shift fragment.internal.count) id) ∧
      (∀ blocks, (both.run machine entry fuel state).verdict = .error (.outOfFuel blocks) →
        blocks = fuel) ∧
      ((both.run machine entry fuel state).verdict = .error (.outOfFuel fuel) ↔
        (fragment.run machine entry fuel state).verdict = .error (.outOfFuel fuel) ∨
          ∃ exit, (fragment.run machine entry fuel state).verdict = .ok (.label exit) ∧
            ∃ left, fuel = (fragment.run machine entry fuel state).visited.size + left ∧
              (next.run machine exit left
                (fragment.run machine entry fuel state).state).verdict =
                  .error (.outOfFuel left)) :=
  ⟨run_seq_eq_resume made machine entry fuel state,
    (both.run_bounded machine entry fuel state).outOfFuel_eq,
    run_seq_eq_outOfFuel_iff made machine entry fuel state⟩

end Places

end Fragment

namespace Countdown

/-- The loop that counts down, behind a hidden label, and an entry that goes there. -/
def descent : Fragment Inst Cond where
  internal := .one
  inputs := .one
  outputs := .one
  code := {
    exits := 2
    blocks := #[⟨[.say "tick", .dec], .conditional () ⟨0⟩ ⟨1⟩⟩, ⟨[], .jump ⟨0⟩⟩]
    entries_fit := by decide
    targets_within := by decide }
  entries_eq := by decide
  exits_eq := by decide

/-- Two descents in sequence: the second starts where the first one has arrived. -/
theorem run_descent_seq_descent :
    ∃ both, descent.seq descent = .ok both ∧
      both.run machine ⟨0⟩ 9 ⟨2, #[]⟩ =
        (descent.run machine ⟨0⟩ 9 ⟨2, #[]⟩).resume (·.makeRoom 1 2) 9 fun left exit state =>
          (descent.run machine exit left state).relocate (·.shift 1) id := by
  obtain ⟨both, made⟩ := Fragment.exists_seq descent descent rfl (by decide) (by decide)
  exact ⟨both, made, (Fragment.run_seq made machine ⟨0⟩ 9 ⟨2, #[]⟩).1⟩

end Countdown

end Flowgraph
