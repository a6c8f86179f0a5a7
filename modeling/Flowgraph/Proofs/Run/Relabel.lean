import Flowgraph.Proofs.Fragment.Lifting
import Flowgraph.Proofs.Run.Fuel
import Flowgraph.Proofs.Run.Sliding

/-!
# Renaming an interface, at once or by an adapter

The interface of a fragment can be renamed in place, which is `Fragment.relabel`, or a renaming can be
made a fragment of its own and put before or behind it. The adapter consists of jumps, so it only costs
the block that control passes on its way through.

Either way of renaming is told by where the blocks are placed. With other entries, the renamed fragment
lies in the one that was renamed, since several entries may share a block there; with other exits it is
the other way around. A renaming between two fragments can then be given to the first or to the second,
and `placed_relabel_seq` compares the two sequences part by part.
-/

namespace Flowgraph

namespace Fragment

variable {Inst Cond State Fault : Type}

section Adapter

variable {table : Renaming} (machine : Machine Inst Cond State Fault)

/-- With fuel for one block, an adapter passes control on to the image of the entry, and does not touch
the machine. -/
theorem run_ofRenaming {entry : Label} (inside : entry.Within table.domain) (fuel : Nat)
    (state : State) :
    (ofRenaming table : Fragment Inst Cond).run machine entry (fuel + 1) state =
      ⟨.ok (.label (table.image entry)), #[entry], state⟩ := by
  have entryInside : entry.Within (ofRenaming table : Fragment Inst Cond).inputs := by
    rwa [inputs_ofRenaming]
  have executes : (ofRenaming table : Fragment Inst Cond).Executes machine entry state
      (.ok (some (table.image entry)) state) :=
    ⟨_, get?_ofRenaming inside, rfl⟩
  rw [run_of_within _ machine entryInside, runFrom_eq_ok_iff]
  refine ⟨by simp, ?_⟩
  simpa [Exit.answer] using chainEnds_single executes

end Adapter

section Entries

variable {fragment renamed adapted : Fragment Inst Cond} {f : Renaming} {size : Size}
  (renamedMade : fragment.relabel f (.identity size) = .ok renamed)

include renamedMade

/-- With other entries, each block of a fragment is one that it had before. -/
theorem placed_relabel_entries :
    Placed renamed fragment (·.mapVisible fragment.internal.count f.image) fun target => target where
  block label inside := by
    rw [get?_relabel_entries renamedMade inside]
    simp

/-- From a new entry, it runs as it did from the old one. -/
theorem run_relabel_entries (machine : Machine Inst Cond State Fault) {entry : Label}
    (inside : entry.Within f.domain) (fuel : Nat) (state : State) :
    fragment.run machine (f.image entry) fuel state =
      (renamed.run machine entry fuel state).relocate
        (·.mapVisible fragment.internal.count f.image) id := by
  have internal := internal_relabel renamedMade
  have entryInside : entry.Within renamed.inputs := inputs_relabel renamedMade ▸ inside
  have imageInside : (f.image entry).Within fragment.inputs :=
    (relabel_steps renamedMade).1 ▸ f.image_within inside
  apply (placed_relabel_entries renamedMade).run_eq_relocate ?_ ?_ ?_ machine entryInside imageInside
  · rw [internal, Label.mapVisible_shift]
  · intro label hidden
    rw [internal] at hidden
    exact (Label.mapVisible_of_lt hidden).symm
  · intro label hidden
    rw [internal] at hidden
    rwa [Label.mapVisible_of_lt hidden]
  · intro exit
    rw [internal, id]

/-- An adapter before the entries comes to the same, one block later. Outside of the interface, both
refuse the entry. -/
theorem run_adapter_seq (adaptedMade : (ofRenaming f).seq fragment = .ok adapted)
    (machine : Machine Inst Cond State Fault) (entry : Label) (fuel : Nat) (state : State) :
    adapted.run machine entry (fuel + 1) state =
      if entry.Within f.domain then
        ((renamed.run machine entry fuel state).relocate
          (·.mapVisible fragment.internal.count f.image) id).after
            #[entry.shift (fragment.internal.count + fragment.inputs.count)]
      else renamed.run machine entry fuel state := by
  split
  · rename_i inside
    have passed : (ofRenaming f : Fragment Inst Cond).run machine entry (fuel + 1) state =
        ⟨.ok (.label (f.image entry)), #[entry], state⟩ := run_ofRenaming machine inside fuel state
    have place : entry.makeRoom 0 (fragment.internal.count + fragment.inputs.count) =
        entry.shift (fragment.internal.count + fragment.inputs.count) :=
      Label.makeRoom_of_le (Nat.zero_le _)
    rw [run_seq_eq_resume adaptedMade, passed, Run.resume_label,
      ← run_relabel_entries renamedMade machine inside]
    simp [Run.relocate_id, place]
  · rename_i outside
    have adaptedInputs : adapted.inputs = f.domain := by
      rw [inputs_seq adaptedMade, inputs_ofRenaming]
    have renamedInputs := inputs_relabel renamedMade
    rw [run_of_not_within adapted machine (adaptedInputs ▸ outside),
      run_of_not_within renamed machine (renamedInputs ▸ outside), adaptedInputs, renamedInputs]

end Entries

section Exits

variable {fragment renamed adapted : Fragment Inst Cond} {g : Renaming}
  (renamedMade : fragment.relabel (.identity fragment.inputs) g = .ok renamed)

include renamedMade

/-- With other exits, all blocks of a fragment stay where they are. -/
theorem placed_relabel_exits :
    Placed fragment renamed (fun label => label)
      (·.mapVisible fragment.internal.count g.image) where
  block label inside := by
    apply get?_relabel_exits renamedMade
    rwa [Label.Within, renamed.entries_eq, internal_relabel renamedMade, inputs_relabel renamedMade,
      Renaming.domain_identity, ← fragment.entries_eq]

/-- It runs as it did, and leaves through the images of the exits. -/
theorem run_relabel_exits (machine : Machine Inst Cond State Fault) (entry : Label) (fuel : Nat)
    (state : State) :
    renamed.run machine entry fuel state =
      (fragment.run machine entry fuel state).relocate (fun label => label) g.image := by
  have internal := internal_relabel renamedMade
  have inputs : renamed.inputs = fragment.inputs := by
    rw [inputs_relabel renamedMade, Renaming.domain_identity]
  by_cases inside : entry.Within fragment.inputs
  · apply (placed_relabel_exits renamedMade).run_eq_relocate ?_ ?_ ?_ machine inside (inputs ▸ inside)
    · rw [internal]
    · intro label hidden
      exact Label.mapVisible_of_lt hidden
    · intro label hidden
      rwa [internal]
    · intro exit
      rw [internal, Label.mapVisible_shift]
  · rw [run_of_not_within renamed machine (inputs ▸ inside),
      run_of_not_within fragment machine inside, inputs]
    simp [Run.relocate, Except.map]

section Adapted

variable (adaptedMade : fragment.seq (ofRenaming g) = .ok adapted)
  (machine : Machine Inst Cond State Fault) {entry : Label} {fuel : Nat} {state : State}

include adaptedMade

/-- An adapter behind the exits passes control on through the image of the exit, with one block more. -/
theorem run_seq_adapter_of_left {exit : Label}
    (left : (renamed.run machine entry fuel state).verdict = .ok (.label exit)) :
    ∃ source : Label, source.Within fragment.outputs ∧ g.image source = exit ∧
      adapted.run machine entry (fuel + 1) state =
        ⟨.ok (.label exit),
          ((renamed.run machine entry fuel state).visited.map
            (·.makeRoom fragment.internal.count fragment.outputs.count)).push
              (source.shift fragment.internal.count),
          (renamed.run machine entry fuel state).state⟩ := by
  rw [run_relabel_exits renamedMade, Run.verdict_relocate_eq_label_iff] at left
  obtain ⟨source, sourceLeft, rfl⟩ := left
  have bounded := fragment.run_bounded machine entry fuel state
  have sourceInside := bounded.exit_within source sourceLeft
  have size := bounded.size_le
  have longer := run_eq_of_le (Run.finished_of_ok sourceLeft) (Nat.le_add_right fuel 1)
  refine ⟨source, sourceInside, rfl, ?_⟩
  rw [run_relabel_exits renamedMade]
  generalize fragment.run machine entry fuel state = run at *
  obtain ⟨verdict, visited, after⟩ := run
  cases sourceLeft
  -- There is fuel for the adapter, since the run was not out of fuel without it.
  obtain ⟨rest, spare⟩ : ∃ rest, fuel + 1 - visited.size = rest + 1 :=
    ⟨fuel - visited.size, by simp only at size; omega⟩
  have passes : source.Within g.domain := (relabel_steps renamedMade).2.1 ▸ sourceInside
  have inputs := (seq_steps adaptedMade).1
  rw [inputs_ofRenaming] at inputs
  rw [run_seq_eq_resume adaptedMade, longer, Run.resume_label, spare,
    run_ofRenaming machine passes, Run.relocate_id]
  simp [Run.relocate, inputs]

/-- A run that does not come to the exits does not come to an adapter behind them either. -/
theorem run_seq_adapter_of_stayed
    (stayed : ∀ exit, (renamed.run machine entry fuel state).verdict ≠ .ok (.label exit)) :
    adapted.run machine entry fuel state =
      ⟨(renamed.run machine entry fuel state).verdict,
        (renamed.run machine entry fuel state).visited.map
          (·.makeRoom fragment.internal.count fragment.outputs.count),
        (renamed.run machine entry fuel state).state⟩ := by
  have inputs := (seq_steps adaptedMade).1
  rw [inputs_ofRenaming] at inputs
  rw [run_relabel_exits renamedMade] at stayed ⊢
  rw [run_seq_eq_resume adaptedMade]
  generalize fragment.run machine entry fuel state = run at *
  obtain ⟨verdict, visited, after⟩ := run
  cases verdict with
  | error error => simp [Run.relocate, Except.map, inputs]
  | ok exit =>
    cases exit with
    | halt => simp [Run.relocate, Except.map, inputs]
    | label exit => exact absurd rfl (stayed (g.image exit))

end Adapted

end Exits

section Between

variable {fragment next widened narrowed left right : Fragment Inst Cond} {h : Renaming}
  (widenedMade : fragment.relabel (.identity fragment.inputs) h = .ok widened)
  (leftMade : widened.seq next = .ok left)
  (narrowedMade : next.relabel h (.identity next.outputs) = .ok narrowed)
  (rightMade : fragment.seq narrowed = .ok right)

include widenedMade leftMade narrowedMade rightMade

/-- A renaming in the middle of a sequence can be given to either part. Where the second part has it,
each label of the middle interface has a block of its own; where the first has it, labels share the
block of their image. -/
theorem placed_relabel_seq :
    Placed right left
      (·.mapVisible (fragment.internal.count + next.internal.count) h.extend)
      (·.mapVisible (fragment.internal.count + next.internal.count) h.extend) where
  block label inside := by
    have widenedInternal := internal_relabel widenedMade
    have narrowedInternal := internal_relabel narrowedMade
    have narrowedInputs := inputs_relabel narrowedMade
    obtain ⟨nextInputs, -, -⟩ := relabel_steps narrowedMade
    obtain ⟨-, outputs, -⟩ := relabel_steps widenedMade
    rcases seq_cases rightMade inside with ⟨part, partInside, rfl⟩ | ⟨part, partInside, rfl⟩
    · have inLeft := (placed_relabel_exits widenedMade).trans (placed_seq_first leftMade)
      apply (placed_seq_first rightMade).block_move inLeft _ ?_ ?_ partInside
      · intro entry _
        rw [widenedInternal, narrowedInternal, narrowedInputs, ← nextInputs,
          ← Label.makeRoom_makeRoom, ← Label.makeRoom_makeRoom, h.mapVisible_extend_makeRoom]
      · intro target within
        rw [Label.Within, fragment.exits_eq, ← outputs] at within
        rw [widenedInternal, narrowedInternal, Label.mapVisible_makeRoom,
          Renaming.mapVisible_extend_of_lt within]
    · have inLeft := (placed_relabel_entries narrowedMade).trans (placed_seq_second leftMade)
      apply (placed_seq_second rightMade).block_move inLeft _ ?_ ?_ partInside
      · intro entry within
        rw [Label.Within, narrowed.entries_eq, narrowedInternal, narrowedInputs] at within
        rw [widenedInternal, Label.mapVisible_shift_add, Renaming.mapVisible_extend_of_lt within]
      · intro target _
        rw [widenedInternal, narrowedInternal, narrowedInputs, ← nextInputs,
          Label.mapVisible_shift_add, h.mapVisible_extend_makeRoom]

/-- So it does not matter to a run which part has it. -/
theorem run_relabel_seq (machine : Machine Inst Cond State Fault) (entry : Label) (fuel : Nat)
    (state : State) :
    left.run machine entry fuel state =
      (right.run machine entry fuel state).relocate
        (·.mapVisible (fragment.internal.count + next.internal.count) h.extend) id := by
  have leftInputs : left.inputs = fragment.inputs := by
    rw [inputs_seq leftMade, inputs_relabel widenedMade, Renaming.domain_identity]
  have rightInputs := inputs_seq rightMade
  have leftInternal : left.internal.count =
      fragment.internal.count + next.internal.count + h.codomain.count := by
    rw [count_internal_seq leftMade, internal_relabel widenedMade, (relabel_steps narrowedMade).1]
  have rightInternal : right.internal.count =
      fragment.internal.count + next.internal.count + h.domain.count := by
    rw [count_internal_seq rightMade, internal_relabel narrowedMade, inputs_relabel narrowedMade]
  have leaves (exit : Label) :
      (exit.shift right.internal.count).mapVisible
          (fragment.internal.count + next.internal.count) h.extend =
        exit.shift left.internal.count := by
    rw [leftInternal, rightInternal, h.mapVisible_extend_shift]
  by_cases inside : entry.Within fragment.inputs
  · apply (placed_relabel_seq widenedMade leftMade narrowedMade rightMade).run_eq_relocate
      (fun _ _ => rfl) ?_ leaves machine (rightInputs ▸ inside) (leftInputs ▸ inside)
      (leaves entry).symm
    intro label hidden
    rw [Label.Within, rightInternal] at hidden
    rw [Label.Within, leftInternal]
    exact Renaming.mapVisible_extend_lt hidden
  · rw [run_of_not_within left machine (leftInputs ▸ inside),
      run_of_not_within right machine (rightInputs ▸ inside), leftInputs, rightInputs,
      Run.relocate_id]
    simp

end Between

/-- An interface can be renamed in place or by an adapter. Before the entries, the adapter takes one block
and one unit of fuel more, and the run is otherwise the same. Behind the exits, it does so when control
comes there, and a run that ends earlier is not changed at all. And between two fragments, a renaming can
be given to either of them. -/
theorem run_relabel_agree (fragment next : Fragment Inst Cond)
    (machine : Machine Inst Cond State Fault) (entry : Label) (fuel : Nat) (state : State) :
    (∀ f adapted renamed, (ofRenaming f).seq fragment = .ok adapted →
      fragment.relabel f (.identity fragment.outputs) = .ok renamed →
        (entry.Within f.domain →
          adapted.run machine entry (fuel + 1) state =
            ⟨(renamed.run machine entry fuel state).verdict.mapError (.after 1),
              #[entry.shift (fragment.internal.count + fragment.inputs.count)] ++
                (renamed.run machine entry fuel state).visited.map
                  (·.mapVisible fragment.internal.count f.image),
              (renamed.run machine entry fuel state).state⟩) ∧
        (¬ entry.Within f.domain →
          adapted.run machine entry (fuel + 1) state = renamed.run machine entry fuel state)) ∧
    (∀ g adapted renamed, fragment.seq (ofRenaming g) = .ok adapted →
      fragment.relabel (.identity fragment.inputs) g = .ok renamed →
        (∀ exit, (renamed.run machine entry fuel state).verdict = .ok (.label exit) →
          ∃ source : Label, source.Within fragment.outputs ∧ g.image source = exit ∧
            adapted.run machine entry (fuel + 1) state =
              ⟨.ok (.label exit),
                ((renamed.run machine entry fuel state).visited.map
                  (·.makeRoom fragment.internal.count fragment.outputs.count)).push
                    (source.shift fragment.internal.count),
                (renamed.run machine entry fuel state).state⟩) ∧
        ((∀ exit, (renamed.run machine entry fuel state).verdict ≠ .ok (.label exit)) →
          adapted.run machine entry fuel state =
            ⟨(renamed.run machine entry fuel state).verdict,
              (renamed.run machine entry fuel state).visited.map
                (·.makeRoom fragment.internal.count fragment.outputs.count),
              (renamed.run machine entry fuel state).state⟩)) ∧
    ∀ h left right,
      (do (← fragment.relabel (.identity fragment.inputs) h).seq next) = .ok left →
        (do fragment.seq (← next.relabel h (.identity next.outputs))) = .ok right →
          left.run machine entry fuel state =
            ⟨(right.run machine entry fuel state).verdict,
              (right.run machine entry fuel state).visited.map
                (·.mapVisible (fragment.internal.count + next.internal.count) h.extend),
              (right.run machine entry fuel state).state⟩ := by
  refine ⟨?_, ?_, ?_⟩
  · intro f adapted renamed adaptedMade renamedMade
    have agree := run_adapter_seq renamedMade adaptedMade machine entry fuel state
    constructor
    · intro inside
      rw [agree, if_pos inside, Run.relocate_id]
      rfl
    · intro outside
      rw [agree, if_neg outside]
  · intro g adapted renamed adaptedMade renamedMade
    constructor
    · intro exit left
      exact run_seq_adapter_of_left renamedMade adaptedMade machine left
    · intro stayed
      exact run_seq_adapter_of_stayed renamedMade adaptedMade machine stayed
  · intro h left right leftMade rightMade
    simp only [bind_eq_ok_iff] at leftMade rightMade
    obtain ⟨widened, widenedMade, leftMade⟩ := leftMade
    obtain ⟨narrowed, narrowedMade, rightMade⟩ := rightMade
    rw [run_relabel_seq widenedMade leftMade narrowedMade rightMade, Run.relocate_id]

end Fragment

namespace Countdown

/-- The exit of a descent as the second of two. -/
def aside : Renaming where
  codomain := 2
  images := #[⟨1⟩]
  domain_fits := by decide
  images_within := by decide

/-- A descent with two entries, with another exit, and with stages behind that exit. Counting down from
two takes three blocks, and with an adapter a fourth; with two blocks, control does not come to the
adapter behind it. -/
theorem run_descent_relabelled :
    (∃ adapted renamed, (Fragment.ofRenaming merged).seq descent = .ok adapted ∧
      descent.relabel merged (.identity descent.outputs) = .ok renamed ∧
        adapted.run machine ⟨1⟩ 4 ⟨2, #[]⟩ =
          ⟨(renamed.run machine ⟨1⟩ 3 ⟨2, #[]⟩).verdict.mapError (.after 1),
            #[⟨3⟩] ++ (renamed.run machine ⟨1⟩ 3 ⟨2, #[]⟩).visited.map
              (·.mapVisible 1 merged.image),
            (renamed.run machine ⟨1⟩ 3 ⟨2, #[]⟩).state⟩) ∧
    (∃ adapted, descent.seq (Fragment.ofRenaming aside) = .ok adapted ∧
      adapted.run machine ⟨0⟩ 4 ⟨2, #[]⟩ =
          ⟨.ok (.label ⟨1⟩), #[⟨2⟩, ⟨0⟩, ⟨0⟩, ⟨1⟩], ⟨0, #["tick (2)", "tick (1)"]⟩⟩ ∧
        adapted.run machine ⟨0⟩ 2 ⟨2, #[]⟩ =
          ⟨.error (.outOfFuel 2), #[⟨2⟩, ⟨0⟩], ⟨1, #["tick (2)"]⟩⟩) ∧
    ∃ left right, (do (← descent.relabel (.identity descent.inputs) aside).seq stages) = .ok left ∧
      (do descent.seq (← stages.relabel aside (.identity stages.outputs))) = .ok right ∧
        left.run machine ⟨0⟩ 9 ⟨2, #[]⟩ =
          ⟨(right.run machine ⟨0⟩ 9 ⟨2, #[]⟩).verdict,
            (right.run machine ⟨0⟩ 9 ⟨2, #[]⟩).visited.map (·.mapVisible 1 aside.extend),
            (right.run machine ⟨0⟩ 9 ⟨2, #[]⟩).state⟩ := by
  refine ⟨?_, ?_, ?_⟩
  · obtain ⟨adapted, adaptedMade⟩ := Fragment.exists_seq (Fragment.ofRenaming merged) descent rfl
      (by decide +kernel) (by decide +kernel)
    obtain ⟨renamed, renamedMade⟩ := Fragment.exists_relabel descent merged
      (.identity descent.outputs) rfl (Renaming.domain_identity _) (by decide) (by decide)
    obtain ⟨before, -, -⟩ := Fragment.run_relabel_agree descent stages machine ⟨1⟩ 3 ⟨2, #[]⟩
    obtain ⟨agree, -⟩ := before merged adapted renamed adaptedMade renamedMade
    exact ⟨adapted, renamed, adaptedMade, renamedMade, agree (by decide)⟩
  · obtain ⟨adapted, adaptedMade⟩ := Fragment.exists_seq descent (Fragment.ofRenaming aside)
      (Fragment.inputs_ofRenaming aside).symm (by decide +kernel) (by decide +kernel)
    obtain ⟨renamed, renamedMade⟩ := Fragment.exists_relabel descent
      (.identity descent.inputs) aside rfl rfl (by decide) (by decide)
    have left : renamed.run machine ⟨0⟩ 3 ⟨2, #[]⟩ =
        ⟨.ok (.label ⟨1⟩), #[⟨1⟩, ⟨0⟩, ⟨0⟩], ⟨0, #["tick (2)", "tick (1)"]⟩⟩ := by
      rw [Fragment.run_relabel_exits renamedMade]
      exact congrArg (Run.mk _ · _) (Array.map_id' _)
    have spent : renamed.run machine ⟨0⟩ 2 ⟨2, #[]⟩ =
        ⟨.error (.outOfFuel 2), #[⟨1⟩, ⟨0⟩], ⟨1, #["tick (2)"]⟩⟩ := by
      rw [Fragment.run_relabel_exits renamedMade]
      exact congrArg (Run.mk _ · _) (Array.map_id' _)
    obtain ⟨-, behind, -⟩ := Fragment.run_relabel_agree descent stages machine ⟨0⟩ 3 ⟨2, #[]⟩
    obtain ⟨-, stayed, -⟩ := Fragment.run_relabel_agree descent stages machine ⟨0⟩ 2 ⟨2, #[]⟩
    obtain ⟨source, sourceInside, -, agree⟩ :=
      (behind aside adapted renamed adaptedMade renamedMade).1 ⟨1⟩ (by rw [left])
    -- A descent has one exit.
    obtain rfl : source = ⟨0⟩ := Label.ext (Nat.lt_one_iff.mp sourceInside)
    refine ⟨adapted, adaptedMade, ?_, ?_⟩
    · rw [agree, left]
      exact congrArg (Run.mk _ · _) (by decide +kernel)
    · rw [(stayed aside adapted renamed adaptedMade renamedMade).2 (by rw [spent]; simp), spent]
      exact congrArg (Run.mk _ · _) (by decide +kernel)
  · obtain ⟨widened, widenedMade⟩ := Fragment.exists_relabel descent (.identity descent.inputs)
      aside rfl rfl (by decide) (by decide)
    obtain ⟨narrowed, narrowedMade⟩ := Fragment.exists_relabel stages aside
      (.identity stages.outputs) rfl (Renaming.domain_identity _) (by decide) (by decide)
    have widenedInternal := Fragment.internal_relabel widenedMade
    have widenedInputs := Fragment.inputs_relabel widenedMade
    have widenedOutputs := Fragment.outputs_relabel widenedMade
    have narrowedInternal := Fragment.internal_relabel narrowedMade
    have narrowedInputs := Fragment.inputs_relabel narrowedMade
    have narrowedOutputs := Fragment.outputs_relabel narrowedMade
    obtain ⟨left, leftMade⟩ := Fragment.exists_seq widened stages widenedOutputs
      (by rw [widenedInternal, widenedInputs]; decide)
      (by rw [widenedInternal, widenedOutputs]; decide)
    obtain ⟨right, rightMade⟩ := Fragment.exists_seq descent narrowed narrowedInputs.symm
      (by rw [narrowedInternal, narrowedInputs]; decide)
      (by rw [narrowedInternal, narrowedOutputs]; decide)
    obtain ⟨-, -, between⟩ := Fragment.run_relabel_agree descent stages machine ⟨0⟩ 9 ⟨2, #[]⟩
    have fromLeft : (do (← descent.relabel (.identity descent.inputs) aside).seq stages) =
        .ok left := bind_eq_ok_iff.mpr ⟨widened, widenedMade, leftMade⟩
    have fromRight : (do descent.seq (← stages.relabel aside (.identity stages.outputs))) =
        .ok right := bind_eq_ok_iff.mpr ⟨narrowed, narrowedMade, rightMade⟩
    exact ⟨left, right, fromLeft, fromRight, between aside left right fromLeft fromRight⟩

end Countdown

end Flowgraph
