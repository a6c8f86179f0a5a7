import Flowgraph.Proofs.Fragment.Lifting
import Flowgraph.Proofs.Fragment.Reachable
import Flowgraph.Proofs.Run.Chain
import Flowgraph.Proofs.Run.Hidden
import Mathlib.Data.List.Iterate

/-!
# Renamings that are linked to themselves

A renaming that is taken as a fragment and linked jumps from label to label, and its blocks do nothing
else. So a run is told by the images of the entry under the renaming and under its iterates: it goes on for
as long as they stay among the linked labels, and leaves with the first one that does not.

What it comes to then is an exit, and the labels before it are all different, since from a label that came
twice the run would have come there again and again. There are only so many linked labels, and so a run
that leaves at all does so soon.
-/

namespace Flowgraph

namespace Renaming

/-- From a label on, the images under the iterates of a renaming are `steps` labels in front, before the
border, and then an exit behind it. -/
structure Emerges (table : Renaming) (width : Size) (start : Label) (steps : Nat) (exit : Label) :
    Prop where
  stays : ∀ step < steps, (table.image^[step + 1] start).Within width
  leaves : table.image^[steps + 1] start = exit.shift width.count

variable {table : Renaming} {width : Size} {start exit : Label} {steps : Nat}

/-- For any number of steps, the images stay in front, or one of them is the first that does not. -/
theorem stays_or_emerges (table : Renaming) (width : Size) (start : Label) (fuel : Nat) :
    (∀ step < fuel, (table.image^[step + 1] start).Within width) ∨
      ∃ steps < fuel, ∃ exit, table.Emerges width start steps exit := by
  induction fuel with
  | zero => exact .inl fun step below => absurd below (Nat.not_lt_zero step)
  | succ fuel inductionHypothesis =>
    rcases inductionHypothesis with stays | ⟨steps, below, exit, emerges⟩
    · by_cases next : (table.image^[fuel + 1] start).Within width
      · refine .inl fun step below => ?_
        rcases Nat.lt_succ_iff_lt_or_eq.mp below with earlier | rfl
        · exact stays step earlier
        · exact next
      · obtain ⟨exit, leaves⟩ := Label.exists_eq_shift_of_le (Nat.not_lt.mp next)
        exact .inr ⟨fuel, Nat.lt_succ_self fuel, exit, stays, leaves⟩
    · exact .inr ⟨steps, Nat.lt_succ_of_lt below, exit, emerges⟩

/-- What emerges is not among the labels in front. -/
theorem Emerges.not_within (emerges : table.Emerges width start steps exit) :
    ¬ (table.image^[steps + 1] start).Within width := by
  rw [emerges.leaves, Label.Within, Label.index_shift]
  omega

/-- No label comes twice before that: after as many more steps, the first of the two would be where the
second one emerges. -/
theorem Emerges.nodup (emerges : table.Emerges width start steps exit) :
    (List.iterate table.image start (steps + 1)).Nodup := by
  refine List.pairwise_iff_getElem.mpr fun first second _ inside earlier same => ?_
  rw [List.length_iterate] at inside
  rw [List.getElem_iterate, List.getElem_iterate] at same
  obtain ⟨left, rfl⟩ : ∃ left, steps = second + left := ⟨steps - second, by omega⟩
  refine emerges.not_within ?_
  have back : table.image^[second + left + 1] start = table.image^[first + left + 1] start := by
    rw [Nat.add_assoc, Nat.add_comm, Function.iterate_add_apply, ← same,
      ← Function.iterate_add_apply, Nat.add_comm, ← Nat.add_assoc]
  rw [back]
  exact emerges.stays _ (by omega)

/-- So it does not take more steps than there are labels in front. -/
theorem Emerges.steps_le (emerges : table.Emerges width start steps exit) : steps ≤ width.count := by
  have distinct : (List.iterate table.image (table.image start) steps).Nodup := emerges.nodup.of_cons
  have front : ∀ label ∈ List.iterate table.image (table.image start) steps,
      label.index < width.count := by
    intro label member
    obtain ⟨step, below, rfl⟩ := List.mem_iterate.mp member
    exact emerges.stays step below
  simpa using Label.length_le_of_nodup distinct front

end Renaming

namespace Fragment

variable {Inst Cond State Fault : Type} {table : Renaming} {width : Size}
  {looped : Fragment Inst Cond} {machine : Machine Inst Cond State Fault} {start : Label} {steps : Nat}
  {state : State}

section Orbit

variable (made : (ofRenaming table).link width = .ok looped)

include made

/-- The linked labels are all that is hidden. -/
theorem internal_loop : looped.internal = width := by
  refine Size.ext ?_
  rw [count_internal_link made, internal_ofRenaming, Size.count_zero, Nat.zero_add]

/-- At each label of its domain, a renaming that is linked goes on to the image, and does nothing else. -/
theorem executes_loop (inside : start.Within table.domain) :
    looped.Executes machine start state (.ok (some (table.image start)) state) := by
  refine ⟨.jump (table.image start), ?_, rfl⟩
  rw [code_link made, get?_ofRenaming inside]

/-- Linked labels are labels of the domain. -/
theorem within_domain_of_linked {label : Label} (linked : label.Within width) :
    label.Within table.domain := by
  have wide := (link_eq_ok_iff.mp made).1
  rw [inputs_ofRenaming] at wide
  exact Nat.lt_of_lt_of_le linked wide

/-- For as long as the images stay among the linked labels, control goes from one to the next. -/
theorem chain_loop (inside : start.Within table.domain)
    (stays : ∀ step < steps, (table.image^[step + 1] start).Within width) :
    looped.Chain machine start state (List.iterate table.image start steps)
      (table.image^[steps] start) state := by
  -- A chain begins with its first block, as the list of iterates does, so the start moves along.
  induction steps generalizing start with
  | zero => exact .start
  | succ steps inductionHypothesis =>
    have linked : (table.image start).Within width := stays 0 (Nat.succ_pos steps)
    refine .next (executes_loop made inside) (internal_loop made ▸ linked) ?_
    exact inductionHypothesis (within_domain_of_linked made linked) fun step below =>
      stays (step + 1) (Nat.succ_lt_succ below)

section Entry

variable {entry : Label} (inside : entry.Within looped.inputs)

include inside

/-- An entry of the interface lies behind the linked labels, in the domain of the renaming. -/
theorem within_domain_of_entry : (entry.shift width.count).Within table.domain := by
  have placed := looped.shift_within_entries inside
  rwa [code_link made, entries_ofRenaming, internal_loop made] at placed

/-- A run with fuel enough leaves where the images emerge, and has visited the entry and the images before
that. -/
theorem run_loop_of_emerges {exit : Label} {fuel : Nat}
    (emerges : table.Emerges width (entry.shift width.count) steps exit) (enough : steps < fuel) :
    looped.run machine entry fuel state =
      ⟨.ok (.label exit),
        (List.iterate table.image (entry.shift width.count) (steps + 1)).toArray, state⟩ := by
  have chain : looped.Chain machine (entry.shift width.count) state _ _ state :=
    chain_loop made (within_domain_of_entry made inside) emerges.stays
  have last : (table.image^[steps] (entry.shift width.count)).Within table.domain := by
    have placed := chain.within (internal_loop made ▸ looped.shift_within_entries inside)
    rwa [code_link made, entries_ofRenaming] at placed
  have arrives : table.image (table.image^[steps] (entry.shift width.count)) =
      exit.shift looped.internal.count := by
    rw [← Function.iterate_succ_apply' table.image, emerges.leaves, internal_loop made]
  have executes : looped.Executes machine (table.image^[steps] (entry.shift width.count)) state
      (.ok (some (exit.shift looped.internal.count)) state) := arrives ▸ executes_loop made last
  rw [run_eq_iff_outcome inside, internal_loop made]
  refine .left (by simpa using Nat.succ_le_of_lt enough) ⟨_, _, _, chain, executes, ?_⟩
  exact List.iterate_add _ _ steps 1

/-- A run whose fuel is spent before has visited as many of them. -/
theorem run_loop_of_stays {fuel : Nat}
    (stays : ∀ step < fuel, (table.image^[step + 1] (entry.shift width.count)).Within width) :
    looped.run machine entry fuel state =
      ⟨.error (.outOfFuel fuel),
        (List.iterate table.image (entry.shift width.count) fuel).toArray, state⟩ := by
  rw [run_eq_iff_outcome inside, internal_loop made]
  exact .spent (by simp) (chain_loop made (within_domain_of_entry made inside) stays)

/-- There is nothing else that a run can come to. -/
theorem run_loop_cases (fuel : Nat) :
    (∃ steps < fuel, ∃ exit, table.Emerges width (entry.shift width.count) steps exit ∧
        looped.run machine entry fuel state =
          ⟨.ok (.label exit),
            (List.iterate table.image (entry.shift width.count) (steps + 1)).toArray, state⟩) ∨
      (∀ step < fuel, (table.image^[step + 1] (entry.shift width.count)).Within width) ∧
        looped.run machine entry fuel state =
          ⟨.error (.outOfFuel fuel),
            (List.iterate table.image (entry.shift width.count) fuel).toArray, state⟩ := by
  rcases table.stays_or_emerges width (entry.shift width.count) fuel with
    stays | ⟨steps, enough, exit, emerges⟩
  · exact .inr ⟨stays, run_loop_of_stays made inside stays⟩
  · exact .inl ⟨steps, enough, exit, emerges, run_loop_of_emerges made inside emerges enough⟩

/-- A run leaves through an exit exactly when the images emerge there within the fuel. -/
theorem verdict_loop_eq_ok_iff {fuel : Nat} {exit : Label} :
    (looped.run machine entry fuel state).verdict = .ok (.label exit) ↔
      ∃ steps < fuel, table.Emerges width (entry.shift width.count) steps exit := by
  constructor
  · intro left
    rcases run_loop_cases made inside fuel with ⟨steps, enough, there, emerges, ran⟩ | ⟨-, ran⟩
    · rw [ran] at left
      cases left
      exact ⟨steps, enough, emerges⟩
    · rw [ran] at left
      cases left
  · rintro ⟨steps, enough, emerges⟩
    rw [run_loop_of_emerges made inside emerges enough]

/-- A run that is out of fuel after one block more than there are linked labels would never have left: the
images would emerge sooner, if they did at all. -/
theorem verdict_loop_of_spent {blocks : Nat}
    (spent : (looped.run machine entry (width.count + 1) state).verdict = .error (.outOfFuel blocks))
    (fuel : Nat) :
    (looped.run machine entry fuel state).verdict = .error (.outOfFuel fuel) := by
  rcases run_loop_cases made inside fuel with ⟨steps, -, exit, emerges, -⟩ | ⟨-, ran⟩
  · have soon : steps < width.count + 1 := Nat.lt_succ_of_le emerges.steps_le
    rw [run_loop_of_emerges made inside emerges soon] at spent
    cases spent
  · rw [ran]

end Entry

end Orbit

/-- An exchange of a space with itself, with one of the two linked, leads every entry to its own exit. The
exchange takes it to the linked label in front, and from there back behind it. -/
theorem run_loop_swap {space : Size} {exchange : Renaming} {looped : Fragment Inst Cond}
    (exchanged : Renaming.swap space space = .ok exchange)
    (made : (ofRenaming exchange).link space = .ok looped) {entry : Label}
    (inside : entry.Within space) {fuel : Nat} (enough : 2 ≤ fuel) :
    looped.run machine entry fuel state =
      ⟨.ok (.label entry), #[entry.shift space.count, entry], state⟩ := by
  have toFront : exchange.image (entry.shift space.count) = entry :=
    Renaming.image_swap_right exchanged inside
  have toBack : exchange.image entry = entry.shift space.count :=
    Renaming.image_swap_left exchanged inside
  have emerges : exchange.Emerges space (entry.shift space.count) 1 entry := by
    refine ⟨fun step below => ?_, ?_⟩
    · obtain rfl : step = 0 := Nat.lt_one_iff.mp below
      rwa [Function.iterate_one, toFront]
    · exact (congrArg exchange.image toFront).trans toBack
  have entryInside : entry.Within looped.inputs := by
    rw [Label.Within, count_inputs_link made, inputs_ofRenaming, Renaming.count_domain_swap exchanged,
      Nat.add_sub_cancel]
    exact inside
  rw [run_loop_of_emerges made entryInside emerges enough]
  simp only [List.iterate, toFront]

/-- A renaming that is linked to itself leaves soon or never. From an entry it leaves through an exit
exactly when the images of the entry under the iterates of the renaming stay among the linked labels for
fewer steps than there is fuel, and the first one that does not is that exit. Then it has visited the entry
and these images, which are all different, and so no more than one label more than are linked. If it is out
of fuel after as many blocks, it is so with any fuel. It does nothing else, and does not touch the
machine. -/
theorem run_lifted_loop {table : Renaming} {width : Size} {inputs outputs : Nat}
    (domain : table.domain.count = width.count + inputs)
    (codomain : table.codomain.count = width.count + outputs) :
    ∃ looped : Fragment Inst Cond, (ofRenaming table).link width = .ok looped ∧
      looped.inputs.count = inputs ∧ looped.outputs.count = outputs ∧
      ∀ {State Fault : Type} (machine : Machine Inst Cond State Fault) (state : State) (entry : Label),
        entry.index < inputs →
          let start := entry.shift width.count
          (∀ fuel exit, (looped.run machine entry fuel state).verdict = .ok (.label exit) ↔
            ∃ steps < fuel, table.Emerges width start steps exit) ∧
          (∀ steps exit, table.Emerges width start steps exit →
            let visited := start :: List.iterate table.image (table.image start) steps
            visited.Nodup ∧ visited.length ≤ width.count + 1 ∧
              ∀ fuel, steps < fuel → looped.run machine entry fuel state =
                ⟨.ok (.label exit), visited.toArray, state⟩) ∧
          (∀ blocks, (looped.run machine entry (width.count + 1) state).verdict =
              .error (.outOfFuel blocks) →
            ∀ fuel, (looped.run machine entry fuel state).verdict = .error (.outOfFuel fuel)) ∧
          ∀ fuel, (looped.run machine entry fuel state).state = state ∧
            ((∃ exit, (looped.run machine entry fuel state).verdict = .ok (.label exit)) ∨
              (looped.run machine entry fuel state).verdict = .error (.outOfFuel fuel)) := by
  obtain ⟨looped, made⟩ := (ofRenaming table : Fragment Inst Cond).exists_link width
    (by rw [inputs_ofRenaming]; omega) (by rw [outputs_ofRenaming]; omega)
  have inputsLeft : looped.inputs.count = inputs := by
    rw [count_inputs_link made, inputs_ofRenaming, domain, Nat.add_sub_cancel_left]
  have outputsLeft : looped.outputs.count = outputs := by
    rw [count_outputs_link made, outputs_ofRenaming, codomain, Nat.add_sub_cancel_left]
  refine ⟨looped, made, inputsLeft, outputsLeft, ?_⟩
  intro State Fault machine state entry bound start
  have inside : entry.Within looped.inputs := by rwa [Label.Within, inputsLeft]
  refine ⟨fun fuel exit => verdict_loop_eq_ok_iff made inside, ?_, ?_, ?_⟩
  · intro steps exit emerges visited
    refine ⟨emerges.nodup, ?_, fun fuel enough => run_loop_of_emerges made inside emerges enough⟩
    simpa [visited] using emerges.steps_le
  · exact fun blocks spent => verdict_loop_of_spent made inside spent
  · intro fuel
    rcases run_loop_cases made inside fuel with ⟨_, _, exit, _, ran⟩ | ⟨_, ran⟩
    · rw [ran]
      exact ⟨rfl, .inl ⟨exit, rfl⟩⟩
    · rw [ran]
      exact ⟨rfl, .inr rfl⟩

end Fragment

namespace Countdown

/-- A label that goes to itself, another one that goes there, and a third that does not. -/
def whirl : Renaming := ⟨2, #[⟨0⟩, ⟨0⟩, ⟨1⟩], by decide, by decide⟩

/-- The rotation of four labels passes three of them before it leaves, and so it takes all the fuel that it
may take. What goes on to a label that goes to itself never leaves. -/
theorem run_looped_rotation :
    (∃ looped : Fragment Inst Cond, (Fragment.ofRenaming rotation).link 3 = .ok looped ∧
      rotation.Emerges 3 ⟨3⟩ 3 ⟨0⟩ ∧
      looped.run machine ⟨0⟩ 4 ⟨2, #[]⟩ = ⟨.ok (.label ⟨0⟩), #[⟨3⟩, ⟨0⟩, ⟨1⟩, ⟨2⟩], ⟨2, #[]⟩⟩) ∧
    ∃ looped : Fragment Inst Cond, (Fragment.ofRenaming whirl).link 1 = .ok looped ∧
      ∀ fuel, (looped.run machine ⟨0⟩ fuel ⟨2, #[]⟩).verdict = .error (.outOfFuel fuel) := by
  have emerges : rotation.Emerges 3 ⟨3⟩ 3 ⟨0⟩ := ⟨by decide, by decide⟩
  constructor
  · obtain ⟨looped, made, -, -, runs⟩ := @Fragment.run_lifted_loop Inst Cond rotation 3 1 1 rfl rfl
    obtain ⟨-, leaves, -⟩ := runs machine ⟨2, #[]⟩ ⟨0⟩ (by decide)
    obtain ⟨-, -, ran⟩ := leaves 3 ⟨0⟩ emerges
    exact ⟨looped, made, emerges, ran 4 (by decide)⟩
  · obtain ⟨looped, made, -, -, runs⟩ := @Fragment.run_lifted_loop Inst Cond whirl 1 2 1 rfl rfl
    obtain ⟨leaves, -, never, either⟩ := runs machine ⟨2, #[]⟩ ⟨0⟩ (by decide)
    have front : ∀ step < 2, (whirl.image^[step + 1] ⟨1⟩).Within 1 := by decide
    obtain ⟨-, ⟨exit, left⟩ | spent⟩ := either 2
    · obtain ⟨steps, below, there⟩ := (leaves 2 exit).mp left
      exact absurd (front steps below) there.not_within
    · exact ⟨looped, made, never 2 spent⟩

end Countdown

end Flowgraph
