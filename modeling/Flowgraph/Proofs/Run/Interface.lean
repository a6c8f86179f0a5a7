import Flowgraph.Proofs.Run.Relabel

/-!
# Runs under another interface

Renaming the interface of a fragment gives every new entry a copy of the block behind the old one, and
leaves the hidden labels where they are. The copies lie at other labels than their originals, and
several of them may have the same one, so there is no single place for the old entry in the renamed
fragment. But control passes an entry only once: whatever the entry is called, it is the first label
of the run, and `Embeds.runFrom_eq_entered` compares all that comes after it by the hidden labels alone.
-/

namespace Flowgraph

variable {Inst Cond State Fault : Type}

namespace Run

/-- A run as it would have been from `first`, if that had the block which was entered first. -/
def entered (run : Run State Fault) (first : Label) : Run State Fault where
  verdict := run.verdict
  visited := run.visited.setIfInBounds 0 first
  state := run.state

/-- Another first label takes the place of the one that a run began with. -/
theorem entered_after (run : Run State Fault) (earlier first : Label) :
    (run.after #[earlier]).entered first = run.after #[first] := by
  have replaced : (#[earlier] ++ run.visited).setIfInBounds 0 first = #[first] ++ run.visited := by
    rw [← Array.toList_inj]
    simp
  exact congrArg (Run.mk _ · _) replaced

/-- Blocks that have run before a run are under other labels as well. -/
theorem relocate_after (run : Run State Fault) (earlier : Array Label)
    (place leave : Label → Label) :
    (run.after earlier).relocate place leave =
      (run.relocate place leave).after (earlier.map place) := by
  obtain ⟨verdict, visited, state⟩ := run
  cases verdict <;> simp [relocate, Except.map, Array.map_append]

end Run

namespace Embeds

variable {inner outer : Fragment Inst Cond} {place target leave : Label → Label}
  (embeds : Embeds inner outer place target) (machine : Machine Inst Cond State Fault)
  (leaves : ∀ exit : Label, target (exit.shift inner.internal.count) =
    (leave exit).shift outer.internal.count)

include embeds leaves

/-- Where the inner fragment goes on, the outer one does so at the place of the label, and where it
leaves, the outer one leaves through what has become of the exit. -/
theorem proceed_eq_relocate (label : Label) (fuel : Nat) (state : State) :
    outer.proceed machine (target label) fuel state =
      (inner.proceed machine label fuel state).relocate place leave := by
  by_cases hidden : label.Within inner.internal
  · have follows := embeds.target_eq_place label hidden
    have outerHidden := embeds.place_hidden label hidden
    have block := embeds.block_hidden label hidden
    rw [← follows] at outerHidden block
    rw [Fragment.proceed_of_hidden inner machine hidden,
      Fragment.proceed_of_hidden outer machine outerHidden]
    exact embeds.runFrom_eq_relocate machine leaves fuel _ _ follows block state
  · obtain ⟨exit, rfl⟩ := Label.exists_eq_shift_of_le (Nat.not_lt.mp hidden)
    rw [leaves, Fragment.proceed_shift, Fragment.proceed_shift]
    simp [Run.relocate, Except.map]

/-- From any label that has the block of an inner one, the outer fragment runs as the inner one does,
under its own first label. -/
theorem runFrom_eq_entered (fuel : Nat) (label : inner.CodeLabel) (copy : outer.CodeLabel)
    (block : outer.code.get? copy.val = (inner.code.get? label.val).map (·.mapLabels target))
    (state : State) :
    outer.runFrom machine fuel copy #[] state =
      ((inner.runFrom machine fuel label #[] state).relocate place leave).entered copy.val := by
  cases fuel with
  | zero => simp [Fragment.runFrom, Run.relocate, Run.entered, Except.map]
  | succ fuel =>
    rw [Fragment.runFrom_succ, Fragment.runFrom_succ, Fragment.blockAt_of_get?_map block,
      Block.run_exec_mapLabels]
    cases ((inner.blockAt label).exec machine).run state with
    | error fault after => simp [Run.relocate, Run.entered, Except.map]
    | ok answer after =>
      cases answer with
      | none => simp [Run.relocate, Run.entered, Except.map]
      | some answer =>
        simp only [Option.map_some]
        rw [embeds.proceed_eq_relocate machine leaves, Run.relocate_after, List.map_toArray,
          List.map_singleton, Run.entered_after]

end Embeds

namespace Fragment

/-- With fuel for a block, a run from an entry begins at its place behind the hidden labels. -/
theorem getElem?_visited_zero (fragment : Fragment Inst Cond)
    (machine : Machine Inst Cond State Fault) {entry : Label} {fuel : Nat} (state : State)
    (inside : entry.Within fragment.inputs) (fueled : 0 < fuel) :
    (fragment.run machine entry fuel state).visited[0]? =
      some (entry.shift fragment.internal.count) := by
  obtain ⟨fuel, rfl⟩ := Nat.exists_eq_succ_of_ne_zero (Nat.ne_of_gt fueled)
  rw [run_of_within fragment machine inside, runFrom_succ]
  split
  · rfl
  · rfl
  · exact Array.getElem?_append_left Nat.one_pos

section Relabel

variable {fragment renamed : Fragment Inst Cond} {f g : Renaming}
  (made : fragment.relabel f g = .ok renamed)

include made

/-- The blocks of hidden labels stay, and only their branches out of the fragment are renamed. -/
theorem get?_relabel_hidden {label : Label} (hidden : label.Within fragment.internal) :
    renamed.code.get? label =
      (fragment.code.get? label).map
        (·.mapLabels (·.mapVisible fragment.internal.count g.image)) := by
  have renamedHidden : label.Within renamed.internal := internal_relabel made ▸ hidden
  rw [get?_relabel made (renamed.within_entries_of_hidden renamedHidden),
    Label.mapVisible_of_lt hidden]

/-- So the hidden part of a fragment lies in the renamed one just where it was. -/
theorem embeds_relabel :
    Embeds fragment renamed (fun label => label)
      (·.mapVisible fragment.internal.count g.image) where
  target_eq_place _ hidden := Label.mapVisible_of_lt hidden
  place_hidden _ hidden := internal_relabel made ▸ hidden
  block_hidden _ hidden := get?_relabel_hidden made hidden

/-- Renaming the interface does nothing else. All hidden labels stay, with their blocks, in which only
the branches to exits are renamed. From each new entry, the fragment runs as it did from the image of
that entry: it comes to the same verdict, but for the name of the exit, and leaves the machine in the
same state; and of the labels that it visits, only the first is another. -/
theorem run_relabel :
    renamed.internal = fragment.internal ∧
    (∀ label : Label, label.Within fragment.internal →
      renamed.code.get? label =
        (fragment.code.get? label).map
          (·.mapLabels (·.mapVisible fragment.internal.count g.image))) ∧
    ∀ {State Fault : Type} (machine : Machine Inst Cond State Fault) (entry : Label),
      entry.Within f.domain → ∀ (fuel : Nat) (state : State),
        (0 < fuel → (fragment.run machine (f.image entry) fuel state).visited[0]? =
          some ((f.image entry).shift fragment.internal.count)) ∧
        renamed.run machine entry fuel state =
          ((fragment.run machine (f.image entry) fuel state).relocate
            (fun label => label) g.image).entered (entry.shift fragment.internal.count) := by
  have internal := internal_relabel made
  refine ⟨internal, fun _ hidden => get?_relabel_hidden made hidden, ?_⟩
  intro State Fault machine entry inside fuel state
  have entryInside : entry.Within renamed.inputs := inputs_relabel made ▸ inside
  have imageInside : (f.image entry).Within fragment.inputs :=
    (relabel_steps made).1 ▸ f.image_within inside
  refine ⟨getElem?_visited_zero fragment machine state imageInside, ?_⟩
  have leaves (exit : Label) :
      (exit.shift fragment.internal.count).mapVisible fragment.internal.count g.image =
        (g.image exit).shift renamed.internal.count := by
    rw [internal, Label.mapVisible_shift]
  have block := get?_relabel made (renamed.shift_within_entries entryInside)
  simp only [internal, Label.mapVisible_shift] at block
  rw [run_of_within renamed machine entryInside, run_of_within fragment machine imageInside]
  simp only [internal]
  apply (embeds_relabel made).runFrom_eq_entered machine leaves fuel
  exact block

end Relabel

end Fragment

namespace Countdown

/-- A descent that is entered by the second of two names and left by another. It goes around as before,
and its hidden label has the name that it had. -/
theorem run_descent_renamed :
    ∃ renamed, descent.relabel merged aside = .ok renamed ∧
      renamed.run machine ⟨1⟩ 3 ⟨2, #[]⟩ =
        ⟨.ok (.label ⟨1⟩), #[⟨2⟩, ⟨0⟩, ⟨0⟩], ⟨0, #["tick (2)", "tick (1)"]⟩⟩ := by
  obtain ⟨renamed, made⟩ := Fragment.exists_relabel descent merged aside rfl rfl
    (by decide) (by decide)
  have before : descent.run machine ⟨0⟩ 3 ⟨2, #[]⟩ =
      ⟨.ok (.label ⟨0⟩), #[⟨1⟩, ⟨0⟩, ⟨0⟩], ⟨0, #["tick (2)", "tick (1)"]⟩⟩ := rfl
  obtain ⟨-, -, runs⟩ := Fragment.run_relabel made
  obtain ⟨-, agree⟩ := runs machine ⟨1⟩ (by decide) 3 ⟨2, #[]⟩
  have entry : merged.image ⟨1⟩ = ⟨0⟩ := rfl
  refine ⟨renamed, made, ?_⟩
  rw [agree, entry, before]
  exact congrArg (Run.mk _ · _) (by decide +kernel)

end Countdown

end Flowgraph
