import Flowgraph.Proofs.Run.Relabel

/-!
# Rows of renamings

A renaming that is taken as a fragment never looks at the machine, and so nothing that is put together
from such fragments does. Their runs are known beforehand: there is a way that each entry takes through
the hidden labels and an exit at its end, and the fuel decides only how much of it is gone. `Conducts` says
this of a fragment, and two fragments in sequence have it from their parts.

A row of renamings hides one interface after the other, and each of them lies behind those that were
hidden before. `interfaces` counts them off from the border on, and gives the way through the row in the
labels of the whole row.
-/

namespace Flowgraph

variable {Inst Cond State Fault : Type}

/-- The run that goes along a way to the exit at its end, as far as the fuel allows, and does not touch the
machine. -/
def Run.along (way : List Label) (exit : Label) (fuel : Nat) (state : State) : Run State Fault :=
  if way.length ≤ fuel then ⟨.ok (.label exit), way.toArray, state⟩
  else ⟨.error (.outOfFuel fuel), (way.take fuel).toArray, state⟩

section Along

variable {way : List Label} {exit : Label} {fuel : Nat} {state : State}

theorem Run.along_of_le (enough : way.length ≤ fuel) :
    (along way exit fuel state : Run State Fault) = ⟨.ok (.label exit), way.toArray, state⟩ := by
  rw [along, if_pos enough]

theorem Run.along_of_lt (short : fuel < way.length) :
    (along way exit fuel state : Run State Fault) =
      ⟨.error (.outOfFuel fuel), (way.take fuel).toArray, state⟩ := by
  rw [along, if_neg (Nat.not_le.mpr short)]

/-- A run that goes along a way, and on from there along another, goes along both. -/
theorem Run.resume_along {next : List Label} {last : Label} {place nextPlace : Label → Label}
    {resumed : Nat → Label → State → Run State Fault}
    (goesOn : ∀ left, resumed left exit state = (along next last left state).relocate nextPlace id) :
    (along way exit fuel state).resume place fuel resumed =
      along (way.map place ++ next.map nextPlace) last fuel state := by
  have length : (way.map place ++ next.map nextPlace).length = way.length + next.length := by simp
  by_cases enough : way.length ≤ fuel
  · rw [along_of_le enough, resume_label, goesOn, relocate_id, List.size_toArray]
    by_cases nextEnough : next.length ≤ fuel - way.length
    · rw [along_of_le nextEnough, along_of_le (by omega)]
      simp
    · have spent : way.length + (fuel - way.length) = fuel := Nat.add_sub_cancel' enough
      rw [along_of_lt (Nat.not_le.mp nextEnough), along_of_lt (by omega)]
      simp [List.take_append, List.take_of_length_le, enough, List.map_take, RunError.after, spent]
  · have nothingLeft : fuel - way.length = 0 := by omega
    rw [along_of_lt (Nat.not_le.mp enough), along_of_lt (by omega), resume_error]
    simp [List.take_append, List.map_take, nothingLeft]

end Along

namespace Fragment

/-- From each entry, a fragment goes through hidden labels to an exit, whatever the machine is. `hidden` are
the labels on the way, and `image` is the exit. -/
structure Conducts (fragment : Fragment Inst Cond) (hidden : Label → List Label)
    (image : Label → Label) : Prop where
  image_within : ∀ entry : Label, entry.Within fragment.inputs →
    (image entry).Within fragment.outputs
  hidden_within : ∀ entry : Label, entry.Within fragment.inputs →
    ∀ label ∈ hidden entry, label.Within fragment.internal
  run_eq : ∀ {State Fault : Type} (machine : Machine Inst Cond State Fault) (entry : Label),
    entry.Within fragment.inputs → ∀ (fuel : Nat) (state : State),
      fragment.run machine entry fuel state =
        .along (entry.shift fragment.internal.count :: hidden entry) (image entry) fuel state

/-- A renaming goes from each entry straight to the image. -/
theorem conducts_ofRenaming (table : Renaming) :
    (ofRenaming table : Fragment Inst Cond).Conducts (fun _ => []) table.image where
  image_within entry inside := table.image_within (by rwa [inputs_ofRenaming] at inside)
  hidden_within entry _ label member := by cases member
  run_eq machine entry inside fuel state := by
    cases fuel with
    | zero =>
      rw [run_of_within _ machine inside]
      rfl
    | succ fuel =>
      rw [inputs_ofRenaming] at inside
      rw [run_ofRenaming machine inside, Run.along_of_le (by simp)]
      simp

section Sequence

variable {fragment next both : Fragment Inst Cond} {hidden nextHidden : Label → List Label}
  {image nextImage : Label → Label}

/-- Two fragments in sequence lead through the hidden labels of the first, through the interface between
the two, and through the hidden labels of the second. -/
theorem Conducts.seq (conducts : fragment.Conducts hidden image)
    (nextConducts : next.Conducts nextHidden nextImage) (made : fragment.seq next = .ok both) :
    both.Conducts
      (fun entry => hidden entry ++
        ((image entry).shift next.internal.count :: nextHidden (image entry)).map
          (·.shift fragment.internal.count))
      (fun entry => nextImage (image entry)) := by
  have internal := count_internal_seq made
  have firstInside {entry : Label} (inside : entry.Within both.inputs) :
      entry.Within fragment.inputs := inputs_seq made ▸ inside
  have meets {entry : Label} (inside : entry.Within both.inputs) :
      (image entry).Within next.inputs :=
    (seq_steps made).1 ▸ conducts.image_within entry (firstInside inside)
  constructor
  · intro entry inside
    rw [outputs_seq made]
    exact nextConducts.image_within _ (meets inside)
  · intro entry inside label member
    have exitInside : (image entry).index < next.inputs.count := meets inside
    rcases List.mem_append.mp member with before | behind
    · have within := conducts.hidden_within entry (firstInside inside) label before
      rw [Label.Within] at within ⊢
      omega
    · obtain ⟨inner, innerMember, rfl⟩ := List.mem_map.mp behind
      rw [Label.Within, Label.index_shift]
      rcases List.mem_cons.mp innerMember with rfl | nextMember
      · rw [Label.index_shift]
        omega
      · have within := nextConducts.hidden_within _ (meets inside) inner nextMember
        rw [Label.Within] at within
        omega
  · intro State Fault machine entry inside fuel state
    -- The hidden labels of the first part keep their places, and its entries go behind all others.
    have stays : (hidden entry).map
        (·.makeRoom fragment.internal.count (next.internal.count + next.inputs.count)) =
          hidden entry := by
      have fixed : ∀ label ∈ hidden entry, label.makeRoom fragment.internal.count
          (next.internal.count + next.inputs.count) = label := fun label member =>
        Label.makeRoom_of_lt (conducts.hidden_within entry (firstInside inside) label member)
      rw [List.map_congr_left fixed, List.map_id']
    rw [run_seq_eq_resume made, conducts.run_eq machine entry (firstInside inside),
      Run.resume_along fun left => congrArg (Run.relocate · _ _)
        (nextConducts.run_eq machine (image entry) (meets inside) left state),
      List.map_cons, Label.makeRoom_shift, stays, internal, Nat.add_assoc, List.cons_append]

end Sequence

/-- A fragment with more stages behind it: renamings that are taken as fragments and put in sequence, one
after the other. -/
def continueWith (fragment : Fragment Inst Cond) (stages : List Renaming) :
    Except FragmentError (Fragment Inst Cond) :=
  stages.foldlM (fun row stage => row.seq (ofRenaming stage)) fragment

/-- A row of renamings as a fragment. -/
def ofRow (first : Renaming) (rest : List Renaming) : Except FragmentError (Fragment Inst Cond) :=
  (ofRenaming first).continueWith rest

/-- Where stages take a label, one after the other. -/
def imageThrough (stages : List Renaming) (label : Label) : Label :=
  stages.foldl (fun label stage => stage.image label) label

/-- How many labels stages have on one side, all together. -/
def sideCount (side : Renaming → Size) : List Renaming → Nat
  | [] => 0
  | stage :: rest => (side stage).count + sideCount side rest

/-- How many labels the interfaces before the stages have, all together. -/
def interfaceCount (stages : List Renaming) : Nat := sideCount (·.domain) stages

/-- The labels by which control passes the interfaces before the stages, when these are hidden one behind
the other from a border on. -/
def interfaces (border : Nat) : List Renaming → Label → List Label
  | [], _ => []
  | stage :: rest, label =>
    label.shift border :: interfaces (border + stage.domain.count) rest (stage.image label)

/-- There is one for each stage. -/
@[simp] theorem length_interfaces (border : Nat) (stages : List Renaming) (label : Label) :
    (interfaces border stages label).length = stages.length := by
  induction stages generalizing border label with
  | nil => rfl
  | cons stage rest inductionHypothesis => simp [interfaces, inductionHypothesis]

/-- The first of them begins in a space, and each of the others where the one before it ends. -/
def Meet : Size → List Renaming → Prop
  | _, [] => True
  | size, stage :: rest => size = stage.domain ∧ Meet stage.codomain rest

section Stage

variable {fragment longer : Fragment Inst Cond} {stage : Renaming}
  (made : fragment.seq (ofRenaming stage) = .ok longer)

include made

/-- One stage more hides the interface before it. -/
theorem count_internal_seq_stage :
    longer.internal.count = fragment.internal.count + stage.domain.count := by
  rw [count_internal_seq made, internal_ofRenaming, Size.count_zero, Nat.add_zero, inputs_ofRenaming]

/-- Control passes this interface, and goes on to where the stage takes it. -/
theorem Conducts.seq_stage {hidden : Label → List Label} {image : Label → Label}
    (conducts : fragment.Conducts hidden image) :
    longer.Conducts (fun entry => hidden entry ++ [(image entry).shift fragment.internal.count])
      (fun entry => stage.image (image entry)) := by
  simpa using conducts.seq (conducts_ofRenaming stage) made

end Stage

section Stages

variable {fragment row : Fragment Inst Cond} {stage : Renaming} {stages rest : List Renaming}

/-- Without stages, there is nothing to do. -/
theorem continueWith_nil_eq_ok_iff : fragment.continueWith [] = .ok row ↔ fragment = row := by
  simp [continueWith, pure, Except.pure]

/-- Stages are put behind a fragment from the first one on. -/
theorem continueWith_cons_eq_ok_iff :
    fragment.continueWith (stage :: rest) = .ok row ↔
      ∃ longer, fragment.seq (ofRenaming stage) = .ok longer ∧ longer.continueWith rest = .ok row := by
  simp only [continueWith, List.foldlM_cons, bind_eq_ok_iff]

/-- Stages can be put behind a fragment exactly when they meet it and each other, and there are sizes for
all hidden labels together with the entries or with the exits. -/
theorem exists_continueWith_iff :
    (∃ row, fragment.continueWith stages = .ok row) ↔
      Meet fragment.outputs stages ∧
        fragment.internal.count + fragment.inputs.count + interfaceCount stages < Size.limit ∧
          fragment.internal.count + fragment.outputs.count +
            sideCount (·.codomain) stages < Size.limit := by
  induction stages generalizing fragment with
  | nil => simp [continueWith_nil_eq_ok_iff, Meet, interfaceCount, sideCount, fragment.counts_fit]
  | cons stage rest inductionHypothesis =>
    have next (longer : Fragment Inst Cond) (made : fragment.seq (ofRenaming stage) = .ok longer) :
        (∃ row, longer.continueWith rest = .ok row) ↔ Meet stage.codomain rest ∧
          fragment.internal.count + fragment.inputs.count + interfaceCount (stage :: rest) <
              Size.limit ∧
            fragment.internal.count + fragment.outputs.count +
              sideCount (·.codomain) (stage :: rest) < Size.limit := by
      have agree := (seq_steps made).1
      rw [inputs_ofRenaming] at agree
      rw [inductionHypothesis, count_internal_seq_stage made, inputs_seq made, outputs_seq made,
        outputs_ofRenaming, agree]
      simp only [interfaceCount, sideCount]
      refine and_congr_right fun _ => ?_
      omega
    have first : (∃ longer, fragment.seq (ofRenaming stage) = .ok longer) ↔ _ := exists_seq_iff
    rw [inputs_ofRenaming, outputs_ofRenaming, internal_ofRenaming, Size.count_zero] at first
    constructor
    · rintro ⟨row, made⟩
      obtain ⟨longer, longerMade, made⟩ := continueWith_cons_eq_ok_iff.mp made
      obtain ⟨meets, fits⟩ := (next longer longerMade).mp ⟨row, made⟩
      exact ⟨⟨(first.mp ⟨longer, longerMade⟩).1, meets⟩, fits⟩
    · rintro ⟨⟨agree, meets⟩, fits⟩
      obtain ⟨longer, longerMade⟩ := first.mpr (by
        simp only [interfaceCount, sideCount] at fits
        refine ⟨agree, ?_, ?_⟩ <;> omega)
      obtain ⟨row, made⟩ := (next longer longerMade).mpr ⟨meets, fits⟩
      exact ⟨row, continueWith_cons_eq_ok_iff.mpr ⟨longer, longerMade, made⟩⟩

/-- The entries stay in front of the stages, behind all interfaces that they hide. -/
theorem interface_continueWith (made : fragment.continueWith stages = .ok row) :
    row.inputs = fragment.inputs ∧
      row.internal.count = fragment.internal.count + interfaceCount stages := by
  induction stages generalizing fragment with
  | nil =>
    obtain rfl := continueWith_nil_eq_ok_iff.mp made
    exact ⟨rfl, rfl⟩
  | cons stage rest inductionHypothesis =>
    obtain ⟨longer, longerMade, made⟩ := continueWith_cons_eq_ok_iff.mp made
    obtain ⟨inputs, internal⟩ := inductionHypothesis made
    refine ⟨inputs.trans (inputs_seq longerMade), ?_⟩
    rw [internal, count_internal_seq_stage longerMade, interfaceCount, interfaceCount, sideCount,
      Nat.add_assoc]

/-- Control passes the interfaces before the stages one after the other, and comes to where the stages take
it. -/
theorem Conducts.continueWith {hidden : Label → List Label} {image : Label → Label}
    (conducts : fragment.Conducts hidden image) (made : fragment.continueWith stages = .ok row) :
    row.Conducts
      (fun entry => hidden entry ++ interfaces fragment.internal.count stages (image entry))
      (fun entry => imageThrough stages (image entry)) := by
  induction stages generalizing fragment hidden image with
  | nil =>
    obtain rfl := continueWith_nil_eq_ok_iff.mp made
    simpa [interfaces, imageThrough] using conducts
  | cons stage rest inductionHypothesis =>
    obtain ⟨longer, longerMade, made⟩ := continueWith_cons_eq_ok_iff.mp made
    have conductsRow := inductionHypothesis (conducts.seq_stage longerMade) made
    simp only [count_internal_seq_stage longerMade, List.append_assoc,
      List.singleton_append] at conductsRow
    exact conductsRow

end Stages

/-- A row of renamings computes their composite. From an entry of the first one it comes to the exit where
they take the entry one after the other, by way of one label for each of them: the entry, and from then on
the label by which control passes the interface before the next one. It needs fuel for as many blocks, and
is out of fuel with less. The machine is not touched. -/
theorem run_row {first : Renaming} {rest : List Renaming} {row : Fragment Inst Cond}
    (made : ofRow first rest = .ok row) (machine : Machine Inst Cond State Fault) {entry : Label}
    (inside : entry.Within first.domain) (fuel : Nat) (state : State) :
    let way := entry.shift (interfaceCount rest) :: interfaces 0 rest (first.image entry)
    way.length = rest.length + 1 ∧
      (rest.length + 1 ≤ fuel → row.run machine entry fuel state =
        ⟨.ok (.label (imageThrough (first :: rest) entry)), way.toArray, state⟩) ∧
      (fuel < rest.length + 1 → row.run machine entry fuel state =
        ⟨.error (.outOfFuel fuel), (way.take fuel).toArray, state⟩) := by
  intro way
  have length : way.length = rest.length + 1 := by simp [way]
  obtain ⟨inputs, internal⟩ := interface_continueWith made
  have entryInside : entry.Within row.inputs := by rwa [inputs, inputs_ofRenaming]
  have ran := ((conducts_ofRenaming first).continueWith made).run_eq machine entry entryInside fuel state
  rw [internal, internal_ofRenaming, Size.count_zero, Nat.zero_add, List.nil_append] at ran
  rw [ran]
  exact ⟨length, fun enough => Run.along_of_le (length ▸ enough),
    fun short => Run.along_of_lt (length ▸ short)⟩

end Fragment

namespace Countdown

/-- Two exits, led apart. -/
def parted : Renaming := ⟨3, #[⟨2⟩, ⟨0⟩], by decide, by decide⟩

/-- Two entries come together in one, which is the second of two that are led apart. That takes three
blocks, and with two of them control is still on its way. -/
theorem run_merged_aside_parted :
    ∃ row, Fragment.ofRow merged [aside, parted] = .ok row ∧
      row.run machine ⟨1⟩ 3 ⟨2, #[]⟩ = ⟨.ok (.label ⟨0⟩), #[⟨4⟩, ⟨0⟩, ⟨2⟩], ⟨2, #[]⟩⟩ ∧
        row.run machine ⟨1⟩ 2 ⟨2, #[]⟩ = ⟨.error (.outOfFuel 2), #[⟨4⟩, ⟨0⟩], ⟨2, #[]⟩⟩ := by
  obtain ⟨row, made⟩ : ∃ row : Fragment Inst Cond, Fragment.ofRow merged [aside, parted] = .ok row :=
    Fragment.exists_continueWith_iff.mpr
      ⟨⟨rfl, rfl, trivial⟩, by decide +kernel, by decide +kernel⟩
  have inside : Label.Within ⟨1⟩ merged.domain := by decide
  obtain ⟨-, leaves, -⟩ := Fragment.run_row made machine inside 3 ⟨2, #[]⟩
  obtain ⟨-, -, spent⟩ := Fragment.run_row made machine inside 2 ⟨2, #[]⟩
  exact ⟨row, made, leaves (by decide), spent (by decide)⟩

end Countdown

end Flowgraph
