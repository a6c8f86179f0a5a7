import Flowgraph.Label.Basic
import Flowgraph.Machine.Register
import Flowgraph.Proofs.Asking

/-!
# Label mapping is a lawful traversal

Branches and blocks are gone through in several ways: their labels are listed, replaced by the values of a
function, and replaced by the answers of a function that may have effects or refuse. A `Traversal` collects
these ways, and `Traversal.Lawful` says that they belong together: all of them visit the same labels in the
same order and leave everything else alone.

The laws come from a single fact. What has labels in it is a row of slots and a list of labels to fill them
with, and each way of going through the labels only does to the list what can be done to lists. This is
`Traversal.Slotted`, which holds of branches by looking at each kind of them, and of blocks because it holds
of their branches. `Traversal.Slotted.lawful` derives the laws from it.

Mapping twice asks the first function about all labels before it asks the second one at all. A composite is
asked label by label instead, and functions that share a memory can notice. `Register.map_number_twice` shows
two that do, and `Traversal.Lawful.mapM_mapM` is the law for all those that do not.
-/

namespace Flowgraph

variable {T : Type → Type}

/-- Things with labels in them, and the ways to go through these labels. -/
structure Traversal (T : Type → Type) where
  /-- The labels of a thing, in order. -/
  labels : ∀ {L : Type}, T L → List L
  /-- Replace every label by its value under a function. -/
  map : ∀ {L M : Type}, (L → M) → T L → T M
  /-- Replace every label by the answer of a function that may have effects. -/
  mapM : ∀ {L M : Type} {m : Type → Type} [Monad m], (L → m M) → T L → m (T M)
  /-- Two things differ in nothing but their labels. -/
  Alike : ∀ {L M : Type}, T L → T M → Prop

namespace Traversal

/-- Replace every label by the answer of a function with a memory, up to the first refusal. -/
def mapEach (traversal : Traversal T) {Memory E L M : Type} (f : L → StateM Memory (Except E M))
    (thing : T L) : StateM Memory (Except E (T M)) :=
  (traversal.mapM (fun label => ExceptT.mk (f label)) thing).run

/-- The ways to go through the labels belong together. -/
structure Lawful (traversal : Traversal T) : Prop where
  /-- Mapping replaces the labels by their values, and changes nothing else. -/
  labels_map : ∀ {L M : Type} (f : L → M) (thing : T L),
    traversal.labels (traversal.map f thing) = (traversal.labels thing).map f ∧
      traversal.Alike thing (traversal.map f thing)
  /-- Mapping by the identity gives the same thing. -/
  map_id : ∀ {L : Type} (thing : T L), traversal.map (fun label => label) thing = thing
  /-- Mapping twice is mapping by the composite. -/
  map_map : ∀ {L M N : Type} (f : L → M) (g : M → N) (thing : T L),
    traversal.map g (traversal.map f thing) = traversal.map (fun label => g (f label)) thing
  /-- A function that is only asked for its values is mapped. -/
  mapM_pure : ∀ {L M : Type} {m : Type → Type} [Monad m] [LawfulMonad m] (f : L → M) (thing : T L),
    traversal.mapM (fun label => (pure (f label) : m M)) thing = pure (traversal.map f thing)
  /-- A function with a memory is asked about the labels in order, and about nothing else. Its answers
  replace the labels, and nothing else changes. -/
  run_mapM : ∀ {Memory L M : Type} (f : L → StateM Memory M) (thing : T L) (before : Memory),
    ∃ mapped after, (traversal.mapM f thing).run before = (mapped, after) ∧
      ((traversal.labels thing).mapM f).run before = (traversal.labels mapped, after) ∧
      traversal.Alike thing mapped ∧
      ∀ earlier, (traversal.mapM (onRecord f) thing).run (before, earlier) =
        (mapped, after, earlier ++ traversal.labels thing)
  /-- A function that answers each label with itself gives the same thing. -/
  run_mapM_self : ∀ {Memory L : Type} {f : L → StateM Memory L},
    (∀ label memory, ((f label).run memory).1 = label) → ∀ (thing : T L) (before : Memory),
      ((traversal.mapM f thing).run before).1 = thing
  /-- Mapping by one function and then by another one is mapping by their composite, if no call of the
  second disturbs a call of the first about a label behind the first label. -/
  mapM_mapM : ∀ {L M N : Type} {m : Type → Type} [Monad m] [LawfulMonad m] {f : L → m M} {g : M → m N}
    {thing : T L},
    (∀ label ∈ (traversal.labels thing).tail, ∀ other, Independent (f label) (g other)) →
      (traversal.mapM f thing >>= traversal.mapM g) = traversal.mapM (fun label => f label >>= g) thing
  /-- So it is where each function has a memory of its own. -/
  mapM_composite : ∀ {Memory Other L M N : Type} (f : L → StateM Memory M)
    (g : M → StateM Other N) (thing : T L),
    traversal.mapM (composite f g) thing =
      composite (traversal.mapM f) (traversal.mapM g) thing
  /-- A function that could refuse but never does is mapped like one that cannot. -/
  mapEach_unfailing : ∀ {Memory E L M : Type} (f : L → StateM Memory M) (thing : T L),
    traversal.mapEach (unfailing f : L → StateM Memory (Except E M)) thing =
      unfailing (traversal.mapM f) thing
  /-- A function that can refuse is asked about the labels in order, up to the first one that it
  refuses, whose error is reported. -/
  run_mapEach : ∀ {Memory E L M : Type} (f : L → StateM Memory (Except E M)) (thing : T L)
    (before : Memory),
    ∃ outcome asked after, (traversal.mapEach f thing).run before = (outcome, after) ∧
      Asked f (traversal.labels thing) before (outcome.map traversal.labels) asked after ∧
      (∀ mapped, outcome = .ok mapped → traversal.Alike thing mapped) ∧
      ∀ earlier, (traversal.mapEach (onRecord f) thing).run (before, earlier) =
        (outcome, after, earlier ++ asked)

/-- A thing is a row of slots with its labels in them. `refill` puts others in, and every way to go
through the labels does so. -/
structure Slotted (traversal : Traversal T) (refill : ∀ {L M : Type}, T L → List M → T M) : Prop where
  map_eq : ∀ {L M : Type} (f : L → M) (thing : T L),
    traversal.map f thing = refill thing ((traversal.labels thing).map f)
  mapM_eq : ∀ {L M : Type} {m : Type → Type} [Monad m] [LawfulMonad m] (f : L → m M) (thing : T L),
    traversal.mapM f thing = refill thing <$> (traversal.labels thing).mapM f
  refill_labels : ∀ {L : Type} (thing : T L), refill thing (traversal.labels thing) = thing
  labels_refill : ∀ {L M : Type} {thing : T L} {answers : List M},
    answers.length = (traversal.labels thing).length →
      traversal.labels (refill thing answers) = answers
  alike_refill : ∀ {L M : Type} {thing : T L} {answers : List M},
    answers.length = (traversal.labels thing).length → traversal.Alike thing (refill thing answers)
  refill_refill : ∀ {L M N : Type} {thing : T L} {answers : List M} (others : List N),
    answers.length = (traversal.labels thing).length →
      refill (refill thing answers) others = refill thing others

namespace Slotted

variable {traversal : Traversal T} {refill : ∀ {L M : Type}, T L → List M → T M}
  (slots : traversal.Slotted refill) {Memory Other E L M N : Type}

include slots

/-- The answers are put into the slots after they have all been given. -/
theorem run_mapM_eq (f : L → StateM Memory M) (thing : T L) (before : Memory) :
    (traversal.mapM f thing).run before =
      (refill thing (((traversal.labels thing).mapM f).run before).1,
        (((traversal.labels thing).mapM f).run before).2) := by
  rw [slots.mapM_eq]
  rfl

/-- So they are where some can be refused, and only if none is. -/
theorem mapEach_eq (f : L → StateM Memory (Except E M)) (thing : T L) :
    traversal.mapEach f thing =
      Except.map (refill thing) <$> askEach f (traversal.labels thing) := by
  rw [mapEach, slots.mapM_eq, ExceptT.run_map]
  rfl

theorem exists_run_mapM (f : L → StateM Memory M) (thing : T L) (before : Memory) :
    ∃ mapped after, (traversal.mapM f thing).run before = (mapped, after) ∧
      ((traversal.labels thing).mapM f).run before = (traversal.labels mapped, after) ∧
      traversal.Alike thing mapped ∧
      ∀ earlier, (traversal.mapM (onRecord f) thing).run (before, earlier) =
        (mapped, after, earlier ++ traversal.labels thing) := by
  have lengths := length_run_mapM f (traversal.labels thing) before
  refine ⟨_, _, slots.run_mapM_eq f thing before, ?_, slots.alike_refill lengths, fun earlier => ?_⟩
  · rw [slots.labels_refill lengths]
    rfl
  · rw [slots.run_mapM_eq, run_mapM_onRecord]

theorem mapM_mapM_eq {m : Type → Type} [Monad m] [LawfulMonad m] {f : L → m M} {g : M → m N}
    {thing : T L}
    (independent : ∀ label ∈ (traversal.labels thing).tail, ∀ other, Independent (f label) (g other)) :
    (traversal.mapM f thing >>= traversal.mapM g) = traversal.mapM (fun label => f label >>= g) thing := by
  have refilled (answers : List M) (lengths : answers.length = (traversal.labels thing).length) :
      traversal.mapM g (refill thing answers) = refill thing <$> answers.mapM g := by
    have others : refill (refill thing answers) = (refill thing : List N → T N) :=
      funext fun others => slots.refill_refill others lengths
    rw [slots.mapM_eq, slots.labels_refill lengths, others]
  rw [slots.mapM_eq, slots.mapM_eq, bind_map_left, bind_mapM_congr refilled, ← map_bind,
    mapM_mapM independent]

theorem mapM_composite_eq (f : L → StateM Memory M) (g : M → StateM Other N) (thing : T L) :
    traversal.mapM (composite f g) thing =
      composite (traversal.mapM f) (traversal.mapM g) thing := by
  refine StateT.ext fun (before, otherBefore) => ?_
  have lengths := length_run_mapM f (traversal.labels thing) before
  rw [run_composite, slots.run_mapM_eq, slots.run_mapM_eq, slots.run_mapM_eq, mapM_composite,
    run_composite, slots.labels_refill lengths, slots.refill_refill _ lengths]

theorem mapEach_unfailing_eq (f : L → StateM Memory M) (thing : T L) :
    traversal.mapEach (unfailing f : L → StateM Memory (Except E M)) thing =
      unfailing (traversal.mapM f) thing := by
  rw [slots.mapEach_eq, askEach_unfailing, unfailing, unfailing, slots.mapM_eq, Functor.map_map,
    Functor.map_map]
  rfl

theorem exists_run_mapEach (f : L → StateM Memory (Except E M)) (thing : T L) (before : Memory) :
    ∃ outcome asked after, (traversal.mapEach f thing).run before = (outcome, after) ∧
      Asked f (traversal.labels thing) before (outcome.map traversal.labels) asked after ∧
      (∀ mapped, outcome = .ok mapped → traversal.Alike thing mapped) ∧
      ∀ earlier, (traversal.mapEach (onRecord f) thing).run (before, earlier) =
        (outcome, after, earlier ++ asked) := by
  obtain ⟨asked, way, recorded⟩ := exists_asked f (traversal.labels thing) before
  rcases ran : (askEach f (traversal.labels thing)).run before with ⟨outcome, after⟩
  simp only [ran] at way recorded
  refine ⟨outcome.map (refill thing), asked, after, ?_, ?_, ?_, fun earlier => ?_⟩
  · rw [slots.mapEach_eq, StateT.run_map, ran]
    rfl
  · cases outcome with
    | error error => exact way
    | ok answers =>
      rw [Except.map, Except.map, slots.labels_refill way.length_eq]
      exact way
  · cases outcome with
    | error error => rintro _ ⟨⟩
    | ok answers =>
      rintro _ ⟨⟩
      exact slots.alike_refill way.length_eq
  · rw [slots.mapEach_eq, StateT.run_map, recorded]
    rfl

/-- What holds of lists holds of everything that has slots. -/
theorem lawful : traversal.Lawful where
  labels_map f thing := by
    have lengths : ((traversal.labels thing).map f).length = _ := List.length_map f
    rw [slots.map_eq]
    exact ⟨slots.labels_refill lengths, slots.alike_refill lengths⟩
  map_id thing := by rw [slots.map_eq, List.map_id', slots.refill_labels]
  map_map f g thing := by
    have lengths : ((traversal.labels thing).map f).length = _ := List.length_map f
    rw [slots.map_eq, slots.map_eq, slots.map_eq, slots.labels_refill lengths,
      slots.refill_refill _ lengths, List.map_map]
    rfl
  mapM_pure f thing := by
    rw [slots.mapM_eq, List.mapM_pure, map_pure, slots.map_eq]
  run_mapM := slots.exists_run_mapM
  run_mapM_self same thing before := by
    rw [slots.run_mapM_eq, run_mapM_self same, slots.refill_labels]
  mapM_mapM := slots.mapM_mapM_eq
  mapM_composite := slots.mapM_composite_eq
  mapEach_unfailing := slots.mapEach_unfailing_eq
  run_mapEach := slots.exists_run_mapEach

end Slotted

end Traversal

section Blocks

variable {Inst Cond L M : Type}

/-- How the parts of a block are copied. -/
structure Copying (Inst Cond L : Type) where
  inst : Inst → Inst
  cond : Cond → Cond
  label : L → L

/-- A copy is equal to what it is a copy of. -/
structure Copying.Faithful (copying : Copying Inst Cond L) : Prop where
  inst : ∀ inst, copying.inst inst = inst
  cond : ∀ cond, copying.cond cond = cond
  label : ∀ label, copying.label label = label

namespace Branch

/-- The branches are of one kind, and test the same condition if they test one. -/
inductive Alike : Branch Cond L → Branch Cond M → Prop where
  | jump {target : L} {other : M} : Alike (jump target) (jump other)
  | conditional {test : Cond} {whenTrue whenFalse : L} {otherTrue otherFalse : M} :
      Alike (conditional test whenTrue whenFalse) (conditional test otherTrue otherFalse)
  | halt : Alike halt halt

/-- The ways to go through the labels of a branch. -/
def traversal (Cond : Type) : Traversal (Branch Cond) where
  labels := labels
  map := mapLabels
  mapM := mapLabelsM
  Alike := Alike

/-- Copy a branch: its condition, and the labels in its slots. -/
def copy (copying : Copying Inst Cond L) : Branch Cond L → Branch Cond L
  | jump target => jump (copying.label target)
  | conditional test whenTrue whenFalse =>
    conditional (copying.cond test) (copying.label whenTrue) (copying.label whenFalse)
  | halt => halt

theorem copy_eq {copying : Copying Inst Cond L} (faithful : copying.Faithful)
    (branch : Branch Cond L) : branch.copy copying = branch := by
  cases branch with
  | jump target => rw [copy, faithful.label]
  | conditional test whenTrue whenFalse =>
    rw [copy, faithful.cond, faithful.label, faithful.label]
  | halt => rfl

/-- Put other labels into the slots of a branch. There have to be as many of them as there are slots. -/
def refill (branch : Branch Cond L) (answers : List M) : Branch Cond M :=
  match branch with
  | jump _ =>
    match answers with
    | [target] => jump target
    | _ => halt
  | conditional test _ _ =>
    match answers with
    | [whenTrue, whenFalse] => conditional test whenTrue whenFalse
    | _ => halt
  | halt => halt

/-- There is one label for each slot of the branch. -/
inductive Fits : Branch Cond L → List M → Prop where
  | jump {target : L} {answer : M} : Fits (jump target) [answer]
  | conditional {test : Cond} {whenTrue whenFalse : L} {answerTrue answerFalse : M} :
      Fits (conditional test whenTrue whenFalse) [answerTrue, answerFalse]
  | halt : Fits halt []

theorem fits_of_length_eq : ∀ {branch : Branch Cond L} {answers : List M},
    answers.length = branch.labels.length → branch.Fits answers
  | .jump _, [_], _ => .jump
  | .conditional _ _ _, [_, _], _ => .conditional
  | .halt, [], _ => .halt

/-- A branch is a row of one slot, two or none. -/
theorem slotted : (traversal Cond).Slotted refill where
  map_eq f branch := by cases branch <;> rfl
  mapM_eq f branch := by
    change branch.mapLabelsM f = refill branch <$> branch.labels.mapM f
    cases branch <;> simp [mapLabelsM, labels, refill]
  refill_labels branch := by cases branch <;> rfl
  labels_refill lengths := by cases fits_of_length_eq lengths <;> rfl
  alike_refill lengths := by
    cases fits_of_length_eq lengths with
    | jump => exact .jump
    | conditional => exact .conditional
    | halt => exact .halt
  refill_refill others lengths := by cases fits_of_length_eq lengths <;> rfl

/-- A function that counts how often it is asked numbers the slots. -/
example : ((conditional "zero" "done" "again").mapLabelsM fun _ : String =>
      (modifyGet fun count => (count, count + 1) : StateM Nat Nat)).run 5 =
    (conditional "zero" 5 6, 7) := by
  rfl

end Branch

namespace Block

/-- The blocks have the same instructions, and branches that differ in nothing but their labels. -/
def Alike (block : Block Inst Cond L) (other : Block Inst Cond M) : Prop :=
  block.insts = other.insts ∧ block.branch.Alike other.branch

/-- The ways to go through the labels of a block. -/
def traversal (Inst Cond : Type) : Traversal (Block Inst Cond) where
  labels := successors
  map := mapLabels
  mapM := mapLabelsM
  Alike := Alike

/-- Put other labels into the slots of a block, which are those of its branch. -/
def refill (block : Block Inst Cond L) (answers : List M) : Block Inst Cond M :=
  ⟨block.insts, block.branch.refill answers⟩

theorem slotted : (traversal Inst Cond).Slotted refill where
  map_eq f block := ext rfl (Branch.slotted.map_eq f block.branch)
  mapM_eq f block := by
    have branches : block.branch.mapLabelsM f =
        block.branch.refill <$> block.branch.labels.mapM f := Branch.slotted.mapM_eq f block.branch
    change block.mapLabelsM f = block.refill <$> block.successors.mapM f
    rw [mapLabelsM, branches, bind_pure_comp, Functor.map_map]
    rfl
  refill_labels block := ext rfl (Branch.slotted.refill_labels block.branch)
  labels_refill lengths := Branch.slotted.labels_refill lengths
  alike_refill lengths := ⟨rfl, Branch.slotted.alike_refill lengths⟩
  refill_refill others lengths := ext rfl (Branch.slotted.refill_refill others lengths)

/-- Copy a block: its instructions one by one, and its branch. -/
def copy (copying : Copying Inst Cond L) (block : Block Inst Cond L) : Block Inst Cond L :=
  ⟨block.insts.map copying.inst, block.branch.copy copying⟩

theorem copy_eq {copying : Copying Inst Cond L} (faithful : copying.Faithful)
    (block : Block Inst Cond L) : block.copy copying = block := by
  have insts : block.insts.map copying.inst = block.insts :=
    (List.map_congr_left fun inst _ => faithful.inst inst).trans (List.map_id' block.insts)
  exact ext insts (Branch.copy_eq faithful block.branch)

/-- Replace every label in a copy of a block by the answer of `f`, and keep the block. -/
def relabeledM {m : Type → Type} [Monad m] (copying : Copying Inst Cond L) (f : L → m M)
    (block : Block Inst Cond L) : m (Block Inst Cond M) :=
  (block.copy copying).mapLabelsM f

/-- The ways to go through the labels of branches belong together, and so do those to go through the labels
of blocks. It makes no difference whether a block is mapped itself or through a copy. -/
theorem traversal_lawful (Inst Cond : Type) :
    (Branch.traversal Cond).Lawful ∧ (traversal Inst Cond).Lawful ∧
      ∀ {L M : Type} {m : Type → Type} [Monad m] {copying : Copying Inst Cond L}, copying.Faithful →
        ∀ (f : L → m M) (block : Block Inst Cond L),
          block.relabeledM copying f = block.mapLabelsM f := by
  refine ⟨Branch.slotted.lawful, slotted.lawful, fun faithful f block => ?_⟩
  rw [relabeledM, copy_eq faithful]

end Block

end Blocks

namespace Register

/-- The instructions of the register machine are copied with what they are made of. -/
def copying : Copying Inst Cond Label where
  inst
    | .set register value => .set register value
    | .add register value => .add register value
    | .emit register => .emit register
  cond register := register
  label label := ⟨label.index⟩

theorem copying_faithful : copying.Faithful where
  inst inst := by cases inst <;> rfl
  cond _ := rfl
  label _ := rfl

/-- A block with two targets. -/
def fork : Block Inst Cond Label := ⟨[.set 0 1, .emit 0], .conditional 0 ⟨0⟩ ⟨1⟩⟩

/-- Answer each label with the value of a counter, and count on. -/
def number (_ : Label) : StateM Nat Label := modifyGet fun count => (⟨count⟩, count + 1)

/-- Move a label, and count how many have been moved. The count is not looked at. -/
def tally (distance : Nat) (label : Label) : StateM Nat Label := do
  modify (· + 1)
  return label.shift distance

theorem independent_tally (distance other : Nat) (label moved : Label) :
    Independent (tally distance label) (tally other moved) := rfl

/-- Functions that share a counter and do not look at it can be composed: all four labels are counted, and
each of the two that there are has been moved by both distances. -/
theorem map_tally_twice :
    copying.Faithful ∧
      (∀ label ∈ fork.successors.tail, ∀ other, Independent (tally 3 label) (tally 4 other)) ∧
      ((fork.mapLabelsM (tally 3) >>= fun moved => moved.mapLabelsM (tally 4)) =
        fork.mapLabelsM fun label => tally 3 label >>= tally 4) ∧
      (fork.mapLabelsM fun label => tally 3 label >>= tally 4).run 0 =
        (⟨fork.insts, .conditional 0 ⟨7⟩ ⟨8⟩⟩, 4) ∧
      fork.relabeledM copying number = fork.mapLabelsM number ∧
      (fork.mapLabelsM number).run 1 = (⟨fork.insts, .conditional 0 ⟨1⟩ ⟨2⟩⟩, 3) := by
  obtain ⟨-, blocks, copies⟩ := Block.traversal_lawful Inst Cond
  have independent (label : Label) (_ : label ∈ fork.successors.tail) (other : Label) :
      Independent (tally 3 label) (tally 4 other) := independent_tally 3 4 label other
  exact ⟨copying_faithful, independent, blocks.mapM_mapM independent, rfl,
    copies copying_faithful number fork, rfl⟩

/-- Functions that share a counter and put it on the labels cannot. Mapping twice counts to two before it
puts three and four on the labels, and their composite counts twice for the first label. -/
theorem map_number_twice :
    (fork.mapLabelsM number >>= fun numbered => numbered.mapLabelsM number).run 1 =
        (⟨fork.insts, .conditional 0 ⟨3⟩ ⟨4⟩⟩, 5) ∧
      (fork.mapLabelsM fun label => number label >>= number).run 1 =
        (⟨fork.insts, .conditional 0 ⟨2⟩ ⟨4⟩⟩, 5) ∧
      (fork.mapLabelsM number >>= fun numbered => numbered.mapLabelsM number) ≠
        fork.mapLabelsM fun label => number label >>= number := by
  refine ⟨rfl, rfl, fun same => ?_⟩
  have results := congrArg (fun mapping => (mapping.run 1).1.successors) same
  revert results
  decide

end Register

end Flowgraph
