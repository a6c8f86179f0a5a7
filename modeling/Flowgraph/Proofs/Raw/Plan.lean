import Flowgraph.Countdown.Program
import Flowgraph.Proofs.Raw.Fragment

/-!
# Whatever is put together holds together

A plan is a finite tree of the ways to make block maps and fragments. It can be built with proofs
and without them, and `Fragment.Plan.agrees_build` says that this makes no difference, one case for
each way. What a plan builds is therefore sound: its sizes add up and none of its branches dangles,
although the operations that built it compare neither. And a sound fragment never lets anyone down
who looks a block up in it.
-/

namespace Flowgraph

open Unguarded

variable {Inst Cond State Fault : Type}

/-- A way to make a block map. -/
inductive BlockMap.Plan (Inst Cond : Type) where
  | ofBlocks (exits : Size) (blocks : Array (Block Inst Cond Label))
  | ofFn (entries exits : Size) (f : Label → Block Inst Cond Label)
  | relabel (code : Plan Inst Cond) (f g : Renaming)
  | append (left right : Plan Inst Cond)

namespace BlockMap.Plan

/-- The block map of a plan. -/
def build : Plan Inst Cond → Except BlockMapError (BlockMap Inst Cond)
  | .ofBlocks exits blocks => BlockMap.ofBlocks exits blocks
  | .ofFn entries exits f => BlockMap.ofFn entries exits f
  | .relabel code f g => do
    let code ← code.build
    code.relabel f g
  | .append left right => do
    let left ← left.build
    let right ← right.build
    left.append right

/-- The block map of a plan, built without proofs. -/
def buildRaw : Plan Inst Cond → Unguarded BlockMapError (Raw Inst Cond)
  | .ofBlocks exits blocks => Raw.ofBlocks exits blocks
  | .ofFn entries exits f => Raw.ofFn entries exits f
  | .relabel code f g => do
    let code ← code.buildRaw
    code.relabel f g
  | .append left right => do
    let left ← left.buildRaw
    let right ← right.buildRaw
    left.append right

/-- A block map can be built without proofs: nothing is missed on the way, and the outcome is the
same. -/
theorem agrees_build (plan : Plan Inst Cond) : Agrees plan.buildRaw raw plan.build := by
  induction plan with
  | ofBlocks exits blocks => exact agrees_ofBlocks exits blocks
  | ofFn entries exits f => exact agrees_ofFn entries exits f
  | relabel code f g codeAgrees =>
    refine codeAgrees.bind fun code => ?_
    exact code.agrees_relabel f g
  | append left right leftAgrees rightAgrees =>
    refine leftAgrees.bind fun left => ?_
    refine rightAgrees.bind fun right => ?_
    exact left.agrees_append right

end BlockMap.Plan

/-- A way to make a fragment. -/
inductive Fragment.Plan (Inst Cond : Type) where
  | ofCode (internal inputs outputs : Size) (code : BlockMap.Plan Inst Cond)
  | ofBlockMap (code : BlockMap.Plan Inst Cond)
  | ofBlock (block : Block Inst Cond Label) (outputs : Size)
  | ofRenaming (table : Renaming)
  | identity (size : Size)
  | swap (a b : Size)
  | append (left right : Plan Inst Cond)
  | relabel (fragment : Plan Inst Cond) (f g : Renaming)
  | link (fragment : Plan Inst Cond) (linked : Size)
  | seq (first second : Plan Inst Cond)
  | ofDraft (draft : Draft Inst Cond)

namespace Fragment.Plan

/-- The fragment of a plan. -/
def build : Plan Inst Cond → Except Error (Fragment Inst Cond)
  | .ofCode internal inputs outputs code => do
    let code ← code.build.mapError .blockMap
    (Fragment.ofCode internal inputs outputs code).mapError .fragment
  | .ofBlockMap code => do
    let code ← code.build.mapError .blockMap
    return Fragment.ofBlockMap code
  | .ofBlock block outputs => (Fragment.ofBlock block outputs).mapError .fragment
  | .ofRenaming table => return Fragment.ofRenaming table
  | .identity size => return Fragment.identity size
  | .swap a b => (Fragment.swap a b).mapError .fragment
  | .append left right => do
    let left ← left.build
    let right ← right.build
    (left.append right).mapError .fragment
  | .relabel fragment f g => do
    let fragment ← fragment.build
    (fragment.relabel f g).mapError .fragment
  | .link fragment linked => do
    let fragment ← fragment.build
    (fragment.link linked).mapError .fragment
  | .seq first second => do
    let first ← first.build
    let second ← second.build
    (first.seq second).mapError .fragment
  | .ofDraft draft => draft.assemble.mapError .draft

/-- The fragment of a plan, built without proofs. -/
def buildRaw : Plan Inst Cond → Unguarded Error (Raw Inst Cond)
  | .ofCode internal inputs outputs code => do
    let code ← code.buildRaw.adapt .blockMap
    (Raw.ofCode internal inputs outputs code).adapt .fragment
  | .ofBlockMap code => do
    let code ← code.buildRaw.adapt .blockMap
    trusting (Raw.ofBlockMap code)
  | .ofBlock block outputs => (Raw.ofBlock block outputs).adapt .fragment
  | .ofRenaming table => trusting (Raw.ofRenaming table)
  | .identity size => trusting (Raw.identity size)
  | .swap a b => (Raw.swap a b).adapt .fragment
  | .append left right => do
    let left ← left.buildRaw
    let right ← right.buildRaw
    (left.append right).adapt .fragment
  | .relabel fragment f g => do
    let fragment ← fragment.buildRaw
    (fragment.relabel f g).adapt .fragment
  | .link fragment linked => do
    let fragment ← fragment.buildRaw
    (fragment.link linked).adapt .fragment
  | .seq first second => do
    let first ← first.buildRaw
    let second ← second.buildRaw
    (first.seq second).adapt .fragment
  | .ofDraft draft => (Raw.ofDraft draft).adapt .draft

/-- A fragment can be built without proofs: nothing is missed on the way, and the outcome is the
same. -/
theorem agrees_build (plan : Plan Inst Cond) : Agrees plan.buildRaw raw plan.build := by
  induction plan with
  | ofCode internal inputs outputs code =>
    refine (code.agrees_build.adapt Error.blockMap).bind fun code => ?_
    exact (agrees_ofCode internal inputs outputs code).adapt Error.fragment
  | ofBlockMap code =>
    refine (code.agrees_build.adapt Error.blockMap).bind fun code => ?_
    exact agrees_trusting (ofBlockMap_raw code)
  | ofBlock block outputs => exact (agrees_ofBlock block outputs).adapt Error.fragment
  | ofRenaming table => exact agrees_trusting (ofRenaming_raw table)
  | identity size => exact agrees_trusting (ofRenaming_raw (.identity size))
  | swap a b => exact (agrees_swap a b).adapt Error.fragment
  | append left right leftAgrees rightAgrees =>
    refine leftAgrees.bind fun left => ?_
    refine rightAgrees.bind fun right => ?_
    exact (left.agrees_append right).adapt Error.fragment
  | relabel fragment f g fragmentAgrees =>
    refine fragmentAgrees.bind fun fragment => ?_
    exact (fragment.agrees_relabel f g).adapt Error.fragment
  | link fragment linked fragmentAgrees =>
    refine fragmentAgrees.bind fun fragment => ?_
    exact (fragment.agrees_link linked).adapt Error.fragment
  | seq first second firstAgrees secondAgrees =>
    refine firstAgrees.bind fun first => ?_
    refine secondAgrees.bind fun second => ?_
    exact (first.agrees_seq second).adapt Error.fragment
  | ofDraft draft => exact (agrees_ofDraft draft).adapt Error.draft

end Fragment.Plan

namespace Fragment.Raw

/-- The sizes of a fragment add up, and none of its branches dangles. -/
structure Sound (fragment : Raw Inst Cond) : Prop where
  entries_eq : fragment.code.blocks.size = fragment.internal.count + fragment.inputs.count
  exits_eq : fragment.code.exits.count = fragment.internal.count + fragment.outputs.count
  entries_fit : fragment.internal.count + fragment.inputs.count < Size.limit
  exits_fit : fragment.internal.count + fragment.outputs.count < Size.limit
  targets_within : ∀ block ∈ fragment.code.blocks, ∀ target ∈ block.successors,
    target.Within fragment.code.exits

/-- Nobody who looks a block up in a fragment is let down: not when it is reindexed, not when it is
run, and not when the block behind one of its entries is asked for. -/
structure Dependable (fragment : Raw Inst Cond) : Prop where
  relabel_total : ∀ (f g : Renaming) (breach : Breach),
    fragment.code.relabel f g ≠ .mk (.error breach)
  run_total : ∀ {State Fault : Type} (machine : Machine Inst Cond State Fault) (entry : Label)
    (fuel : Nat) (state : State) (breach : Breach),
    fragment.run machine entry fuel state ≠ .error breach
  entryBlock_of_within : ∀ entry : Label, entry.Within fragment.inputs →
    ∃ block, fragment.entryBlock entry = ordinary (.ok block)
  entryBlock_of_not_within : ∀ entry : Label, ¬ entry.Within fragment.inputs →
    fragment.entryBlock entry = ordinary (.error (.label (.outOfRange entry fragment.inputs)))

/-- The proofs that a fragment carries say that what is left without them is sound. -/
theorem sound_raw (fragment : Fragment Inst Cond) : fragment.raw.Sound where
  entries_eq := fragment.entries_eq
  exits_eq := fragment.exits_eq
  entries_fit := fragment.counts_fit.1
  exits_fit := fragment.counts_fit.2
  targets_within := fragment.code.targets_within

/-- Soundness is all that a fragment needs to be given its proofs back. -/
theorem Sound.exists_raw_eq {unproved : Raw Inst Cond} (sound : unproved.Sound) :
    ∃ fragment : Fragment Inst Cond, fragment.raw = unproved := by
  have fits : unproved.code.blocks.size < Size.limit := by
    rw [sound.entries_eq]
    exact sound.entries_fit
  exact ⟨{
    internal := unproved.internal
    inputs := unproved.inputs
    outputs := unproved.outputs
    code := ⟨unproved.code.exits, unproved.code.blocks, fits, sound.targets_within⟩
    entries_eq := sound.entries_eq
    exits_eq := sound.exits_eq }, rfl⟩

/-- A sound fragment is dependable: it does what the fragment with the proofs does. -/
theorem Sound.dependable {unproved : Raw Inst Cond} (sound : unproved.Sound) :
    unproved.Dependable := by
  obtain ⟨fragment, rfl⟩ := sound.exists_raw_eq
  constructor
  · intro f g breach broken
    have agrees : fragment.raw.code.relabel f g = ordinary ((fragment.code.relabel f g).map _) :=
      fragment.code.agrees_relabel f g
    rw [agrees] at broken
    cases broken
  · intro State Fault machine entry fuel state breach broken
    rw [run_raw fragment machine entry fuel state] at broken
    cases broken
  · intro entry inside
    refine ⟨fragment.blockAt ⟨_, fragment.shift_within_entries inside⟩, ?_⟩
    rw [entryBlock_raw, entryBlock_of_within fragment inside]
  · intro entry outside
    rw [entryBlock_raw, entryBlock_of_not_within fragment outside]
    rfl

end Fragment.Raw

namespace Fragment.Plan

/-- Whatever is put together holds together. Built without proofs, no plan breaks down, and it comes
to the same as with them; and every fragment that comes out is sound, and so dependable. -/
theorem buildRaw_sound (plan : Plan Inst Cond) :
    (∀ breach, plan.buildRaw ≠ .mk (.error breach)) ∧
      plan.buildRaw = ordinary (plan.build.map Fragment.raw) ∧
        ∀ unproved, plan.buildRaw = ordinary (.ok unproved) →
          unproved.Sound ∧ unproved.Dependable := by
  have agrees : plan.buildRaw = ordinary (plan.build.map Fragment.raw) := plan.agrees_build
  refine ⟨fun breach broken => ?_, agrees, fun unproved built => ?_⟩
  · rw [agrees] at broken
    cases broken
  · rw [agrees] at built
    cases made : plan.build with
    | error error =>
      rw [made] at built
      cases built
    | ok fragment =>
      rw [made] at built
      cases built
      have sound := Raw.sound_raw fragment
      exact ⟨sound, sound.dependable⟩

/-- Two blocks that count down by turns. Each goes on to the other one, or out by an exit that both of them
share. The first block is there twice: as the one that the second goes on to, and as the one to begin
with. -/
def turns : BlockMap.Plan Countdown.Inst Countdown.Cond :=
  let tick := .ofBlocks 2 #[⟨[.say "tick", .dec], .conditional () ⟨0⟩ ⟨1⟩⟩]
  let tock := .ofFn 1 2 fun _ => ⟨[.say "tock", .dec], .conditional () ⟨0⟩ ⟨1⟩⟩
  .relabel (.append tick tock) ⟨2, #[⟨1⟩, ⟨0⟩, ⟨0⟩], by decide, by decide⟩
    ⟨3, #[⟨0⟩, ⟨2⟩, ⟨1⟩, ⟨2⟩], by decide, by decide⟩

/-- A draft of a block that counts down on its own. -/
def spin : Draft Countdown.Inst Countdown.Cond where
  hidden := [⟨"loop", some ⟨[.say "tick", .dec], .conditional () "loop" "done"⟩⟩]
  entries := [⟨"start", some (.jump "loop")⟩]
  exits := ["done"]

/-- Greet, count down by turns or on your own, and say farewell. A third way through goes on to a silent end,
and nobody is sent there. Every way to make a fragment occurs in this, and every way to make a block map. -/
def medley : Plan Countdown.Inst Countdown.Cond :=
  let hello := .relabel (.ofBlock ⟨[.say "hello"], .conditional () ⟨0⟩ ⟨1⟩⟩ 2) (.identity 1)
    ⟨3, #[⟨1⟩, ⟨2⟩], by decide, by decide⟩
  let countdowns := .append (.append (.link (.ofCode 1 2 2 turns) 1) (.ofDraft spin)) (.identity 1)
  let bye := .seq (.ofRenaming ⟨2, #[⟨1⟩, ⟨1⟩, ⟨0⟩], by decide, by decide⟩)
    (.ofBlockMap (.ofBlocks 0 #[.halt, ⟨[.say "bye"], .halt⟩]))
  .seq (.seq hello (.swap 1 2)) (.seq countdowns bye)

/-- The medley comes out, with fourteen hidden labels and one entry, and is sound. -/
theorem buildRaw_medley_sound :
    ∃ unproved, medley.buildRaw = ordinary (.ok unproved) ∧
      unproved.internal.count = 14 ∧ unproved.inputs.count = 1 ∧ unproved.outputs.count = 0 ∧
        unproved.Sound ∧ unproved.Dependable := by
  have built : medley.build.map (fun fragment =>
      (fragment.internal.count, fragment.inputs.count, fragment.outputs.count)) = .ok (14, 1, 0) := by
    decide +kernel
  obtain ⟨-, agrees, sound⟩ := medley.buildRaw_sound
  cases made : medley.build with
  | error error =>
    rw [made] at built
    cases built
  | ok fragment =>
    rw [made] at agrees built
    simp only [Except.map, Except.ok.injEq, Prod.mk.injEq] at built
    obtain ⟨internal, inputs, outputs⟩ := built
    exact ⟨fragment.raw, agrees, internal, inputs, outputs, sound fragment.raw agrees⟩

end Fragment.Plan

end Flowgraph
