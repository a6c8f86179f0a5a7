import Flowgraph.Proofs.Fragment.Interface
import Flowgraph.Proofs.Raw.BlockMap

/-!
# Fragments without proofs

Each operation of `Fragment.Raw` agrees with the operation on fragments. All but one take the same
steps as it does; only linking goes the long way, and comes to the same by `link_eq_regroup`. A run
agrees as well: it goes on at hidden labels only, and there is a block at each of them.
-/

namespace Flowgraph

open Unguarded

variable {Inst Cond State Fault : Type}

namespace Fragment

/-- The sizes of code and interface are compared in the same way. -/
theorem agrees_ofCode (internal inputs outputs : Size) (code : BlockMap Inst Cond) :
    Agrees (Raw.ofCode internal inputs outputs code.raw) raw
      (ofCode internal inputs outputs code) := by
  unfold Raw.ofCode ofCode
  refine agrees_sum fun entries _ => ?_
  rw [BlockMap.entries_raw, trusting_ok_bind]
  refine agrees_dite (fun _ => ?_) fun _ => agrees_error raw _
  refine agrees_sum fun exits _ => ?_
  exact agrees_dite (fun _ => rfl) fun _ => agrees_error raw _

theorem ofBlockMap_raw (code : BlockMap Inst Cond) :
    Raw.ofBlockMap code.raw = .ok (ofBlockMap code).raw := by
  rw [Raw.ofBlockMap, BlockMap.entries_raw]
  rfl

theorem agrees_ofBlock (block : Block Inst Cond Label) (outputs : Size) :
    Agrees (Raw.ofBlock block outputs) raw (ofBlock block outputs) := by
  refine ((BlockMap.agrees_ofBlocks outputs #[block]).adapt FragmentError.blockMap).bind
    fun code => ?_
  exact agrees_trusting (ofBlockMap_raw code)

/-- The images of a renaming are exits, as they are trusted to be. -/
theorem ofRenaming_raw (table : Renaming) :
    Raw.ofRenaming table = .ok (ofRenaming table : Fragment Inst Cond).raw := by
  have parts : BlockMap.Raw.ofParts table.codomain (table.images.map Block.jump) =
      .ok (BlockMap.ofRenaming table : BlockMap Inst Cond).raw :=
    BlockMap.ofParts_eq_ok rfl rfl
  rw [Raw.ofRenaming, parts]
  exact ofBlockMap_raw _

theorem agrees_swap (a b : Size) :
    Agrees (Raw.swap a b) raw (swap a b : Except FragmentError (Fragment Inst Cond)) := by
  refine (agrees_ordinary _).bind fun table => ?_
  exact agrees_trusting (ofRenaming_raw table)

theorem agrees_append (fragment other : Fragment Inst Cond) :
    Agrees (fragment.raw.append other.raw) raw (fragment.append other) := by
  refine (agrees_ordinary _).bind fun entries => ?_
  refine (agrees_ordinary _).bind fun exits => ?_
  refine ((BlockMap.agrees_append fragment.code other.code).adapt FragmentError.blockMap).bind
    fun joined => ?_
  refine ((joined.agrees_relabel entries exits).adapt FragmentError.blockMap).bind fun code => ?_
  refine (agrees_ordinary _).bind fun internal => ?_
  refine (agrees_ordinary _).bind fun inputs => ?_
  refine (agrees_ordinary _).bind fun outputs => ?_
  exact agrees_ofCode internal inputs outputs code

theorem agrees_relabel (fragment : Fragment Inst Cond) (f g : Renaming) :
    Agrees (fragment.raw.relabel f g) raw (fragment.relabel f g) := by
  refine agrees_ite (fun _ => agrees_error raw _) fun _ => ?_
  refine agrees_ite (fun _ => agrees_error raw _) fun _ => ?_
  refine (agrees_ordinary _).bind fun entries => ?_
  refine (agrees_ordinary _).bind fun exits => ?_
  refine ((fragment.code.agrees_relabel entries exits).adapt FragmentError.blockMap).bind
    fun code => ?_
  exact agrees_ofCode fragment.internal f.domain g.codomain code

/-- Linking by regrouping both sides of the code is linking by moving the border. -/
theorem agrees_link (fragment : Fragment Inst Cond) (linked : Size) :
    Agrees (fragment.raw.link linked) raw (fragment.link linked) := by
  refine agrees_choice (fun fitting => ?_) fun tooWide => ?_
  · rw [link_eq_regroup fitting.1 fitting.2]
    refine (agrees_ordinary _).bind fun entries => ?_
    refine (agrees_ordinary _).bind fun exits => ?_
    refine ((fragment.code.agrees_relabel entries exits).adapt FragmentError.blockMap).bind
      fun code => ?_
    refine (agrees_ordinary _).bind fun internal => ?_
    exact agrees_ofCode internal (fragment.inputs.diff linked) (fragment.outputs.diff linked) code
  · have refused : fragment.link linked =
        .error (.linkTooWide linked fragment.inputs fragment.outputs) := dif_neg tooWide
    rw [refused]
    exact agrees_error raw _

theorem agrees_seq (fragment next : Fragment Inst Cond) :
    Agrees (fragment.raw.seq next.raw) raw (fragment.seq next) := by
  refine agrees_ite (fun _ => agrees_error raw _) fun _ => ?_
  refine (agrees_append fragment next).bind fun joined => ?_
  refine (agrees_ordinary _).bind fun entries => ?_
  refine (agrees_relabel joined entries (.identity joined.outputs)).bind fun turned => ?_
  exact agrees_link turned next.inputs

theorem agrees_ofDraft (draft : Draft Inst Cond) :
    Agrees (Raw.ofDraft draft) raw draft.assemble := by
  refine (agrees_ordinary _).bind fun blocks => ?_
  refine (agrees_ordinary _).bind fun internal => ?_
  refine (agrees_ordinary _).bind fun inputs => ?_
  refine (agrees_ordinary _).bind fun outputs => ?_
  refine (agrees_ordinary _).bind fun exits => ?_
  refine ((BlockMap.agrees_ofBlocks exits blocks.toArray).adapt DraftError.blockMap).bind
    fun code => ?_
  exact (agrees_ofCode internal inputs outputs code).adapt DraftError.fragment

/-- An entry of the interface lies at the same place. -/
theorem codeLabel_raw_of_within (fragment : Fragment Inst Cond) {entry : Label}
    (inside : entry.Within fragment.inputs) :
    fragment.raw.codeLabel entry = .ok (entry.shift fragment.internal.count) := by
  simp only [Raw.codeLabel, raw, Label.check_of_within inside]
  rfl

/-- A label that is no entry is refused by the check. -/
theorem codeLabel_raw_of_not_within (fragment : Fragment Inst Cond) {entry : Label}
    (outside : ¬ entry.Within fragment.inputs) :
    fragment.raw.codeLabel entry = .error (.label (.outOfRange entry fragment.inputs)) := by
  simp only [Raw.codeLabel, raw, Label.check_of_not_within outside]
  rfl

/-- Behind each entry of the interface there is a block. -/
theorem entryBlock_of_within (fragment : Fragment Inst Cond) {entry : Label}
    (inside : entry.Within fragment.inputs) :
    fragment.entryBlock entry =
      .ok (fragment.blockAt ⟨_, fragment.shift_within_entries inside⟩) := by
  rw [entryBlock, codeLabel, dif_pos inside]
  rfl

/-- A label that is no entry has no block behind it, and is reported. -/
theorem entryBlock_of_not_within (fragment : Fragment Inst Cond) {entry : Label}
    (outside : ¬ entry.Within fragment.inputs) :
    fragment.entryBlock entry = .error (.label (.outOfRange entry fragment.inputs)) := by
  rw [entryBlock, codeLabel, dif_neg outside]
  rfl

/-- An entry that passes its check has a block, and so the second question after it is never
answered with an error. -/
theorem entryBlock_raw (fragment : Fragment Inst Cond) (entry : Label) :
    fragment.raw.entryBlock entry = ordinary (fragment.entryBlock entry) := by
  by_cases inside : entry.Within fragment.inputs
  · have placed := fragment.shift_within_entries inside
    have found : fragment.raw.code.blocks[(entry.shift fragment.internal.count).index]? =
        some (fragment.code.block _ placed) := fragment.code.get?_eq_some_block placed
    rw [Raw.entryBlock, codeLabel_raw_of_within fragment inside, ordinary_ok_bind, found,
      entryBlock_of_within fragment inside]
    rfl
  · rw [Raw.entryBlock, codeLabel_raw_of_not_within fragment inside,
      entryBlock_of_not_within fragment inside]
    rfl

/-- From a label of the code on, a run finds a block wherever it goes: it only goes on at hidden
labels, and these have blocks. -/
theorem runFrom_raw (fragment : Fragment Inst Cond) (machine : Machine Inst Cond State Fault)
    (fuel : Nat) (label : fragment.CodeLabel) (visited : Array Label) (state : State) :
    fragment.raw.runFrom machine fuel label.val visited state =
      .ok (fragment.runFrom machine fuel label visited state) := by
  induction fuel generalizing label visited state with
  | zero => rfl
  | succ fuel inductionHypothesis =>
    have found : fragment.raw.code.fetch label.val = .ok (fragment.blockAt label) :=
      fragment.code.fetch_raw label.property
    rw [Raw.runFrom, runFrom, found]
    simp only [bind, Except.bind]
    cases ((fragment.blockAt label).exec machine).run state with
    | error fault after => rfl
    | ok answer after =>
      cases answer with
      | none => rfl
      | some target =>
        by_cases hidden : target.Within fragment.internal
        · have follows := inductionHypothesis
            ⟨target, fragment.within_entries_of_hidden hidden⟩ (visited.push label.val) after
          simp only [dif_pos hidden]
          exact (if_pos hidden).trans follows
        · simp only [dif_neg hidden]
          exact if_neg hidden

/-- A run never misses a block. -/
theorem run_raw (fragment : Fragment Inst Cond) (machine : Machine Inst Cond State Fault)
    (entry : Label) (fuel : Nat) (state : State) :
    fragment.raw.run machine entry fuel state = .ok (fragment.run machine entry fuel state) := by
  by_cases inside : entry.Within fragment.inputs
  · rw [Raw.run, codeLabel_raw_of_within fragment inside, run, codeLabel, dif_pos inside]
    exact runFrom_raw fragment machine fuel ⟨_, fragment.shift_within_entries inside⟩ #[] state
  · rw [Raw.run, codeLabel_raw_of_not_within fragment inside, run, codeLabel, dif_neg inside]
    rfl

end Fragment

end Flowgraph
