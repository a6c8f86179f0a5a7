import Flowgraph.Proofs.Draft.Session

/-!
# Which fault is reported

A draft can be finished when it is complete. When it is not, `Draft.fault?` says what is wrong with each
hidden label and each entry, and the first of them with a fault decides the report; what is wrong behind
it is not looked at any more.

Nothing else is ever reported. Once all names have been resolved, the code passes every check that comes
after: a name that a branch may go to is one of the hidden labels or one of the exits, and these are
numbered one after the other, so its number lies in the exit space.
-/

namespace Flowgraph.Draft

variable {Inst Cond : Type}

instance (draft : Draft Inst Cond) (name : String) : Decidable (draft.Targets name) :=
  inferInstanceAs (Decidable (_ ∨ _))

/-- A draft is complete when every hidden label and every entry has a block, and the blocks branch to
hidden labels and exits only. -/
def Complete (draft : Draft Inst Cond) : Prop :=
  ∀ declaration ∈ draft.hidden ++ draft.entries, ∃ block, declaration.block? = some block ∧
    ∀ name ∈ block.successors, draft.Targets name

/-- What is wrong with a hidden label or an entry, if anything is: it has no block, or a branch of its
block goes to something else than a hidden label or an exit. Of several such branches, it is the first. -/
def fault? (draft : Draft Inst Cond) (declaration : Declaration Inst Cond) : Option DraftError :=
  match declaration.block? with
  | none => some (.missingBlock declaration.name)
  | some block => (block.successors.find? fun name => ¬ draft.Targets name).map .unknownLabel

variable {draft : Draft Inst Cond} {declaration : Declaration Inst Cond} {error : DraftError}

/-- A declaration without a fault has a block, which branches to targets only. -/
theorem fault?_eq_none_iff :
    draft.fault? declaration = none ↔ ∃ block, declaration.block? = some block ∧
      ∀ name ∈ block.successors, draft.Targets name := by
  unfold fault?
  split
  · rename_i missing
    simp [missing]
  · rename_i block found
    simp [found, List.find?_eq_none]

/-- A draft is complete when no fault is found in it. -/
theorem complete_iff :
    draft.Complete ↔ (draft.hidden ++ draft.entries).findSome? draft.fault? = none := by
  simp only [List.findSome?_eq_none_iff, fault?_eq_none_iff, Complete]

/-- The names of a block are resolved up to the first one that is no target. -/
theorem successors_mapM_resolve_eq_error_iff {block : Block Inst Cond String} :
    block.successors.mapM draft.resolve = .error error ↔
      (block.successors.find? fun name => ¬ draft.Targets name).map .unknownLabel = some error := by
  have faults (name : String) (error : DraftError) : draft.resolve name = .error error ↔
      (Option.guard (fun name => decide (¬ draft.Targets name)) name).map .unknownLabel =
        some error := by
    rw [resolve_eq_error_iff]
    by_cases known : draft.Targets name <;> simp [Option.guard, known, eq_comm]
  rw [mapM_list_eq_error_iff faults, ← List.findSome?_guard, List.map_findSome?]
  rfl

/-- A block cannot be used exactly when its declaration has a fault, which is what is reported. -/
theorem resolveBlock_eq_error_iff (draft : Draft Inst Cond)
    (declaration : Declaration Inst Cond) (error : DraftError) :
    draft.resolveBlock declaration = .error error ↔ draft.fault? declaration = some error := by
  unfold resolveBlock fault?
  split
  · rename_i block found
    simp only [found]
    rw [Block.mapLabelsM_eq_error_iff, successors_mapM_resolve_eq_error_iff]
  · rename_i missing
    simp [missing]

/-- The number of a target lies in the exit space. -/
theorem target_index_lt {name : String} (known : draft.Targets name) :
    (draft.target name).index < draft.hidden.length + draft.exits.length := by
  have member : name ∈ draft.hiddenNames ++ draft.exits := List.mem_append.mpr known
  have bound := List.idxOf_lt_length_iff.mpr member
  rw [target, numberAmong_eq_idxOf]
  rwa [List.length_append, length_hiddenNames] at bound

section Resolved

variable {blocks : List (Block Inst Cond Label)}
  (resolved : (draft.hidden ++ draft.entries).mapM draft.resolveBlock = .ok blocks)

include resolved

/-- So no block that has been resolved branches out of it. -/
theorem target_index_lt_of_resolved {block : Block Inst Cond Label} (member : block ∈ blocks)
    {label : Label} (labelMember : label ∈ block.successors) :
    label.index < draft.hidden.length + draft.exits.length := by
  have pairs := mapM_list_eq_ok_iff.mp resolved
  obtain ⟨index, inside, rfl⟩ := List.getElem_of_mem member
  obtain ⟨source, -, known, same⟩ :=
    resolveBlock_eq_ok_iff.mp (pairs.get (pairs.length_eq ▸ inside) inside)
  rw [List.get_eq_getElem] at same
  rw [← same, Block.successors_mapLabels] at labelMember
  obtain ⟨name, nameMember, rfl⟩ := List.mem_map.mp labelMember
  exact target_index_lt (known name nameMember)

/-- Where all blocks can be used and both sides of the code have a size, nothing else stands in the way
of a draft. -/
theorem exists_assemble_of_resolved
    (entriesFit : draft.hidden.length + draft.entries.length < Size.limit)
    (exitsFit : draft.hidden.length + draft.exits.length < Size.limit) :
    ∃ fragment, draft.assemble = .ok fragment := by
  have pairs := mapM_list_eq_ok_iff.mp resolved
  have count : blocks.length = draft.hidden.length + draft.entries.length := by
    rw [← pairs.length_eq, List.length_append]
  let code : BlockMap Inst Cond := {
    exits := ⟨draft.hidden.length + draft.exits.length, exitsFit⟩
    blocks := blocks.toArray
    entries_fit := by simpa [count] using entriesFit
    targets_within := fun block member label labelMember =>
      target_index_lt_of_resolved resolved (List.mem_toArray.mp member) labelMember }
  let fragment : Fragment Inst Cond := {
    internal := ⟨draft.hidden.length, by omega⟩
    inputs := ⟨draft.entries.length, by omega⟩
    outputs := ⟨draft.exits.length, by omega⟩
    code := code
    entries_eq := count
    exits_eq := rfl }
  exact ⟨fragment, assemble_eq_ok_iff.mpr ⟨pairs, rfl, rfl, rfl⟩⟩

end Resolved

section Fitting

variable (entriesFit : draft.hidden.length + draft.entries.length < Size.limit)
  (exitsFit : draft.hidden.length + draft.exits.length < Size.limit)

include entriesFit exitsFit

/-- A draft that cannot be finished is refused for the first fault that is found in it. -/
theorem assemble_eq_error_iff :
    draft.assemble = .error error ↔
      (draft.hidden ++ draft.entries).findSome? draft.fault? = some error := by
  rw [← mapM_list_eq_error_iff draft.resolveBlock_eq_error_iff]
  cases resolved : (draft.hidden ++ draft.entries).mapM draft.resolveBlock with
  | error reported =>
    have refused : draft.assemble = .error reported := by
      rw [assemble, resolved]
      rfl
    rw [refused, Except.error.injEq, Except.error.injEq]
  | ok blocks =>
    obtain ⟨fragment, made⟩ := exists_assemble_of_resolved resolved entriesFit exitsFit
    simp [made]

/-- A draft can be finished exactly when it is complete. -/
theorem exists_assemble_iff : (∃ fragment, draft.assemble = .ok fragment) ↔ draft.Complete := by
  rw [complete_iff, Option.eq_none_iff_forall_ne_some]
  constructor
  · rintro ⟨fragment, made⟩ error found
    rw [(assemble_eq_error_iff entriesFit exitsFit).mpr found] at made
    cases made
  · intro faultless
    refine exists_ok_of_ne_error fun error failed => ?_
    exact faultless error ((assemble_eq_error_iff entriesFit exitsFit).mp failed)

end Fitting

/-- A fault is a block that is missing or a name that is unknown. -/
theorem fault?_cases (found : draft.fault? declaration = some error) :
    ∃ name, error = .missingBlock name ∨ error = .unknownLabel name := by
  unfold fault? at found
  split at found
  · cases found
    exact ⟨_, .inl rfl⟩
  · obtain ⟨name, -, rfl⟩ := Option.map_eq_some_iff.mp found
    exact ⟨name, .inr rfl⟩

/-- An entry is no target. -/
theorem Distinct.not_targets_of_entry (distinct : draft.Distinct) {name : String}
    (entry : name ∈ draft.entryNames) : ¬ draft.Targets name := by
  rw [Distinct, names, List.nodup_append'] at distinct
  obtain ⟨-, later, apart⟩ := distinct
  rintro (hidden | exit)
  · exact apart hidden (List.mem_append_left _ entry)
  · exact (List.nodup_append'.mp later).2.2 entry exit

/-- Whatever session a draft comes out of, it can be finished exactly when it is complete: every hidden
label and every entry has a block, and all branches go to hidden labels and exits, never to an entry. When
it cannot, the report is about the first declaration with a fault, hidden labels before entries and each
kind in the order of declaration: its block is missing, or else the first target of the block that is
neither a hidden label nor an exit is unknown. The finished code is never refused as a block map or as a
fragment. -/
theorem assemble_reports_first_fault {requests : List (Request Inst Cond)}
    {log : List (Exchange Inst Cond)}
    (came : (empty : Draft Inst Cond).converse requests = (log, draft))
    (entriesFit : draft.hidden.length + draft.entries.length < Size.limit)
    (exitsFit : draft.hidden.length + draft.exits.length < Size.limit) :
    ((∃ fragment, draft.assemble = .ok fragment) ↔ draft.Complete) ∧
    (∀ name ∈ draft.entryNames, ¬ draft.Targets name) ∧
    (∀ error, draft.assemble = .error error ↔
      (draft.hidden ++ draft.entries).findSome? draft.fault? = some error) ∧
    (∀ error, draft.assemble ≠ .error (.blockMap error)) ∧
    ∀ error, draft.assemble ≠ .error (.fragment error) := by
  have distinct : draft.Distinct := by
    have kept := (Arises.empty : (empty : Draft Inst Cond).Arises).distinct.converse requests
    rwa [came] at kept
  have reported {error : DraftError} (failed : draft.assemble = .error error) :
      ∃ name, error = .missingBlock name ∨ error = .unknownLabel name := by
    obtain ⟨declaration, -, found⟩ := List.exists_of_findSome?_eq_some
      ((assemble_eq_error_iff entriesFit exitsFit).mp failed)
    exact fault?_cases found
  refine ⟨exists_assemble_iff entriesFit exitsFit, fun name => distinct.not_targets_of_entry,
    fun error => assemble_eq_error_iff entriesFit exitsFit, ?_, ?_⟩
  · intro error failed
    obtain ⟨name, impossible | impossible⟩ := reported failed <;> cases impossible
  · intro error failed
    obtain ⟨name, impossible | impossible⟩ := reported failed <;> cases impossible

/-- A session that leaves three faults: the loop branches to the entry, which has a stray branch of its
own and was declared earlier, and the last hidden label has no block. -/
def threeFaults : List (Request Unit Unit) :=
  [.call (.declareEntry "start"), .call (.declareHidden "loop"), .call (.declareHidden "start"),
    .call (.declareHidden "idle"), .call (.declareExit "done"),
    .call (.attach "start" (.jump "nowhere")), .assemble,
    .call (.attach "loop" ⟨[], .conditional () "loop" "start"⟩)]

/-- The loop is the first hidden label, and so its fault is the one that is reported. -/
theorem assemble_three_faults :
    ∃ log draft, (empty : Draft Unit Unit).converse threeFaults = (log, draft) ∧
      draft.hidden.length + draft.entries.length < Size.limit ∧
      draft.hidden.length + draft.exits.length < Size.limit ∧
      draft.assemble = .error (.unknownLabel "start") ∧ ¬ draft.Complete := by
  have came : (empty : Draft Unit Unit).converse threeFaults = (_, _) := rfl
  obtain ⟨complete, -, reported, -⟩ := assemble_reports_first_fault came (by decide) (by decide)
  have failed := (reported (.unknownLabel "start")).mpr rfl
  refine ⟨_, _, came, by decide, by decide, failed, fun whole => ?_⟩
  obtain ⟨fragment, made⟩ := complete.mpr whole
  cases failed.symm.trans made

end Flowgraph.Draft
