import Flowgraph.Proofs.Draft.Session

/-!
# In which order calls can be performed

Whether a draft can be continued by a call depends on the calls before it, and on nothing else that is
to be known of the draft. `Call.Follows` says on what: a name can be declared when no call before has
declared it, and be given a block when a call before has declared it as a hidden label or an entry and
none has given it a block. The calls of a list can then be performed one after the other exactly when
each of them follows those before it, which is `Call.Consecutive`.
-/

namespace Flowgraph.Draft

variable {Inst Cond : Type} {draft later : Draft Inst Cond} {earlier calls more : List (Call Inst Cond)}

namespace Call

/-- The name that a call gives a block to. -/
def attached? : Call Inst Cond → Option String
  | attach name _ => some name
  | _ => none

/-- Whether a call can be performed after others. -/
def Follows (earlier : List (Call Inst Cond)) : Call Inst Cond → Prop
  | attach name _ =>
    (name ∈ earlier.filterMap hidden? ∨ name ∈ earlier.filterMap entry?) ∧
      earlier.filterMap (blockFor? name) = []
  | declareHidden name => name ∉ earlier.filterMap declared?
  | declareEntry name => name ∉ earlier.filterMap declared?
  | declareExit name => name ∉ earlier.filterMap declared?

/-- Whether calls can be performed one after the other, after those before them. -/
def Consecutive : (earlier calls : List (Call Inst Cond)) → Prop
  | _, [] => True
  | earlier, call :: rest => call.Follows earlier ∧ Consecutive (earlier ++ [call]) rest

/-- The declared names are those of the three kinds. -/
theorem filterMap_declared?_perm :
    (calls.filterMap declared?).Perm
      (calls.filterMap hidden? ++ (calls.filterMap entry? ++ calls.filterMap exit?)) := by
  induction calls with
  | nil => exact .nil
  | cons call rest inductionHypothesis =>
    simp only [List.filterMap_cons]
    cases call with
    | declareHidden name => exact inductionHypothesis.cons name
    | declareEntry name =>
      exact (inductionHypothesis.cons name).trans List.perm_middle.symm
    | declareExit name =>
      apply (inductionHypothesis.cons name).trans
      rw [← List.append_assoc, ← List.append_assoc]
      exact List.perm_middle.symm
    | attach name block => exact inductionHypothesis

/-- The calls that give a block to a name. -/
theorem mem_filterMap_blockFor?_iff {name : String} {block : Block Inst Cond String} :
    block ∈ calls.filterMap (blockFor? name) ↔ attach name block ∈ calls := by
  rw [List.mem_filterMap]
  constructor
  · rintro ⟨call, member, given⟩
    cases call with
    | attach target held =>
      by_cases same : target = name
      · subst same
        obtain rfl : held = block := by simpa [blockFor?] using given
        exact member
      · simp [blockFor?, same] at given
    | _ => cases given
  · intro member
    exact ⟨_, member, if_pos rfl⟩

theorem consecutive_append :
    Consecutive earlier (calls ++ more) ↔
      Consecutive earlier calls ∧ Consecutive (earlier ++ calls) more := by
  induction calls generalizing earlier with
  | nil => simp [Consecutive]
  | cons call rest inductionHypothesis =>
    rw [List.cons_append, Consecutive, Consecutive, inductionHypothesis, and_assoc,
      List.append_assoc, List.singleton_append]

/-- Calls that only declare names can be performed when no name is declared twice. -/
theorem consecutive_of_declaring (declaring : ∀ call ∈ calls, call.declared?.isSome)
    (distinct : ((earlier ++ calls).filterMap declared?).Nodup) : Consecutive earlier calls := by
  induction calls generalizing earlier with
  | nil => trivial
  | cons call rest inductionHypothesis =>
    rw [List.append_cons] at distinct
    refine ⟨?_, inductionHypothesis (fun call member => declaring call (.tail _ member)) distinct⟩
    rw [List.filterMap_append, List.filterMap_append] at distinct
    have fresh := (List.nodup_append.mp (List.nodup_append.mp distinct).1).2.2
    have declares := declaring call (.head _)
    cases call with
    | attach name block => cases declares
    | declareHidden name => exact fun member => fresh name member name (.head _) rfl
    | declareEntry name => exact fun member => fresh name member name (.head _) rfl
    | declareExit name => exact fun member => fresh name member name (.head _) rfl

/-- Calls that only give blocks to names can be performed, in any order, when these are hidden labels
and entries and none of them has a block yet or gets two. -/
theorem consecutive_of_attaching
    (attaching : ∀ call ∈ calls, ∃ name block, call = attach name block ∧
      (name ∈ earlier.filterMap hidden? ∨ name ∈ earlier.filterMap entry?))
    (distinct : ((earlier ++ calls).filterMap attached?).Nodup) : Consecutive earlier calls := by
  induction calls generalizing earlier with
  | nil => trivial
  | cons call rest inductionHypothesis =>
    obtain ⟨name, block, rfl, declared⟩ := attaching call (.head _)
    rw [List.append_cons] at distinct
    refine ⟨⟨declared, ?_⟩, inductionHypothesis ?_ distinct⟩
    · rw [List.filterMap_append, List.filterMap_append] at distinct
      have vacant := (List.nodup_append.mp (List.nodup_append.mp distinct).1).2.2
      rw [List.eq_nil_iff_forall_not_mem]
      intro held member
      have given := mem_filterMap_blockFor?_iff.mp member
      exact vacant name (List.mem_filterMap.mpr ⟨_, given, rfl⟩) name (.head _) rfl
    · intro call member
      obtain ⟨name, block, rfl, declared⟩ := attaching call (.tail _ member)
      refine ⟨name, block, rfl, ?_⟩
      rw [List.filterMap_append, List.filterMap_append, List.mem_append, List.mem_append]
      exact declared.imp .inl .inl

end Call

section Records

variable (records : draft.Records earlier)

include records

/-- A draft declares the names that calls have declared. -/
theorem Records.declares_iff {name : String} :
    draft.Declares name ↔ name ∈ earlier.filterMap Call.declared? := by
  rw [Call.filterMap_declared?_perm.mem_iff, List.mem_append, List.mem_append, Declares,
    records.hidden, records.entries, records.exits]

/-- The block of a name is the one that a call has given to it. -/
theorem Records.block?_eq_some_iff {name : String} {block : Block Inst Cond String} :
    draft.block? name = some block ↔ Call.attach name block ∈ earlier := by
  rw [← Call.mem_filterMap_blockFor?_iff, ← records.blocks, Option.mem_toList]

/-- Whether a call can be performed is decided by the calls before. -/
theorem Records.exists_perform_iff (call : Call Inst Cond) :
    (∃ later, draft.perform call = .ok later) ↔ call.Follows earlier := by
  have answered : (∃ later, draft.perform call = .ok later) ↔
      ¬ ∃ error, draft.perform call = .error error := by
    cases draft.perform call <;> simp
  have declaring (name : String) (declares : call.declared? = some name) :
      (∃ error, draft.perform call = .error error) ↔ name ∈ earlier.filterMap Call.declared? := by
    rw [← records.declares_iff]
    simp only [perform_declaring_eq_error_iff declares, exists_and_left, exists_eq, and_true]
  rw [answered]
  cases call with
  | declareHidden name => exact not_congr (declaring name rfl)
  | declareEntry name => exact not_congr (declaring name rfl)
  | declareExit name => exact not_congr (declaring name rfl)
  | attach name block =>
    have vacant : draft.block? name = none ↔ earlier.filterMap (Call.blockFor? name) = [] := by
      rw [← records.blocks, Option.toList_eq_nil_iff]
    simp only [Draft.perform, attach_eq_error_iff, exists_or, exists_and_left, exists_eq, and_true]
    rw [Call.Follows, ← vacant, ← records.hidden, ← records.entries, not_or, not_and_or,
      Classical.not_not, Classical.not_not, Option.not_isSome_iff_eq_none]

end Records

/-- Continue a draft by one call after the other, as long as none fails. -/
def performAll (draft : Draft Inst Cond) (calls : List (Call Inst Cond)) :
    Except DraftError (Draft Inst Cond) :=
  calls.foldlM perform draft

theorem performAll_cons_eq_ok_iff {call : Call Inst Cond} :
    draft.performAll (call :: calls) = .ok later ↔
      ∃ next, draft.perform call = .ok next ∧ next.performAll calls = .ok later := by
  rw [performAll, List.foldlM_cons, bind_eq_ok_iff]
  rfl

/-- Calls that are performed one after the other are recorded behind those before. -/
theorem Records.performAll (records : draft.Records earlier)
    (performed : draft.performAll calls = .ok later) : later.Records (earlier ++ calls) := by
  induction calls generalizing draft earlier with
  | nil =>
    cases performed
    rwa [List.append_nil]
  | cons call rest inductionHypothesis =>
    obtain ⟨next, first, others⟩ := performAll_cons_eq_ok_iff.mp performed
    rw [List.append_cons]
    exact inductionHypothesis (records.perform first) others

/-- All of them can be performed exactly when each follows those before it. -/
theorem Records.exists_performAll_iff (records : draft.Records earlier) :
    (∃ later, draft.performAll calls = .ok later) ↔ Call.Consecutive earlier calls := by
  induction calls generalizing draft earlier with
  | nil => exact ⟨fun _ => trivial, fun _ => ⟨draft, rfl⟩⟩
  | cons call rest inductionHypothesis =>
    simp only [performAll_cons_eq_ok_iff]
    rw [Call.Consecutive, ← records.exists_perform_iff]
    constructor
    · rintro ⟨later, next, first, others⟩
      exact ⟨⟨next, first⟩, (inductionHypothesis (records.perform first)).mp ⟨later, others⟩⟩
    · rintro ⟨⟨next, first⟩, others⟩
      obtain ⟨later, performed⟩ := (inductionHypothesis (records.perform first)).mpr others
      exact ⟨later, next, first, performed⟩

end Flowgraph.Draft
