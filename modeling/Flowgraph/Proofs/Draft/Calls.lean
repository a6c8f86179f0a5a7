import Flowgraph.Draft.Basic
import Flowgraph.Proofs.Except
import Mathlib.Data.List.Nodup

/-!
# The calls that make a draft

A draft is made by calls, one after the other, from the draft in which nothing is declared.
`Draft.Arises` says so of a draft; not every draft arises in this way. A call that declares a name looks
for it among the names of all kinds, and a call that attaches a block keeps the names. So whatever
holds of the empty draft and stays with every call holds of the drafts that arise, and the first such
thing is that their names are distinct.
-/

namespace Flowgraph.Draft

variable {Inst Cond : Type}

/-- The calls that continue a draft. -/
inductive Call (Inst Cond : Type) where
  /-- Declare a hidden label. -/
  | declareHidden (name : String)
  /-- Declare an entry. -/
  | declareEntry (name : String)
  /-- Declare an exit. -/
  | declareExit (name : String)
  /-- Give a hidden label or an entry its block. -/
  | attach (name : String) (block : Block Inst Cond String)
  deriving DecidableEq

/-- Continue a draft by a call. -/
def perform (draft : Draft Inst Cond) : Call Inst Cond → Except DraftError (Draft Inst Cond)
  | .declareHidden name => draft.declareHidden name
  | .declareEntry name => draft.declareEntry name
  | .declareExit name => draft.declareExit name
  | .attach name block => draft.attach name block

/-- The drafts that calls make out of the empty one. -/
inductive Arises : Draft Inst Cond → Prop where
  | empty : Arises empty
  | perform {draft later : Draft Inst Cond} (earlier : Arises draft) (call : Call Inst Cond)
      (performed : draft.perform call = .ok later) : Arises later

/-- All names that are declared: hidden labels, then entries, then exits. -/
def names (draft : Draft Inst Cond) : List String :=
  draft.hiddenNames ++ (draft.entryNames ++ draft.exits)

/-- No name is declared twice, whatever the kinds. -/
def Distinct (draft : Draft Inst Cond) : Prop := draft.names.Nodup

variable {draft later : Draft Inst Cond} {name : String} {block : Block Inst Cond String}

theorem mem_names_iff : name ∈ draft.names ↔ draft.Declares name := by
  simp [names, Declares]

section Declarations

/-- A name that is not declared can be declared as a hidden label, behind the others. -/
theorem declareHidden_eq_ok_iff :
    draft.declareHidden name = .ok later ↔
      ¬ draft.Declares name ∧ later = { draft with hidden := draft.hidden ++ [⟨name, none⟩] } := by
  unfold declareHidden
  split <;> simp_all [eq_comm]

/-- Or as an entry. -/
theorem declareEntry_eq_ok_iff :
    draft.declareEntry name = .ok later ↔
      ¬ draft.Declares name ∧ later = { draft with entries := draft.entries ++ [⟨name, none⟩] } := by
  unfold declareEntry
  split <;> simp_all [eq_comm]

/-- Or as an exit. -/
theorem declareExit_eq_ok_iff :
    draft.declareExit name = .ok later ↔
      ¬ draft.Declares name ∧ later = { draft with exits := draft.exits ++ [name] } := by
  unfold declareExit
  split <;> simp_all [eq_comm]

end Declarations

section Attachments

/-- A declaration that is given a block keeps its name. -/
theorem name_attach {declaration attached : Declaration Inst Cond}
    (made : declaration.attach block = .ok attached) : attached.name = declaration.name := by
  unfold Declaration.attach at made
  split at made
  · cases made
  · cases made
    rfl

/-- Where a block is given to one of the declarations in a list, all of them keep their names. -/
theorem map_name_attachIn {declarations attached : List (Declaration Inst Cond)}
    (made : attachIn name block declarations = .ok attached) :
    attached.map Declaration.name = declarations.map Declaration.name := by
  induction declarations generalizing attached with
  | nil => cases made
  | cons declaration rest inductionHypothesis =>
    rw [attachIn] at made
    split at made <;> simp only [bind_eq_ok_iff, pure_eq_ok_iff] at made
    · obtain ⟨first, firstMade, rfl⟩ := made
      rw [List.map_cons, List.map_cons, name_attach firstMade]
    · obtain ⟨others, othersMade, rfl⟩ := made
      rw [List.map_cons, List.map_cons, inductionHypothesis othersMade]

/-- Giving a block to a name leaves the names as they are. -/
theorem names_attach (made : draft.attach name block = .ok later) : later.names = draft.names := by
  unfold attach at made
  split at made <;> simp only [bind_eq_ok_iff, pure_eq_ok_iff] at made
  · obtain ⟨hidden, hiddenMade, rfl⟩ := made
    simp only [names, hiddenNames, entryNames, map_name_attachIn hiddenMade]
  · obtain ⟨entries, entriesMade, rfl⟩ := made
    simp only [names, hiddenNames, entryNames, map_name_attachIn entriesMade]

end Attachments

/-- A call leaves the names as they are, or puts one between them that was not declared. -/
theorem names_perform {call : Call Inst Cond} (performed : draft.perform call = .ok later) :
    later.names = draft.names ∨
      ∃ name before behind, ¬ draft.Declares name ∧ draft.names = before ++ behind ∧
        later.names = before ++ name :: behind := by
  cases call with
  | declareHidden name =>
    obtain ⟨fresh, rfl⟩ := declareHidden_eq_ok_iff.mp performed
    refine .inr ⟨name, draft.hiddenNames, draft.entryNames ++ draft.exits, fresh, rfl, ?_⟩
    simp [names, hiddenNames, entryNames]
  | declareEntry name =>
    obtain ⟨fresh, rfl⟩ := declareEntry_eq_ok_iff.mp performed
    refine .inr ⟨name, draft.hiddenNames ++ draft.entryNames, draft.exits, fresh, ?_, ?_⟩
    · simp [names]
    · simp [names, hiddenNames, entryNames]
  | declareExit name =>
    obtain ⟨fresh, rfl⟩ := declareExit_eq_ok_iff.mp performed
    refine .inr ⟨name, draft.names, [], fresh, ?_, ?_⟩
    · simp
    · simp [names, hiddenNames, entryNames]
  | attach name block => exact .inl (names_attach performed)

/-- So a call keeps distinct names distinct. -/
theorem Distinct.perform {call : Call Inst Cond} (distinct : draft.Distinct)
    (performed : draft.perform call = .ok later) : later.Distinct := by
  obtain same | ⟨name, before, behind, fresh, earlier, names⟩ := names_perform performed
  · rw [Distinct, same]
    exact distinct
  · rw [← mem_names_iff, earlier] at fresh
    rw [Distinct, names, List.nodup_middle, List.nodup_cons]
    exact ⟨fresh, earlier ▸ distinct⟩

/-- The names of a draft that arises are distinct. -/
theorem Arises.distinct (arises : draft.Arises) : draft.Distinct := by
  induction arises with
  | empty => exact List.nodup_nil
  | perform _ _ performed inductionHypothesis => exact inductionHypothesis.perform performed

end Flowgraph.Draft
