import Flowgraph.Proofs.Draft.Order

/-!
# Calls that are mixed differently

The calls that make a draft are of several kinds, and only the order within a kind is kept: a draft has a
list of names for each of the three, and a block for a name is held next to the name, wherever in the
list that is. As no name is declared twice, nothing else is in a draft, and two drafts with the same names
of each kind and the same blocks are equal (`Distinct.ext`). What a draft has of these is known from its
calls, one kind at a time (`Draft.Records`), and so mixing the kinds in another way makes no difference.
-/

namespace Flowgraph.Draft

variable {Inst Cond : Type} {draft other later : Draft Inst Cond} {calls others : List (Call Inst Cond)}

section Distinct

/-- In a draft with distinct names, declarations are names with the blocks that these have. -/
theorem Distinct.declarations_eq (distinct : draft.Distinct)
    {declarations : List (Declaration Inst Cond)}
    (part : declarations ⊆ draft.hidden ++ draft.entries) :
    declarations =
      (declarations.map Declaration.name).map fun name => ⟨name, draft.block? name⟩ := by
  have same (declaration : Declaration Inst Cond) (member : declaration ∈ declarations) :
      ⟨declaration.name, draft.block? declaration.name⟩ = id declaration := by
    rw [distinct.block?_eq (part member)]
    rfl
  rw [List.map_map]
  exact ((List.map_congr_left same).trans (List.map_id declarations)).symm

/-- Drafts with distinct names are equal when they have the same names of each kind, in the same order,
and the same block for each name. -/
theorem Distinct.ext (distinct : draft.Distinct) (otherDistinct : other.Distinct)
    (hidden : draft.hiddenNames = other.hiddenNames) (entries : draft.entryNames = other.entryNames)
    (exits : draft.exits = other.exits) (blocks : ∀ name, draft.block? name = other.block? name) :
    draft = other := by
  have hiddenEq : draft.hidden = other.hidden := by
    rw [distinct.declarations_eq (List.subset_append_left _ _),
      otherDistinct.declarations_eq (List.subset_append_left _ _), ← hiddenNames, ← hiddenNames,
      hidden, funext blocks]
  have entriesEq : draft.entries = other.entries := by
    rw [distinct.declarations_eq (List.subset_append_right _ _),
      otherDistinct.declarations_eq (List.subset_append_right _ _), ← entryNames, ← entryNames,
      entries, funext blocks]
  cases draft
  cases other
  cases hiddenEq
  cases entriesEq
  cases exits
  rfl

/-- Calls that are performed one after the other keep names distinct. -/
theorem Distinct.performAll (distinct : draft.Distinct) (performed : draft.performAll calls = .ok later) :
    later.Distinct := by
  induction calls generalizing draft with
  | nil =>
    cases performed
    exact distinct
  | cons call rest inductionHypothesis =>
    obtain ⟨next, first, others⟩ := performAll_cons_eq_ok_iff.mp performed
    exact inductionHypothesis (distinct.perform first) others

end Distinct

/-- Drafts whose calls agree in each kind, and on the blocks, are equal. -/
theorem Records.eq_of_same (records : draft.Records calls) (otherRecords : other.Records others)
    (distinct : draft.Distinct) (otherDistinct : other.Distinct)
    (hidden : calls.filterMap Call.hidden? = others.filterMap Call.hidden?)
    (entries : calls.filterMap Call.entry? = others.filterMap Call.entry?)
    (exits : calls.filterMap Call.exit? = others.filterMap Call.exit?)
    (blocks : ∀ name block, Call.attach name block ∈ calls ↔ Call.attach name block ∈ others) :
    draft = other := by
  apply distinct.ext otherDistinct
  · rw [records.hidden, otherRecords.hidden, hidden]
  · rw [records.entries, otherRecords.entries, entries]
  · rw [records.exits, otherRecords.exits, exits]
  · intro name
    refine Option.ext fun block => ?_
    rw [records.block?_eq_some_iff, otherRecords.block?_eq_some_iff, blocks]

/-- Only the order within a kind matters. Two lists of calls that can both be performed, declare the same
hidden labels, the same entries and the same exits, each kind in the same order, and give the same blocks
to the same names may mix all of that as they like: finishing the draft gives the same fragment after the
one as after the other, or is refused for the same reason. -/
theorem assemble_interleaved (performed : (empty : Draft Inst Cond).performAll calls = .ok draft)
    (otherPerformed : (empty : Draft Inst Cond).performAll others = .ok other)
    (hidden : calls.filterMap Call.hidden? = others.filterMap Call.hidden?)
    (entries : calls.filterMap Call.entry? = others.filterMap Call.entry?)
    (exits : calls.filterMap Call.exit? = others.filterMap Call.exit?)
    (blocks : ∀ name block, Call.attach name block ∈ calls ↔ Call.attach name block ∈ others) :
    draft.assemble = other.assemble := by
  have distinct := (Arises.empty : (empty : Draft Inst Cond).Arises).distinct
  have same : draft = other :=
    (records_empty.performAll performed).eq_of_same (records_empty.performAll otherPerformed)
      (distinct.performAll performed) (distinct.performAll otherPerformed) hidden entries exits blocks
  rw [same]

/-- A loop in the order in which control comes by. -/
def loopForward : List (Call Unit Unit) :=
  [.declareEntry "start", .declareHidden "loop", .attach "start" (.jump "loop"),
    .declareHidden "rest", .attach "loop" ⟨[], .conditional () "rest" "done"⟩,
    .attach "rest" (.jump "loop"), .declareExit "done"]

/-- The same loop, where the exit is declared first and the blocks are given from the last to the first. -/
def loopBackward : List (Call Unit Unit) :=
  [.declareExit "done", .declareHidden "loop", .declareHidden "rest", .attach "rest" (.jump "loop"),
    .attach "loop" ⟨[], .conditional () "rest" "done"⟩, .declareEntry "start",
    .attach "start" (.jump "loop")]

/-- Both make the same fragment. -/
theorem assemble_loop_interleaved :
    ∃ draft other, (empty : Draft Unit Unit).performAll loopForward = .ok draft ∧
      (empty : Draft Unit Unit).performAll loopBackward = .ok other ∧
      draft.assemble = other.assemble ∧ ∃ fragment, other.assemble = .ok fragment := by
  have forward : (empty : Draft Unit Unit).performAll loopForward = .ok _ := rfl
  have backward : (empty : Draft Unit Unit).performAll loopBackward = .ok _ := rfl
  have permuted : loopForward.Perm loopBackward := by decide
  exact ⟨_, _, forward, backward, assemble_interleaved forward backward (by decide) (by decide)
    (by decide) fun _ _ => permuted.mem_iff, _, rfl⟩

end Flowgraph.Draft
