import Flowgraph.Proofs.Draft.Assemble
import Flowgraph.Proofs.Draft.Calls

/-!
# What a draft remembers of its calls

A draft is a record of the calls that have made it: each kind of names in the order in which they were
declared, and for each name the block that it was given. `Draft.Records` says so, and nothing else has
to be known of the calls; in particular, it does not matter how those of different kinds are mixed.

Hidden labels and entries are held in lists with one slot for each name. The slots are what a call looks
at and what it changes, so this module begins with them.
-/

namespace Flowgraph.Draft

variable {Inst Cond : Type} {draft later : Draft Inst Cond} {name : String}
  {block : Block Inst Cond String} {declarations : List (Declaration Inst Cond)} {error : DraftError}

section Slots

/-- The slot of a name in a list of declarations, which holds its block or is empty. Other names have no
slot. -/
def slot? (name : String) (declarations : List (Declaration Inst Cond)) :
    Option (Option (Block Inst Cond String)) :=
  (declarations.find? (·.name == name)).map Declaration.block?

/-- Fill the slot of a name, whatever it holds. A name without a slot gets one behind all others. -/
def put (name : String) (slot : Option (Block Inst Cond String)) :
    List (Declaration Inst Cond) → List (Declaration Inst Cond)
  | [] => [⟨name, slot⟩]
  | declaration :: rest =>
    if declaration.name = name then ⟨name, slot⟩ :: rest else declaration :: put name slot rest

variable {slot : Option (Block Inst Cond String)}

theorem slot?_cons (declaration : Declaration Inst Cond) :
    slot? name (declaration :: declarations) =
      if declaration.name = name then some declaration.block? else slot? name declarations := by
  by_cases found : declaration.name = name <;> simp [slot?, found]

theorem slot?_append (front behind : List (Declaration Inst Cond)) :
    slot? name (front ++ behind) = (slot? name front).or (slot? name behind) := by
  rw [slot?, List.find?_append, Option.map_or]
  rfl

/-- The names without a slot are those that are not declared in the list. -/
theorem slot?_eq_none_iff :
    slot? name declarations = none ↔ name ∉ declarations.map Declaration.name := by
  rw [slot?, Option.map_eq_none_iff, List.find?_eq_none]
  simp

/-- A slot that is filled holds what it is filled with, and all others are as they were. -/
theorem slot?_put (other : String) :
    slot? other (put name slot declarations) =
      if name = other then some slot else slot? other declarations := by
  induction declarations with
  | nil => by_cases same : name = other <;> simp [put, slot?, same]
  | cons declaration rest inductionHypothesis =>
    rw [put]
    by_cases here : declaration.name = name
    · subst here
      rw [if_pos rfl, slot?_cons, slot?_cons]
      by_cases same : declaration.name = other <;> simp [same]
    · rw [if_neg here, slot?_cons, slot?_cons, inductionHypothesis]
      by_cases found : declaration.name = other
      · subst found
        simp [Ne.symm here]
      · simp [found]

/-- A new name goes behind all others. -/
theorem put_of_fresh (fresh : name ∉ declarations.map Declaration.name) :
    put name slot declarations = declarations ++ [⟨name, slot⟩] := by
  induction declarations with
  | nil => rfl
  | cons declaration rest inductionHypothesis =>
    rw [List.map_cons, List.mem_cons, not_or] at fresh
    rw [put, if_neg (Ne.symm fresh.1), inductionHypothesis fresh.2]
    rfl

/-- Giving a block to a name in a list of declarations fills its slot, if there is one and it is
empty. -/
theorem attachIn_eq (name : String) (block : Block Inst Cond String)
    (declarations : List (Declaration Inst Cond)) :
    attachIn name block declarations =
      match slot? name declarations with
      | none => .error (.unknownLabel name)
      | some (some _) => .error (.duplicateBlock name)
      | some none => .ok (put name (some block) declarations) := by
  induction declarations with
  | nil => rfl
  | cons declaration rest inductionHypothesis =>
    obtain ⟨declared, held⟩ := declaration
    rw [attachIn, slot?_cons, put]
    by_cases here : declared = name
    · subst here
      cases held <;> simp [Declaration.attach, bind, Except.bind, pure, Except.pure]
    · simp only [here, if_false, inductionHypothesis]
      cases slot? name rest with
      | none => rfl
      | some held => cases held <;> rfl

end Slots

section Attachments

/-- The block of a name is what its slot holds, among the hidden labels or else among the entries. -/
theorem block?_eq_slot? (draft : Draft Inst Cond) (name : String) :
    draft.block? name = ((slot? name draft.hidden).or (slot? name draft.entries)).join := by
  rw [← slot?_append]
  simp only [block?, slot?, Option.bind_eq_bind]
  cases (draft.hidden ++ draft.entries).find? (·.name == name) <;> rfl

/-- Giving a block to a name fills its slot, if there is one and it is empty. -/
theorem attach_eq (draft : Draft Inst Cond) (name : String) (block : Block Inst Cond String) :
    draft.attach name block =
      match slot? name draft.hidden with
      | some (some _) => .error (.duplicateBlock name)
      | some none => .ok { draft with hidden := put name (some block) draft.hidden }
      | none =>
        match slot? name draft.entries with
        | some (some _) => .error (.duplicateBlock name)
        | some none => .ok { draft with entries := put name (some block) draft.entries }
        | none => .error (.unknownLabel name) := by
  rw [attach, attachIn_eq, attachIn_eq]
  cases found : slot? name draft.hidden with
  | some held =>
    have hidden : name ∈ draft.hiddenNames := Classical.byContradiction fun visible =>
      Option.some_ne_none held (found.symm.trans (slot?_eq_none_iff.mpr visible))
    rw [if_pos hidden]
    cases held <;> rfl
  | none =>
    have visible : name ∉ draft.hiddenNames := slot?_eq_none_iff.mp found
    rw [if_neg visible]
    cases slot? name draft.entries with
    | some held => cases held <;> rfl
    | none => rfl

/-- So where a block is given to a name, an empty slot of the name is filled with it. -/
theorem attach_cases (made : draft.attach name block = .ok later) :
    (slot? name draft.hidden = some none ∧
        later = { draft with hidden := put name (some block) draft.hidden }) ∨
      (slot? name draft.hidden = none ∧ slot? name draft.entries = some none ∧
        later = { draft with entries := put name (some block) draft.entries }) := by
  rw [attach_eq] at made
  split at made
  · cases made
  · cases made
    exact .inl ⟨‹_›, rfl⟩
  · split at made
    · cases made
    · cases made
      exact .inr ⟨‹_›, ‹_›, rfl⟩
    · cases made

/-- A name that has a block cannot be given another, and a name that is neither a hidden label nor an
entry cannot be given one at all. -/
theorem attach_eq_error_iff :
    draft.attach name block = .error error ↔
      (name ∉ draft.hiddenNames ∧ name ∉ draft.entryNames ∧ error = .unknownLabel name) ∨
        ((draft.block? name).isSome ∧ error = .duplicateBlock name) := by
  rw [hiddenNames, entryNames, ← slot?_eq_none_iff, ← slot?_eq_none_iff, attach_eq, block?_eq_slot?]
  cases slot? name draft.hidden with
  | some held => cases held <;> simp [eq_comm]
  | none =>
    cases slot? name draft.entries with
    | some held => cases held <;> simp [eq_comm]
    | none => simp [eq_comm]

variable (made : draft.attach name block = .ok later)

include made

/-- Giving a block to a name leaves each kind of names as it is. -/
theorem kinds_attach :
    later.hiddenNames = draft.hiddenNames ∧ later.entryNames = draft.entryNames ∧
      later.exits = draft.exits := by
  unfold attach at made
  split at made <;> simp only [bind_eq_ok_iff, pure_eq_ok_iff] at made
  · obtain ⟨hidden, hiddenMade, rfl⟩ := made
    exact ⟨map_name_attachIn hiddenMade, rfl, rfl⟩
  · obtain ⟨entries, entriesMade, rfl⟩ := made
    exact ⟨rfl, map_name_attachIn entriesMade, rfl⟩

/-- The name had no block before, and no other name gets one. -/
theorem block?_attach (other : String) :
    draft.block? name = none ∧
      later.block? other = if name = other then some block else draft.block? other := by
  simp only [block?_eq_slot?]
  obtain ⟨empty, rfl⟩ | ⟨visible, empty, rfl⟩ := attach_cases made
  · refine ⟨by simp [empty], ?_⟩
    simp only [slot?_put]
    split <;> simp
  · refine ⟨by simp [visible, empty], ?_⟩
    simp only [slot?_put]
    split
    · rename_i same
      subst same
      simp [visible]
    · rfl

end Attachments

/-- Declaring a new name as a hidden label or an entry gives it an empty slot, and so no block. -/
theorem block?_of_fresh (fresh : ¬ draft.Declares name) (other : String) :
    ({ draft with hidden := draft.hidden ++ [⟨name, none⟩] } : Draft Inst Cond).block? other =
        draft.block? other ∧
      ({ draft with entries := draft.entries ++ [⟨name, none⟩] } : Draft Inst Cond).block? other =
        draft.block? other := by
  simp only [block?_eq_slot?, slot?_append]
  by_cases same : name = other
  · subst same
    have hidden : slot? name draft.hidden = none :=
      slot?_eq_none_iff.mpr fun member => fresh (.inl member)
    have entries : slot? name draft.entries = none :=
      slot?_eq_none_iff.mpr fun member => fresh (.inr (.inl member))
    simp [hidden, entries, slot?_cons]
  · have nothing : slot? other [(⟨name, none⟩ : Declaration Inst Cond)] = none := by
      rw [slot?_cons, if_neg same]
      rfl
    simp [nothing]

/-- In a draft with distinct names, each declaration holds the block of its name. -/
theorem Distinct.block?_eq (distinct : draft.Distinct) {declaration : Declaration Inst Cond}
    (member : declaration ∈ draft.hidden ++ draft.entries) :
    draft.block? declaration.name = declaration.block? := by
  have found : ∀ declarations : List (Declaration Inst Cond),
      (declarations.map Declaration.name).Nodup → declaration ∈ declarations →
        declarations.find? (·.name == declaration.name) = some declaration := by
    intro declarations
    induction declarations with
    | nil => exact fun _ member => absurd member List.not_mem_nil
    | cons first rest inductionHypothesis =>
      intro distinct member
      rw [List.map_cons, List.nodup_cons] at distinct
      obtain rfl | later := List.mem_cons.mp member
      · simp
      · have other : first.name ≠ declaration.name := fun same =>
          distinct.1 (same ▸ List.mem_map_of_mem later)
        rw [List.find?_cons_of_neg (by simpa using other)]
        exact inductionHypothesis distinct.2 later
  have names : ((draft.hidden ++ draft.entries).map Declaration.name).Nodup := by
    rw [Distinct, Draft.names, ← List.append_assoc] at distinct
    rw [List.map_append]
    exact (List.nodup_append.mp distinct).1
  rw [block?, found _ names member]
  rfl

namespace Call

/-- The name that a call declares as a hidden label. -/
def hidden? : Call Inst Cond → Option String
  | declareHidden name => some name
  | _ => none

/-- The name that a call declares as an entry. -/
def entry? : Call Inst Cond → Option String
  | declareEntry name => some name
  | _ => none

/-- The name that a call declares as an exit. -/
def exit? : Call Inst Cond → Option String
  | declareExit name => some name
  | _ => none

/-- The name that a call declares, as whatever kind. -/
def declared? : Call Inst Cond → Option String
  | declareHidden name => some name
  | declareEntry name => some name
  | declareExit name => some name
  | attach _ _ => none

/-- The block that a call gives to a name. -/
def blockFor? (name : String) : Call Inst Cond → Option (Block Inst Cond String)
  | attach target block => if target = name then some block else none
  | _ => none

end Call

/-- What a call that is performed adds to a draft: a name to one of the three kinds, or a block to a
name that had none. -/
theorem perform_adds {call : Call Inst Cond} (performed : draft.perform call = .ok later) :
    later.hiddenNames = draft.hiddenNames ++ call.hidden?.toList ∧
      later.entryNames = draft.entryNames ++ call.entry?.toList ∧
        later.exits = draft.exits ++ call.exit?.toList ∧
          ∀ name, (later.block? name).toList =
            (draft.block? name).toList ++ (call.blockFor? name).toList := by
  cases call with
  | declareHidden name =>
    obtain ⟨fresh, rfl⟩ := declareHidden_eq_ok_iff.mp performed
    refine ⟨by simp [hiddenNames, Call.hidden?], by simp [entryNames, Call.entry?],
      by simp [Call.exit?], fun other => ?_⟩
    rw [(block?_of_fresh fresh other).1]
    simp [Call.blockFor?]
  | declareEntry name =>
    obtain ⟨fresh, rfl⟩ := declareEntry_eq_ok_iff.mp performed
    refine ⟨by simp [hiddenNames, Call.hidden?], by simp [entryNames, Call.entry?],
      by simp [Call.exit?], fun other => ?_⟩
    rw [(block?_of_fresh fresh other).2]
    simp [Call.blockFor?]
  | declareExit name =>
    obtain ⟨fresh, rfl⟩ := declareExit_eq_ok_iff.mp performed
    refine ⟨by simp [hiddenNames, Call.hidden?], by simp [entryNames, Call.entry?],
      by simp [Call.exit?], fun other => ?_⟩
    simp [block?, Call.blockFor?]
  | attach name block =>
    obtain ⟨hidden, entries, exits⟩ := kinds_attach performed
    refine ⟨by simp [hidden, Call.hidden?], by simp [entries, Call.entry?],
      by simp [exits, Call.exit?], fun other => ?_⟩
    obtain ⟨vacant, given⟩ := block?_attach performed other
    rw [given]
    by_cases same : name = other
    · subst same
      simp [vacant, Call.blockFor?]
    · simp [same, Call.blockFor?]

/-- A draft holds what calls have put into it: each kind of names in the order of their declarations,
and for each name its block. No name has been given more than one. -/
structure Records (draft : Draft Inst Cond) (calls : List (Call Inst Cond)) : Prop where
  hidden : draft.hiddenNames = calls.filterMap Call.hidden?
  entries : draft.entryNames = calls.filterMap Call.entry?
  exits : draft.exits = calls.filterMap Call.exit?
  blocks : ∀ name, (draft.block? name).toList = calls.filterMap (Call.blockFor? name)

/-- At first there is nothing to record. -/
theorem records_empty : (empty : Draft Inst Cond).Records [] where
  hidden := rfl
  entries := rfl
  exits := rfl
  blocks _ := rfl

/-- Each call that is performed is recorded behind the others. -/
theorem Records.perform {calls : List (Call Inst Cond)} {call : Call Inst Cond}
    (records : draft.Records calls) (performed : draft.perform call = .ok later) :
    later.Records (calls ++ [call]) := by
  have single {A : Type} (f : Call Inst Cond → Option A) : [call].filterMap f = (f call).toList := by
    cases found : f call <;> simp [found]
  obtain ⟨hidden, entries, exits, blocks⟩ := perform_adds performed
  constructor
  · rw [hidden, records.hidden, List.filterMap_append, single]
  · rw [entries, records.entries, List.filterMap_append, single]
  · rw [exits, records.exits, List.filterMap_append, single]
  · intro name
    rw [blocks, records.blocks, List.filterMap_append, single]

end Flowgraph.Draft
