import Flowgraph.Proofs.Draft.Record

/-!
# Sessions with a draft

In a session, a draft is worked on in place. It is asked for one thing after the other: to take up a
declaration or a block, or to be finished as it stands. Not everything that is asked for can be done, and
a step that fails leaves the draft as the work before the failure has left it. That this is how it was
before the step is nothing to be taken for granted: it holds because every check comes before the first
change.

`Work` is such work in place. Its tables replace what they hold under a name, and so they would lose a
block or move a name if they were asked at the wrong time. `run_perform` says that they never are: work in
place does what `Draft.perform` does, and changes nothing where that fails.
-/

namespace Flowgraph.Draft

variable {Inst Cond : Type}

/-- What is asked of a draft: to be continued by a call, or to be finished as it stands. -/
inductive Request (Inst Cond : Type) where
  | call (call : Call Inst Cond)
  | assemble
  deriving DecidableEq

/-- Work on a draft in place. What has been done when a step fails stays done. -/
abbrev Work (Inst Cond A : Type) : Type := EStateM DraftError (Draft Inst Cond) A

namespace Work

/-- Go on only if a name is not declared, as whatever kind. -/
def fresh (name : String) : Work Inst Cond Unit := do
  let draft ← get
  if draft.Declares name then
    throw (.duplicateLabel name)

/-- Go on only if the slot of a name is empty. -/
def vacant (name : String) (slot : Option (Block Inst Cond String)) : Work Inst Cond Unit :=
  if slot.isSome then throw (.duplicateBlock name) else return

/-- Declare a hidden label: put an empty slot under its name. -/
def declareHidden (name : String) : Work Inst Cond Unit := do
  fresh name
  modify fun draft => { draft with hidden := put name none draft.hidden }

/-- Declare an entry: put an empty slot under its name. -/
def declareEntry (name : String) : Work Inst Cond Unit := do
  fresh name
  modify fun draft => { draft with entries := put name none draft.entries }

/-- Declare an exit. A name that is in the set of exits already stays where it is. -/
def declareExit (name : String) : Work Inst Cond Unit := do
  fresh name
  modify fun draft =>
    { draft with exits := if name ∈ draft.exits then draft.exits else draft.exits ++ [name] }

/-- Put a block into the slot of a name, which is looked for among the hidden labels first. -/
def attach (name : String) (block : Block Inst Cond String) : Work Inst Cond Unit := do
  let draft ← get
  match slot? name draft.hidden with
  | some slot =>
    vacant name slot
    set { draft with hidden := put name (some block) draft.hidden }
  | none =>
    match slot? name draft.entries with
    | some slot =>
      vacant name slot
      set { draft with entries := put name (some block) draft.entries }
    | none => throw (.unknownLabel name)

/-- Do what a call says. -/
def perform : Call Inst Cond → Work Inst Cond Unit
  | .declareHidden name => declareHidden name
  | .declareEntry name => declareEntry name
  | .declareExit name => declareExit name
  | .attach name block => attach name block

/-- Do what is asked for. Only a draft that is finished is answered with something. -/
def answer : Request Inst Cond → Work Inst Cond (Option (Fragment Inst Cond))
  | .call call => do
    perform call
    return none
  | .assemble => do
    let draft ← get
    match draft.assemble with
    | .ok fragment => return some fragment
    | .error error => throw error

end Work

/-- Ask for something, and see the answer and the draft as it is left. -/
def ask (draft : Draft Inst Cond) (request : Request Inst Cond) :
    Except DraftError (Option (Fragment Inst Cond)) × Draft Inst Cond :=
  match (Work.answer request).run draft with
  | .ok answer later => (.ok answer, later)
  | .error error later => (.error error, later)

/-- A request and the answer to it. -/
structure Exchange (Inst Cond : Type) where
  request : Request Inst Cond
  answer : Except DraftError (Option (Fragment Inst Cond))

/-- Ask for one thing after the other, whatever the answers are. -/
def converse (draft : Draft Inst Cond) :
    List (Request Inst Cond) → List (Exchange Inst Cond) × Draft Inst Cond
  | [] => ([], draft)
  | request :: rest =>
    let (answer, later) := draft.ask request
    let (log, final) := later.converse rest
    (⟨request, answer⟩ :: log, final)

variable {draft : Draft Inst Cond}

/-- Work in place does what a call does, and a call that fails changes nothing. -/
theorem Work.run_perform (draft : Draft Inst Cond) (call : Call Inst Cond) :
    (Work.perform call).run draft =
      match draft.perform call with
      | .ok later => .ok () later
      | .error error => .error error draft := by
  cases call with
  | declareHidden name =>
    simp only [Draft.perform, Draft.declareHidden, perform, declareHidden, fresh]
    by_cases declared : draft.Declares name
    · simp [declared]
    · have absent : name ∉ draft.hidden.map Declaration.name := fun member => declared (.inl member)
      simp [declared, put_of_fresh absent]
  | declareEntry name =>
    simp only [Draft.perform, Draft.declareEntry, perform, declareEntry, fresh]
    by_cases declared : draft.Declares name
    · simp [declared]
    · have absent : name ∉ draft.entries.map Declaration.name :=
        fun member => declared (.inr (.inl member))
      simp [declared, put_of_fresh absent]
  | declareExit name =>
    simp only [Draft.perform, Draft.declareExit, perform, declareExit, fresh]
    by_cases declared : draft.Declares name
    · simp [declared]
    · have absent : name ∉ draft.exits := fun member => declared (.inr (.inr member))
      simp [declared, absent]
  | attach name block =>
    simp only [Draft.perform, attach_eq, perform, attach, vacant]
    cases found : slot? name draft.hidden with
    | some held => cases held <;> simp [found]
    | none =>
      cases entry : slot? name draft.entries with
      | some held => cases held <;> simp [found, entry]
      | none => simp [found, entry]

/-- A call is answered by nothing but its success, and a draft that refuses one is as it was. -/
theorem ask_call (draft : Draft Inst Cond) (call : Call Inst Cond) :
    draft.ask (.call call) =
      match draft.perform call with
      | .ok later => (.ok none, later)
      | .error error => (.error error, draft) := by
  have ran := Work.run_perform draft call
  simp only [ask, Work.answer, EStateM.run_bind, ran]
  cases draft.perform call <;> rfl

/-- A draft that is to be finished is as it was, whatever the answer. -/
theorem ask_assemble (draft : Draft Inst Cond) :
    draft.ask .assemble = (draft.assemble.map some, draft) := by
  cases made : draft.assemble with
  | ok fragment => simp [ask, Work.answer, made, Except.map]
  | error error =>
    simp only [ask, Work.answer, EStateM.run_bind, EStateM.run_get, made]
    rfl

section Refusals

variable {name : String} {block : Block Inst Cond String} {error : DraftError}

/-- Whatever a name is to be declared as, it must not be declared already. -/
theorem perform_declaring_eq_error_iff {call : Call Inst Cond}
    (declares : call.declared? = some name) :
    draft.perform call = .error error ↔ draft.Declares name ∧ error = .duplicateLabel name := by
  cases call with
  | attach target block => cases declares
  | _ =>
    obtain rfl := Option.some.inj declares
    simp only [perform, declareHidden, declareEntry, declareExit]
    split <;> simp_all [eq_comm]

/-- A request fails in a session as the call fails by itself. -/
theorem ask_call_eq_error_iff {call : Call Inst Cond} :
    (draft.ask (.call call)).1 = .error error ↔ draft.perform call = .error error := by
  rw [ask_call]
  cases draft.perform call <;> simp

end Refusals

namespace Exchange

/-- The call that an exchange has got done. -/
def done? : Exchange Inst Cond → Option (Call Inst Cond)
  | ⟨.call call, .ok _⟩ => some call
  | _ => none

/-- An exchange that gets nothing done: something has failed, or a draft is looked at as it stands. -/
def Idle (exchange : Exchange Inst Cond) : Prop :=
  exchange.request = .assemble ∨ ∃ error, exchange.answer = .error error

end Exchange

/-- The calls that have got done, in order. -/
def done (log : List (Exchange Inst Cond)) : List (Call Inst Cond) :=
  log.filterMap Exchange.done?

/-- What is left of a log when some of its idle exchanges are deleted. -/
inductive Thinned : List (Exchange Inst Cond) → List (Exchange Inst Cond) → Prop where
  | nil : Thinned [] []
  | keep {log kept : List (Exchange Inst Cond)} (exchange : Exchange Inst Cond)
      (thinned : Thinned log kept) : Thinned (exchange :: log) (exchange :: kept)
  | delete {log kept : List (Exchange Inst Cond)} {exchange : Exchange Inst Cond}
      (idle : exchange.Idle) (thinned : Thinned log kept) : Thinned (exchange :: log) kept

/-- An exchange gets done what its call does, or else it leaves the draft alone. -/
theorem ask_cases (draft : Draft Inst Cond) (request : Request Inst Cond) :
    (∃ call, Exchange.done? ⟨request, (draft.ask request).1⟩ = some call ∧
        draft.perform call = .ok (draft.ask request).2 ∧
          ¬ (⟨request, (draft.ask request).1⟩ : Exchange Inst Cond).Idle) ∨
      Exchange.done? ⟨request, (draft.ask request).1⟩ = none ∧ (draft.ask request).2 = draft := by
  cases request with
  | assemble =>
    rw [ask_assemble]
    exact .inr ⟨rfl, rfl⟩
  | call call =>
    rw [ask_call]
    cases performed : draft.perform call with
    | error error => exact .inr ⟨rfl, rfl⟩
    | ok later => exact .inl ⟨call, rfl, performed, by simp [Exchange.Idle]⟩

/-- An idle exchange leaves the draft as it was. -/
theorem ask_of_idle {request : Request Inst Cond}
    (idle : (⟨request, (draft.ask request).1⟩ : Exchange Inst Cond).Idle) :
    (draft.ask request).2 = draft := by
  obtain ⟨call, -, -, busy⟩ | ⟨-, same⟩ := draft.ask_cases request
  · exact absurd idle busy
  · exact same

section Converse

variable {requests : List (Request Inst Cond)} {log kept : List (Exchange Inst Cond)}
  {final : Draft Inst Cond}

theorem converse_cons (draft : Draft Inst Cond) (request : Request Inst Cond)
    (rest : List (Request Inst Cond)) :
    draft.converse (request :: rest) =
      (⟨request, (draft.ask request).1⟩ :: ((draft.ask request).2.converse rest).1,
        ((draft.ask request).2.converse rest).2) := rfl

/-- A log lists what was asked for. -/
theorem map_request_converse (draft : Draft Inst Cond) (requests : List (Request Inst Cond)) :
    (draft.converse requests).1.map Exchange.request = requests := by
  induction requests generalizing draft with
  | nil => rfl
  | cons request rest inductionHypothesis =>
    rw [converse_cons, List.map_cons, inductionHypothesis]

/-- A session keeps names distinct. -/
theorem Distinct.converse (distinct : draft.Distinct) (requests : List (Request Inst Cond)) :
    (draft.converse requests).2.Distinct := by
  induction requests generalizing draft with
  | nil => exact distinct
  | cons request rest inductionHypothesis =>
    rw [converse_cons]
    apply inductionHypothesis
    obtain ⟨call, -, performed, -⟩ | ⟨-, same⟩ := draft.ask_cases request
    · exact distinct.perform performed
    · rw [same]
      exact distinct

/-- A draft records the calls that have got done, and what has failed leaves no trace. -/
theorem Records.converse {calls : List (Call Inst Cond)} (records : draft.Records calls)
    (requests : List (Request Inst Cond)) :
    (draft.converse requests).2.Records (calls ++ done (draft.converse requests).1) := by
  induction requests generalizing draft calls with
  | nil => simpa [Draft.converse, done] using records
  | cons request rest inductionHypothesis =>
    rw [converse_cons]
    obtain ⟨call, got, performed, -⟩ | ⟨nothing, same⟩ := draft.ask_cases request
    · have later := inductionHypothesis (records.perform performed)
      rw [List.append_assoc] at later
      rw [done, List.filterMap_cons_some got]
      exact later
    · rw [same, done, List.filterMap_cons_none nothing]
      exact inductionHypothesis records

/-- Without some of its idle requests, a session goes on as it did: every other request has the same
answer, and the draft is the same in the end. -/
theorem converse_thinned (thinned : Thinned (draft.converse requests).1 kept) :
    draft.converse (kept.map Exchange.request) = (kept, (draft.converse requests).2) := by
  induction requests generalizing draft kept with
  | nil =>
    cases thinned
    rfl
  | cons request rest inductionHypothesis =>
    rw [converse_cons] at thinned ⊢
    cases thinned with
    | keep _ rest =>
      rw [List.map_cons, converse_cons, inductionHypothesis rest]
    | delete idle rest =>
      have same := ask_of_idle idle
      rw [same] at rest ⊢
      exact inductionHypothesis rest

end Converse

/-- Some declaration of a name holds a block if and only if the name has one. -/
theorem Distinct.isSome_block?_iff (distinct : draft.Distinct) (name : String) :
    (draft.block? name).isSome ↔
      ∃ declaration ∈ draft.hidden ++ draft.entries,
        declaration.name = name ∧ declaration.block?.isSome := by
  constructor
  · intro held
    rw [block?] at held
    cases found : (draft.hidden ++ draft.entries).find? (·.name == name) with
    | none => simp [found] at held
    | some declaration =>
      refine ⟨declaration, List.mem_of_find?_eq_some found, ?_, by simpa [found] using held⟩
      simpa using List.find?_some found
  · rintro ⟨declaration, member, rfl, held⟩
    rw [distinct.block?_eq member]
    exact held

/-- An exit is neither a hidden label nor an entry. -/
theorem Distinct.not_mem_of_exit (distinct : draft.Distinct) {name : String}
    (exit : name ∈ draft.exits) : name ∉ draft.hiddenNames ∧ name ∉ draft.entryNames := by
  rw [Distinct, names, ← List.append_assoc, List.nodup_append'] at distinct
  have apart : name ∉ draft.hiddenNames ++ draft.entryNames := fun member =>
    distinct.2.2 member exit
  rwa [List.mem_append, not_or] at apart

/-- A session with a new draft is safe, whatever is asked for and in whatever order.

The names are distinct over all kinds, each kind lists those of the calls that got done in their order,
and each hidden label or entry holds the block of the one call that gave it one, or none. From there, a
name can be declared unless it is declared already, and be given a block unless it is neither a hidden
label nor an entry or has a block. What is asked for is done as the calls themselves do it. Whatever
fails leaves the draft as it was, and so does looking at it as it stands; and so, without such requests,
all others would have been answered as they were. -/
theorem converse_safe (requests : List (Request Inst Cond)) :
    ∃ log draft, (empty : Draft Inst Cond).converse requests = (log, draft) ∧
      log.map Exchange.request = requests ∧
      draft.Distinct ∧
      draft.hiddenNames = (done log).filterMap Call.hidden? ∧
      draft.entryNames = (done log).filterMap Call.entry? ∧
      draft.exits = (done log).filterMap Call.exit? ∧
      (∀ declaration ∈ draft.hidden ++ draft.entries,
        declaration.block?.toList = (done log).filterMap (Call.blockFor? declaration.name)) ∧
      (∀ call name, call.declared? = some name → ∀ error,
        (draft.ask (.call call)).1 = .error error ↔
          draft.Declares name ∧ error = .duplicateLabel name) ∧
      (∀ name block error, (draft.ask (.call (.attach name block))).1 = .error error ↔
        (name ∉ draft.hiddenNames ∧ name ∉ draft.entryNames ∧ error = .unknownLabel name) ∨
          (∃ declaration ∈ draft.hidden ++ draft.entries,
            declaration.name = name ∧ declaration.block?.isSome) ∧ error = .duplicateBlock name) ∧
      (∀ name ∈ draft.exits, ∀ block,
        (draft.ask (.call (.attach name block))).1 = .error (.unknownLabel name)) ∧
      (∀ call, draft.ask (.call call) =
        match draft.perform call with
        | .ok later => (.ok none, later)
        | .error error => (.error error, draft)) ∧
      draft.ask .assemble = (draft.assemble.map some, draft) ∧
      (∀ request, Exchange.Idle ⟨request, (draft.ask request).1⟩ → (draft.ask request).2 = draft) ∧
      ∀ kept, Thinned log kept →
        (empty : Draft Inst Cond).converse (kept.map Exchange.request) = (kept, draft) := by
  obtain ⟨hidden, entries, exits, blocks⟩ := records_empty.converse requests
  have distinct := (Arises.empty : (empty : Draft Inst Cond).Arises).distinct.converse requests
  refine ⟨_, _, rfl, map_request_converse _ requests, distinct, hidden, entries, exits, ?_, ?_, ?_, ?_,
    ask_call _, ask_assemble _, fun request => ask_of_idle, fun kept => converse_thinned⟩
  · intro declaration member
    rw [← distinct.block?_eq member]
    exact blocks declaration.name
  · intro call name declares error
    rw [ask_call_eq_error_iff, perform_declaring_eq_error_iff declares]
  · intro name block error
    rw [ask_call_eq_error_iff, perform, attach_eq_error_iff, distinct.isSome_block?_iff]
  · intro name exit block
    obtain ⟨visible, inside⟩ := distinct.not_mem_of_exit exit
    rw [ask_call_eq_error_iff, perform, attach_eq_error_iff]
    exact .inl ⟨visible, inside, rfl⟩

/-- A session about two names, with one failure of each kind in it: the entry cannot be declared again
nor be branched to, and the exit cannot be given a block. -/
def twoNames : List (Request Unit Unit) :=
  [.call (.declareEntry "a"), .call (.declareExit "b"), .call (.declareHidden "a"),
    .call (.attach "b" (.jump "b")), .assemble, .call (.attach "a" (.jump "a")),
    .call (.attach "a" (.jump "b")), .assemble]

/-- What is left of it are the three calls that have got done. -/
theorem converse_two_names :
    ∃ log draft, (empty : Draft Unit Unit).converse twoNames = (log, draft) ∧
      log.map Exchange.answer =
        [.ok none, .ok none, .error (.duplicateLabel "a"), .error (.unknownLabel "b"),
          .error (.missingBlock "a"), .ok none, .error (.duplicateBlock "a"),
          .error (.unknownLabel "a")] ∧
      (∀ declaration ∈ draft.hidden ++ draft.entries, declaration.block?.toList =
        (done log).filterMap (Call.blockFor? declaration.name)) ∧
      ⟨"a", some (.jump "a")⟩ ∈ draft.hidden ++ draft.entries ∧
      "b" ∈ draft.exits ∧
      (draft.ask (.call (.attach "b" (.jump "a")))).1 = .error (.unknownLabel "b") ∧
      (empty : Draft Unit Unit).converse
        [.call (.declareEntry "a"), .call (.declareExit "b"), .call (.attach "a" (.jump "a"))] =
          ([⟨.call (.declareEntry "a"), .ok none⟩, ⟨.call (.declareExit "b"), .ok none⟩,
            ⟨.call (.attach "a" (.jump "a")), .ok none⟩], draft) := by
  obtain ⟨log, draft, ran, -, -, -, -, -, blocks, -, -, exits, -, -, -, thinned⟩ :=
    converse_safe twoNames
  obtain ⟨rfl, rfl⟩ : _ = log ∧ _ = draft := Prod.mk.inj ran
  have kept : Thinned ((empty : Draft Unit Unit).converse twoNames).1
      [⟨.call (.declareEntry "a"), .ok none⟩, ⟨.call (.declareExit "b"), .ok none⟩,
        ⟨.call (.attach "a" (.jump "a")), .ok none⟩] :=
    .keep _ (.keep _ (.delete (.inr ⟨_, rfl⟩) (.delete (.inr ⟨_, rfl⟩) (.delete (.inl rfl)
      (.keep _ (.delete (.inr ⟨_, rfl⟩) (.delete (.inl rfl) .nil)))))))
  exact ⟨_, _, ran, rfl, blocks, .head _, .head _, exits "b" (.head _) (.jump "a"), thinned _ kept⟩

end Flowgraph.Draft
