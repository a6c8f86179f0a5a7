/-!
# Asking about the items of a list

A function with a memory can answer differently each time, so it matters what it is asked about, and in
which order. `onRecord` makes it keep a record of that. `askEach` asks about the items of a list up to the
first refusal, and `Asked` lists the two ways in which this can go, each with the items that were asked
about. `exists_asked` finds the way that it goes, by induction on the items.

Asking two functions about a list, one after the other, asks the first one about all items before the
second one is asked at all. Their composite is asked item by item instead. `mapM_mapM` says that this comes to
the same if the calls that change places are `Independent`, as calls are that use different memories.
-/

namespace Flowgraph

variable {Memory Other E A B C : Type}

/-- The function that answers as `f` does, and keeps next to its memory a record of what it is asked about. -/
def onRecord (f : A → StateM Memory B) (item : A) : StateM (Memory × List A) B :=
  fun (memory, record) =>
    let (answer, after) := (f item).run memory
    (answer, after, record ++ [item])

theorem run_onRecord (f : A → StateM Memory B) (item : A) (before : Memory) (earlier : List A) :
    (onRecord f item).run (before, earlier) =
      (((f item).run before).1, ((f item).run before).2, earlier ++ [item]) := rfl

/-- First `f`, then `g` about its answer. Each of them has a memory of its own. -/
def composite (f : A → StateM Memory B) (g : B → StateM Other C) (item : A) :
    StateM (Memory × Other) C :=
  fun (memory, other) =>
    let (middle, after) := (f item).run memory
    let (answer, otherAfter) := (g middle).run other
    (answer, after, otherAfter)

theorem run_composite (f : A → StateM Memory B) (g : B → StateM Other C) (item : A) (before : Memory)
    (otherBefore : Other) :
    (composite f g item).run (before, otherBefore) =
      (((g ((f item).run before).1).run otherBefore).1, ((f item).run before).2,
        ((g ((f item).run before).1).run otherBefore).2) := rfl

/-- The function that answers as `f` does, and could refuse but never does. -/
def unfailing (f : A → StateM Memory B) (item : A) : StateM Memory (Except E B) :=
  Except.ok <$> f item

theorem run_unfailing (f : A → StateM Memory B) (item : A) (before : Memory) :
    (unfailing f item : StateM Memory (Except E B)).run before =
      (.ok ((f item).run before).1, ((f item).run before).2) := rfl

/-- Ask about the items of a list, one after the other, up to the first refusal. -/
def askEach (f : A → StateM Memory (Except E B)) (items : List A) :
    StateM Memory (Except E (List B)) :=
  (items.mapM fun item => ExceptT.mk (f item)).run

section Independence

variable {m : Type → Type} [Monad m]

/-- Two computations do not disturb each other: it makes no difference which of them comes first. -/
def Independent (first : m A) (second : m B) : Prop :=
  (do let answer ← first; let reply ← second; return (answer, reply)) =
    (do let reply ← second; let answer ← first; return (answer, reply))

variable [LawfulMonad m] {first : m A} {second : m B} {f : A → m B} {items : List A}

/-- They can change places whatever is done with their answers. -/
theorem Independent.bind_comm (independent : Independent first second) (next : A → B → m C) :
    (first >>= fun answer => second >>= fun reply => next answer reply) =
      (second >>= fun reply => first >>= fun answer => next answer reply) := by
  have same := congrArg (· >>= fun both : A × B => next both.1 both.2) independent
  simpa only [bind_assoc, pure_bind] using same

/-- What is independent of each call is independent of all of them. -/
theorem Independent.mapM {second : m C} (independent : ∀ item ∈ items, Independent (f item) second) :
    Independent (items.mapM f) second := by
  induction items with
  | nil => simp [Independent]
  | cons item rest inductionHypothesis =>
    obtain ⟨here, later⟩ := List.forall_mem_cons.mp independent
    simp only [Independent, List.mapM_cons, bind_assoc, pure_bind]
    rw [← here.bind_comm]
    refine congrArg (f item >>= ·) (funext fun answer => ?_)
    exact (inductionHypothesis later).bind_comm fun answers reply => pure (answer :: answers, reply)

/-- Behind a list of calls there are as many answers as items. -/
theorem bind_mapM_congr {next other : List B → m C}
    (same : ∀ answers, answers.length = items.length → next answers = other answers) :
    (items.mapM f >>= next) = (items.mapM f >>= other) := by
  induction items generalizing next other with
  | nil => simpa only [List.mapM_nil, pure_bind] using same [] rfl
  | cons item rest inductionHypothesis =>
    simp only [List.mapM_cons, bind_assoc, pure_bind]
    refine congrArg (f item >>= ·) (funext fun answer => inductionHypothesis fun answers lengths => ?_)
    exact same (answer :: answers) (congrArg (· + 1) lengths)

/-- Asking `f` about all items, and then `g` about all answers, is asking the composite about all items, if
no call of `g` disturbs the calls of `f` that it is moved before. The first one comes before all calls of
`g` either way. -/
theorem mapM_mapM {g : B → m C}
    (independent : ∀ item ∈ items.tail, ∀ other, Independent (f item) (g other)) :
    (items.mapM f >>= List.mapM g) = items.mapM fun item => f item >>= g := by
  induction items with
  | nil => simp
  | cons item rest inductionHypothesis =>
    rw [List.tail_cons] at independent
    have continued := inductionHypothesis fun item member => independent item (List.mem_of_mem_tail member)
    rw [List.mapM_cons, List.mapM_cons, ← continued]
    simp only [bind_assoc, pure_bind]
    refine congrArg (f item >>= ·) (funext fun answer => ?_)
    -- The first call of `g` goes before all later calls of `f`.
    have moved := (Independent.mapM fun item member => independent item member answer).bind_comm
      fun answers reply => (do let replies ← answers.mapM g; return reply :: replies)
    simpa only [List.mapM_cons] using moved

end Independence

section Answering

variable (f : A → StateM Memory B)

/-- Asking about a list begins with its first item, and goes on with the others from the memory that
this leaves. -/
theorem run_mapM_cons (item : A) (rest : List A) (before : Memory) :
    ((item :: rest).mapM f).run before =
      (((f item).run before).1 :: ((rest.mapM f).run ((f item).run before).2).1,
        ((rest.mapM f).run ((f item).run before).2).2) := by
  rw [List.mapM_cons]
  rfl

/-- So it does in the middle of a list. -/
theorem run_mapM_append (front behind : List A) (before : Memory) :
    ((front ++ behind).mapM f).run before =
      (((front.mapM f).run before).1 ++ ((behind.mapM f).run ((front.mapM f).run before).2).1,
        ((behind.mapM f).run ((front.mapM f).run before).2).2) := by
  rw [List.mapM_append]
  rfl

/-- There is one answer for each item. -/
theorem length_run_mapM (items : List A) (before : Memory) :
    ((items.mapM f).run before).1.length = items.length := by
  induction items generalizing before with
  | nil => rfl
  | cons item rest inductionHypothesis =>
    rw [run_mapM_cons, List.length_cons, List.length_cons, inductionHypothesis]

/-- The record changes neither answers nor memory, and in the end it has all items in order. -/
theorem run_mapM_onRecord (items : List A) (before : Memory) (earlier : List A) :
    (items.mapM (onRecord f)).run (before, earlier) =
      (((items.mapM f).run before).1, ((items.mapM f).run before).2, earlier ++ items) := by
  induction items generalizing before earlier with
  | nil =>
    rw [List.append_nil]
    rfl
  | cons item rest inductionHypothesis =>
    -- To the other items, the first one has been asked about earlier.
    rw [run_mapM_cons, run_mapM_cons, run_onRecord, inductionHypothesis, List.append_assoc]
    rfl

/-- A function that answers each item with itself gives the list back. -/
theorem run_mapM_self {f : A → StateM Memory A} (same : ∀ item memory, ((f item).run memory).1 = item)
    (items : List A) (before : Memory) : ((items.mapM f).run before).1 = items := by
  induction items generalizing before with
  | nil => rfl
  | cons item rest inductionHypothesis => rw [run_mapM_cons, same, inductionHypothesis]

/-- Asking a composite about all items comes to the same as asking `f` about all of them, and then `g`
about all answers: neither function notices when the other is asked. -/
theorem mapM_composite (g : B → StateM Other C) (items : List A) :
    items.mapM (composite f g) = composite (List.mapM f) (List.mapM g) items := by
  induction items with
  | nil => rfl
  | cons item rest inductionHypothesis =>
    refine StateT.ext fun (before, otherBefore) => ?_
    rw [run_mapM_cons, run_composite, inductionHypothesis, run_composite, run_composite,
      run_mapM_cons, run_mapM_cons]

/-- What is done to the answers can be done to all of them in the end. -/
theorem run_mapM_map (g : B → C) (items : List A) (before : Memory) :
    (items.mapM fun item => g <$> f item).run before =
      (((items.mapM f).run before).1.map g, ((items.mapM f).run before).2) := by
  induction items generalizing before with
  | nil => rfl
  | cons item rest inductionHypothesis =>
    have first : (g <$> f item).run before =
        (g ((f item).run before).1, ((f item).run before).2) := rfl
    rw [run_mapM_cons, run_mapM_cons, first, inductionHypothesis]
    rfl

end Answering

/-- The ways in which asking about a list up to the first refusal can go: what comes of it, and which
items are asked about for that. -/
inductive Asked (f : A → StateM Memory (Except E B)) (items : List A) (before : Memory) :
    Except E (List B) → List A → Memory → Prop where
  /-- Every item is answered. -/
  | answered {answers : List B} {after : Memory}
      (answer : (items.mapM f).run before = (answers.map .ok, after)) :
      Asked f items before (.ok answers) items after
  /-- An item is refused after all before it have been answered. Nothing is asked behind it. -/
  | refused {done skipped : List A} {item : A} {answers : List B} {error : E}
      {middle after : Memory} (order : items = done ++ item :: skipped)
      (answer : (done.mapM f).run before = (answers.map .ok, middle))
      (refuse : (f item).run middle = (.error error, after)) :
      Asked f items before (.error error) (done ++ [item]) after

section Refusing

variable {f : A → StateM Memory (Except E B)} {items asked : List A} {item : A} {answer : B}
  {error : E} {outcome : Except E (List B)} {before middle after : Memory}

/-- Nothing is asked behind a first item that is refused. -/
theorem run_askEach_of_error (refuse : (f item).run before = (.error error, after))
    (rest : List A) : (askEach f (item :: rest)).run before = (.error error, after) := by
  rw [askEach, List.mapM_cons, ExceptT.run_bind, StateT.run_bind, ExceptT.run_mk, refuse]
  rfl

/-- After a first item that is answered, the others are asked about. -/
theorem run_askEach_of_ok (first : (f item).run before = (.ok answer, middle)) (rest : List A) :
    (askEach f (item :: rest)).run before =
      (((askEach f rest).run middle).1.map (answer :: ·), ((askEach f rest).run middle).2) := by
  rw [askEach, List.mapM_cons, ExceptT.run_bind, StateT.run_bind, ExceptT.run_mk, first]
  simp only [bind_pure_comp, ExceptT.run_map]
  rfl

/-- If the first item is answered, things go on as they do for the others. -/
theorem Asked.cons (first : (f item).run before = (.ok answer, middle))
    (later : Asked f items middle outcome asked after) :
    Asked f (item :: items) before (outcome.map (answer :: ·)) (item :: asked) after := by
  cases later with
  | answered answer =>
    refine .answered ?_
    rw [run_mapM_cons, first, answer]
    rfl
  | @refused done skipped refusedItem answers _ last _ order answered refuse =>
    have order' : item :: items = (item :: done) ++ refusedItem :: skipped :=
      congrArg (item :: ·) order
    have answered' : ((item :: done).mapM f).run before = ((answer :: answers).map .ok, last) := by
      rw [run_mapM_cons, first, answered]
      rfl
    exact .refused order' answered' refuse

/-- If it is refused, that is all. -/
theorem Asked.head (refuse : (f item).run before = (.error error, after)) (rest : List A) :
    Asked f (item :: rest) before (.error error) [item] after := by
  have order : item :: rest = [] ++ item :: rest := rfl
  have answered : (([] : List A).mapM f).run before = (([] : List B).map .ok, before) := rfl
  exact .refused order answered refuse

/-- All items that come out are answered, each with one answer. -/
theorem Asked.length_eq {answers : List B} (way : Asked f items before (.ok answers) asked after) :
    answers.length = items.length := by
  cases way with
  | answered answer =>
    have lengths := length_run_mapM f items before
    rwa [answer, List.length_map] at lengths

/-- Asking about a list goes one of these ways, and the items that are asked about are put on the record,
behind those that have been asked about earlier. -/
theorem exists_asked (f : A → StateM Memory (Except E B)) (items : List A) (before : Memory) :
    ∃ asked, Asked f items before ((askEach f items).run before).1 asked
        ((askEach f items).run before).2 ∧
      ∀ earlier, (askEach (onRecord f) items).run (before, earlier) =
        (((askEach f items).run before).1, ((askEach f items).run before).2,
          earlier ++ asked) := by
  induction items generalizing before with
  | nil =>
    refine ⟨[], .answered rfl, fun earlier => ?_⟩
    rw [List.append_nil]
    rfl
  | cons item rest inductionHypothesis =>
    have recorded := run_onRecord f item before
    rcases first : (f item).run before with ⟨outcome, middle⟩
    simp only [first] at recorded
    cases outcome with
    | error error =>
      rw [run_askEach_of_error first]
      exact ⟨[item], .head first rest, fun earlier => run_askEach_of_error (recorded earlier) rest⟩
    | ok answer =>
      obtain ⟨asked, way, laterRecorded⟩ := inductionHypothesis middle
      rw [run_askEach_of_ok first]
      refine ⟨item :: asked, way.cons first, fun earlier => ?_⟩
      rw [run_askEach_of_ok (recorded earlier), laterRecorded, List.append_assoc]
      rfl

/-- A function that never refuses is asked about every item. -/
theorem askEach_unfailing (f : A → StateM Memory B) (items : List A) :
    askEach (unfailing f : A → StateM Memory (Except E B)) items = unfailing (List.mapM f) items := by
  induction items with
  | nil => rfl
  | cons item rest inductionHypothesis =>
    refine StateT.ext fun before => ?_
    rw [run_askEach_of_ok (run_unfailing f item before), inductionHypothesis, run_unfailing,
      run_unfailing, run_mapM_cons]
    rfl

end Refusing

end Flowgraph
