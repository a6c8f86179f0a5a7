import Flowgraph.Proofs.Asking
import Flowgraph.Proofs.Raw.Renaming

/-!
# Making a renaming by asking a function

A renaming can be made by a function with a memory, whose answers are checked and stored one after the
other. `Renaming.Evaluation` lists the two ways in which this can go, each with the labels that the function
is asked about: either all answers lie in the codomain, or there is a first one that does not, and the
function is not asked again. `Renaming.exists_evaluation` finds the way that it goes. Making a renaming is
asking up to the first refusal, where an answer outside the codomain is refused, so this comes down to
`exists_asked`.

A table is turned into a renaming by asking for its entries. The labels that it is asked about are then
those of its places, so that every one of them is there.
-/

namespace Flowgraph

open Unguarded

variable {Memory : Type}

namespace Label

theorem range_succ (count : Nat) : range (count + 1) = range count ++ [⟨count⟩] := by
  rw [range, List.range_succ, List.map_append]
  rfl

theorem take_range {part count : Nat} (small : part ≤ count) :
    (range count).take part = range part := by
  rw [range, ← List.map_take, List.take_range, Nat.min_eq_left small]
  rfl

/-- In front of a label there are the labels below it. -/
theorem range_eq_append_cons {count : Nat} {label : Label} {before behind : List Label}
    (order : range count = before ++ label :: behind) :
    label.index < count ∧ before = range label.index := by
  have lengths := congrArg List.length order
  simp only [range, List.length_map, List.length_range, List.length_append, List.length_cons] at lengths
  have inside : before.length < count := by omega
  have place : (range count)[before.length]? = some label := by simp [order]
  have front : (range count).take before.length = before := by rw [order, List.take_left]
  obtain rfl : ⟨before.length⟩ = label := by simpa [range, inside] using place
  rw [take_range (Nat.le_of_lt inside)] at front
  exact ⟨inside, front.symm⟩

/-- Every label of the space has its place among them. -/
theorem exists_range_eq_append_cons {count : Nat} {label : Label} (inside : label.index < count) :
    ∃ behind, range count = range label.index ++ label :: behind := by
  have placed : label.index < (range count).length := by simpa [range] using inside
  have here : (range count)[label.index] = label := by simp [range]
  have split := List.take_append_drop label.index (range count)
  rw [take_range (Nat.le_of_lt inside), List.drop_eq_getElem_cons placed, here] at split
  exact ⟨_, split.symm⟩

/-- Answers that pass a check are the answers that were given, and lie in the space. -/
theorem of_map_check_eq {size : Size} {given answers : List Label}
    (passed : given.map (·.check size) = answers.map .ok) :
    given = answers ∧ ∀ answer ∈ given, answer.Within size := by
  induction given generalizing answers with
  | nil => exact ⟨(List.map_eq_nil_iff.mp passed.symm).symm, by simp⟩
  | cons first rest inductionHypothesis =>
    obtain ⟨answer, others, rfl, checked, later⟩ := List.map_eq_cons_iff.mp passed.symm
    obtain ⟨inside, rfl⟩ := check_eq_ok_iff.mp checked.symm
    obtain ⟨rfl, within⟩ := inductionHypothesis later.symm
    exact ⟨rfl, List.forall_mem_cons.mpr ⟨inside, within⟩⟩

end Label

namespace Renaming

/-- The answers of `f`, with all refused that lie outside the codomain. -/
def checked (codomain : Size) (f : Label → StateM Memory Label) (label : Label) :
    StateM Memory (Except LabelError Label) :=
  (·.check codomain) <$> f label

section Asking

variable {domain codomain : Size} {f : Label → StateM Memory Label} {before after : Memory}

theorem run_checked (codomain : Size) (f : Label → StateM Memory Label) (label : Label)
    (before : Memory) :
    (checked codomain f label).run before =
      (((f label).run before).1.check codomain, ((f label).run before).2) := rfl

/-- An answer that is refused ends the matter. -/
theorem run_fillM_of_error {images : Array Label} {image : Label} {error : LabelError}
    (answer : (f ⟨images.size⟩).run before = (image, after))
    (refused : image.check codomain = .error error) (missing : Nat) :
    (Raw.fillM codomain f (missing + 1) images).run before = (.error error, after) := by
  replace answer : (f ⟨images.size⟩).run before = pure (image, after) := answer
  rw [Raw.fillM, StateT.run_bind, answer, pure_bind, refused]
  rfl

/-- An answer that passes the check is stored, and the table is continued. -/
theorem run_fillM_of_ok {images : Array Label} {image stored : Label}
    (answer : (f ⟨images.size⟩).run before = (image, after))
    (passed : image.check codomain = .ok stored) (missing : Nat) :
    (Raw.fillM codomain f (missing + 1) images).run before =
      (Raw.fillM codomain f missing (images.push stored)).run after := by
  replace answer : (f ⟨images.size⟩).run before = pure (image, after) := answer
  rw [Raw.fillM, StateT.run_bind, answer, pure_bind, passed]

/-- Continuing a table is asking about the labels behind it, up to the first refusal. -/
theorem run_fillM (codomain : Size) (f : Label → StateM Memory Label) (missing : Nat)
    (images : Array Label) (before : Memory) :
    (Raw.fillM codomain f missing images).run before =
      (((askEach (checked codomain f) ((List.range' images.size missing).map Label.mk)).run
          before).1.map (images ++ ·.toArray),
        ((askEach (checked codomain f) ((List.range' images.size missing).map Label.mk)).run
          before).2) := by
  induction missing generalizing images before with
  | zero =>
    have nothing : images ++ ([] : List Label).toArray = images := by simp
    change (Except.ok images, before) = (Except.ok (images ++ ([] : List Label).toArray), before)
    rw [nothing]
  | succ missing inductionHypothesis =>
    rw [List.range'_succ, List.map_cons]
    rcases answer : (f ⟨images.size⟩).run before with ⟨image, middle⟩
    have first := run_checked codomain f ⟨images.size⟩ before
    rw [answer] at first
    cases passed : image.check codomain with
    | error error =>
      rw [passed] at first
      rw [run_fillM_of_error answer passed, run_askEach_of_error first]
      rfl
    | ok stored =>
      rw [passed] at first
      rw [run_fillM_of_ok answer passed, run_askEach_of_ok first, inductionHypothesis, Array.size_push]
      cases ((askEach (checked codomain f) _).run middle).1 with
      | error error => rfl
      | ok answers => simp [Except.map]

/-- Making a renaming is asking about all labels of the domain, up to the first refusal. -/
theorem run_ofFnM (domain codomain : Size) (f : Label → StateM Memory Label) (before : Memory) :
    (((ofFnM domain codomain f).run before).1.map raw, ((ofFnM domain codomain f).run before).2) =
      (((askEach (checked codomain f) (Label.range domain.count)).run before).1.map fun answers =>
          ⟨codomain, answers.toArray⟩,
        ((askEach (checked codomain f) (Label.range domain.count)).run before).2) := by
  have made : (Except.map raw <$> ofFnM domain codomain f).run before =
      (Except.map (Raw.mk codomain) <$> Raw.fillM codomain f domain.count #[]).run before :=
    congrArg (StateT.run · before) (fillM_raw f domain.count (empty codomain) _).symm
  have filled := run_fillM codomain f domain.count #[] before
  simp only [Array.size_empty, ← List.range_eq_range', Array.empty_append] at filled
  refine made.trans ?_
  rw [StateT.run_map, filled, ← Label.range]
  cases ((askEach (checked codomain f) (Label.range domain.count)).run before).1 <;> rfl

end Asking

/-- The ways in which a renaming can be made by a function: what comes of it, and which labels the function
is asked about for that. -/
inductive Evaluation (domain codomain : Size) (f : Label → StateM Memory Label) (before : Memory) :
    Except LabelError Renaming → List Label → Memory → Prop where
  /-- All answers are stored, in order. -/
  | stored {made : Renaming} {after : Memory} (space : made.codomain = codomain)
      (answers : ((Label.range domain.count).mapM f).run before = (made.images.toList, after)) :
      Evaluation domain codomain f before (.ok made) (Label.range domain.count) after
  /-- The answer for a label lies outside the codomain, and those for all labels below it do not. Nothing
  is asked behind it. -/
  | refused {label image : Label} {earlier : List Label} {middle after : Memory}
      (inside : label.Within domain)
      (answers : ((Label.range label.index).mapM f).run before = (earlier, middle))
      (within : ∀ answer ∈ earlier, answer.Within codomain)
      (answer : (f label).run middle = (image, after)) (outside : ¬ image.Within codomain) :
      Evaluation domain codomain f before (.error (.outOfRange image codomain))
        (Label.range (label.index + 1)) after

/-- Renamings are told apart by what is left of them without their proofs. -/
theorem raw_injective : Function.Injective raw := by
  intro table other same
  exact Renaming.ext (congrArg Raw.codomain same) (congrArg Raw.images same)

section Evaluating

variable {domain codomain : Size} {f : Label → StateM Memory Label} {before after : Memory}
  {outcome : Except LabelError (List Label)} {made : Except LabelError Renaming} {asked : List Label}

/-- If all labels are answered, the answers are those of the function, and lie in the codomain. -/
theorem of_run_mapM_checked {labels answers : List Label}
    (answer : (labels.mapM (checked codomain f)).run before = (answers.map .ok, after)) :
    (labels.mapM f).run before = (answers, after) ∧ ∀ answer ∈ answers, answer.Within codomain := by
  have given := run_mapM_map f (·.check codomain) labels before
  obtain ⟨passed, rest⟩ := Prod.mk.inj (given.symm.trans answer)
  obtain ⟨same, within⟩ := Label.of_map_check_eq passed
  rw [same] at within
  exact ⟨Prod.ext same rest, within⟩

/-- Asking up to the first refusal is an evaluation. -/
theorem evaluation_of_asked
    (way : Asked (checked codomain f) (Label.range domain.count) before outcome asked after)
    (same : made.map raw = outcome.map fun answers => ⟨codomain, answers.toArray⟩) :
    Evaluation domain codomain f before made asked after := by
  cases way with
  | @answered answers _ answer =>
    obtain ⟨given, -⟩ := of_run_mapM_checked answer
    cases made with
    | error error => cases same
    | ok table =>
      have fields : table.raw = ⟨codomain, answers.toArray⟩ := Except.ok.inj same
      have images : table.images.toList = answers := congrArg (·.images.toList) fields
      exact .stored (congrArg Raw.codomain fields) (images ▸ given)
  | @refused earlier skipped label answers error middle _ order answer refuse =>
    obtain ⟨inside, rfl⟩ := Label.range_eq_append_cons order
    obtain ⟨given, within⟩ := of_run_mapM_checked answer
    obtain ⟨checkFails, rfl⟩ := Prod.mk.inj refuse
    obtain ⟨outside, rfl⟩ := Label.check_eq_error_iff.mp checkFails
    cases made with
    | error error =>
      obtain rfl := Except.error.inj same
      have asked : Label.range label.index ++ [label] = Label.range (label.index + 1) :=
        (Label.range_succ label.index).symm
      rw [asked]
      exact .refused inside given within rfl outside
    | ok table => cases same

/-- Making a renaming goes one of these ways, and the labels that are asked about are put on the record,
behind those that have been asked about earlier. -/
theorem exists_evaluation (domain codomain : Size) (f : Label → StateM Memory Label) (before : Memory) :
    ∃ made asked after, (ofFnM domain codomain f).run before = (made, after) ∧
      Evaluation domain codomain f before made asked after ∧
      ∀ earlier, (ofFnM domain codomain (onRecord f)).run (before, earlier) =
        (made, after, earlier ++ asked) := by
  obtain ⟨asked, way, recorded⟩ := exists_asked (checked codomain f) (Label.range domain.count) before
  obtain ⟨same, rest⟩ := Prod.mk.inj (run_ofFnM domain codomain f before)
  rw [← rest] at way recorded
  refine ⟨_, asked, _, rfl, evaluation_of_asked way same, fun earlier => ?_⟩
  obtain ⟨sameRecorded, restRecorded⟩ :=
    Prod.mk.inj (run_ofFnM domain codomain (onRecord f) (before, earlier))
  -- The check sees the answers, and the record what has been asked: their order does not matter.
  have checks : checked codomain (onRecord f) = onRecord (checked codomain f) := rfl
  rw [checks, recorded] at sameRecorded restRecorded
  exact Prod.ext (map_injective raw_injective (sameRecorded.trans same.symm)) restRecorded

/-- A renaming comes of it exactly when all answers lie in the codomain. -/
theorem Evaluation.exists_made_iff (evaluation : Evaluation domain codomain f before made asked after) :
    (∃ table, made = .ok table) ↔
      ∀ answer ∈ (((Label.range domain.count).mapM f).run before).1, answer.Within codomain := by
  cases evaluation with
  | @stored table _ space answers =>
    refine iff_of_true ⟨table, rfl⟩ fun answer member => ?_
    rw [answers] at member
    exact space ▸ table.images_within answer (Array.mem_toList_iff.mp member)
  | @refused label image earlier _ _ inside answers within answer outside =>
    refine iff_of_false (by rintro ⟨_, ⟨⟩⟩) fun all => outside (all image ?_)
    obtain ⟨behind, order⟩ := Label.exists_range_eq_append_cons inside
    rw [order, run_mapM_append, answers, run_mapM_cons, answer]
    simp

end Evaluating

/-- The third label is the first one that does not stay below two. The fourth is not asked about. -/
example : (ofFnM (4 : Size) (2 : Size) (onRecord fun label => (pure label : StateM Unit Label))).run
      ((), []) =
    (.error (.outOfRange ⟨2⟩ 2), (), [⟨0⟩, ⟨1⟩, ⟨2⟩]) := by
  rfl

/-- Functions that are the same on the missing labels continue a table in the same way. -/
theorem fillM_congr {m : Type → Type} [Monad m] {codomain : Size} {f g : Label → m Label} {missing : Nat}
    {images : Array Label}
    (agree : ∀ label : Label, label.index < images.size + missing → f label = g label) :
    Raw.fillM codomain f missing images = Raw.fillM codomain g missing images := by
  induction missing generalizing images with
  | zero => rfl
  | succ missing inductionHypothesis =>
    rw [Raw.fillM, Raw.fillM, agree ⟨images.size⟩ (by simp)]
    refine congrArg _ (funext fun image => ?_)
    cases image.check codomain with
    | error error => rfl
    | ok stored =>
      refine inductionHypothesis fun label inside => agree label ?_
      rw [Array.size_push] at inside
      omega

section OfValues

variable {m : Type → Type} [Monad m] [LawfulMonad m]

/-- Where the function is only asked for its values, only they matter. -/
theorem extendM_pure (g : Label → Label) (missing : Nat) (table : Renaming)
    (room : table.images.size + missing < Size.limit) :
    extendM (fun label => (pure (g label) : m Label)) missing table room =
      pure (Id.run (extendM (fun label => pure (g label)) missing table room)) := by
  induction missing generalizing table with
  | zero => rfl
  | succ missing inductionHypothesis =>
    simp only [extendM, pure_bind]
    split
    · exact inductionHypothesis _ _
    · rfl

theorem ofFnM_pure (domain codomain : Size) (g : Label → Label) :
    ofFnM domain codomain (fun label => (pure (g label) : m Label)) =
      pure (ofFn domain codomain g) :=
  extendM_pure g domain.count (empty codomain) _

end OfValues

section OfEntries

variable {domain codomain : Size} {images : Array Label} {entry : Label → Label}
  (count : domain.count = images.size)
  (entries : ∀ label image : Label, images[label.index]? = some image → entry label = image)

include count entries

/-- A table is turned into the renaming that its entries are the values of, and every entry that is asked
for on the way is there. -/
theorem ofArray_raw_eq :
    Raw.ofArray codomain images = ordinary ((ofFn domain codomain entry).map raw) := by
  have counted : Size.ofNat? images.size = some domain := Size.ofNat?_eq_some_iff.mpr count
  have read (label : Label) (inside : label.index < images.size) :
      (Raw.mk codomain images).apply label = pure (entry label) := by
    have found : images[label.index]? = some images[label.index] := Array.getElem?_eq_getElem inside
    rw [Raw.apply, found, entries label _ found]
    rfl
  have filled : Raw.fillM codomain (Raw.mk codomain images).apply domain.count #[] =
      Raw.fillM codomain (fun label => pure (entry label)) domain.count #[] :=
    fillM_congr fun label inside => read label (by simpa [count] using inside)
  have made : Raw.ofFnM domain codomain (Raw.mk codomain images).apply =
      .ok ((ofFn domain codomain entry).map raw) := by
    rw [Raw.ofFnM, filled, ← Raw.ofFnM, ofFnM_raw, ofFnM_pure]
    rfl
  rw [Raw.ofArray, counted]
  simp only [made]
  rfl

/-- With its proofs it is the same renaming. -/
theorem ofArray_eq_ofFn : ofArray codomain images = ofFn domain codomain entry := by
  have same := (agrees_ofArray codomain images).symm.trans (ofArray_raw_eq count entries)
  exact map_injective raw_injective (Except.ok.inj same)

end OfEntries

/-- A renaming that is made by a function, exactly.
* The function is asked about the labels of the domain in order. Either all its answers lie in the codomain
  and are stored, or the first that does not is reported, and nothing is asked behind it.
* A renaming comes of it exactly when all answers lie in the codomain.
* If the function is only asked for its values, nothing but them matters.
* A table is turned into the renaming that its entries are the values of, and no place is looked up in it
  that it does not have. -/
theorem evaluation_exact (domain codomain : Size) (f : Label → StateM Memory Label) (before : Memory)
    (g : Label → Label) (images : Array Label) :
    (∃ made asked after, (ofFnM domain codomain f).run before = (made, after) ∧
      Evaluation domain codomain f before made asked after ∧
      (∀ earlier, (ofFnM domain codomain (onRecord f)).run (before, earlier) =
        (made, after, earlier ++ asked)) ∧
      ((∃ table, made = .ok table) ↔
        ∀ answer ∈ (((Label.range domain.count).mapM f).run before).1, answer.Within codomain)) ∧
    ofFnM domain codomain (fun label => (pure (g label) : StateM Memory Label)) =
      pure (ofFn domain codomain g) ∧
    (domain.count = images.size →
      (∀ label image : Label, images[label.index]? = some image → g label = image) →
        ofArray codomain images = ofFn domain codomain g ∧
          Raw.ofArray codomain images = ordinary ((ofFn domain codomain g).map raw)) ∧
    ∀ breach, Raw.ofArray codomain images ≠ .mk (.error breach) := by
  refine ⟨?_, ofFnM_pure domain codomain g, fun count entries => ?_, fun breach => ?_⟩
  · obtain ⟨made, asked, after, ran, evaluation, recorded⟩ := exists_evaluation domain codomain f before
    exact ⟨made, asked, after, ran, evaluation, recorded, evaluation.exists_made_iff⟩
  · exact ⟨ofArray_eq_ofFn count entries, ofArray_raw_eq count entries⟩
  · exact (agrees_ofArray codomain images).ne_breach breach

end Renaming

end Flowgraph
