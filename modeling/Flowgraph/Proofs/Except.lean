import Mathlib.Data.List.Forall2

/-!
# Stepwise computations that can fail

The operations of this library are written as sequences of steps, each of which can fail. The
statements here take a sequence apart into its steps: one that came out well into all of them, and
one that failed into those up to the first failure.
-/

namespace Flowgraph

variable {E F A B : Type}

/-- A sequence comes out well exactly when its first step does and the others do after it. -/
theorem bind_eq_ok_iff {first : Except E A} {next : A → Except E B} {result : B} :
    (first >>= next) = .ok result ↔ ∃ value, first = .ok value ∧ next value = .ok result := by
  cases first with
  | error error => simp [bind, Except.bind]
  | ok value => simp [bind, Except.bind]

/-- After a step that has come out, a sequence goes on with its value. -/
theorem ok_bind (value : A) (next : A → Except E B) : (Except.ok value >>= next) = next value :=
  rfl

/-- A sequence without steps comes out as the value it was given. -/
theorem pure_eq_ok_iff {value result : A} :
    (pure value : Except E A) = .ok result ↔ value = result := by
  simp [pure, Except.pure]

/-- Reporting failures differently does not change what comes out well. -/
theorem mapError_eq_ok_iff {report : E → F} {step : Except E A} {result : A} :
    step.mapError report = .ok result ↔ step = .ok result := by
  cases step with
  | error error =>
    constructor <;> intro same <;> cases same
  | ok value =>
    constructor <;> rintro ⟨⟩ <;> rfl

/-- A sequence fails when its first step does, or when the others do after it. -/
theorem bind_eq_error_iff {first : Except E A} {next : A → Except E B} {error : E} :
    (first >>= next) = .error error ↔
      first = .error error ∨ ∃ value, first = .ok value ∧ next value = .error error := by
  cases first with
  | error error => simp [bind, Except.bind]
  | ok value => simp [bind, Except.bind]

/-- Failures that are reported differently are those of the step. -/
theorem mapError_eq_error_iff {report : E → F} {step : Except E A} {reported : F} :
    step.mapError report = .error reported ↔ ∃ error, step = .error error ∧ report error = reported := by
  cases step with
  | error error =>
    constructor
    · rintro ⟨⟩
      exact ⟨error, rfl, rfl⟩
    · rintro ⟨_, ⟨⟩, rfl⟩
      rfl
  | ok value =>
    constructor
    · intro same
      cases same
    · rintro ⟨_, ⟨⟩, _⟩

/-- A sequence fails in only one way when all of its steps do. -/
theorem eq_of_bind_eq_error {first : Except E A} {next : A → Except E B} {error reported : E}
    (firstFails : ∀ reported, first = .error reported → reported = error)
    (laterFails : ∀ value reported, next value = .error reported → reported = error)
    (failed : (first >>= next) = .error reported) : reported = error := by
  rcases bind_eq_error_iff.mp failed with failed | ⟨value, -, failed⟩
  · exact firstFails reported failed
  · exact laterFails value reported failed

/-- Computations that fail in only one way are the same when they come out in the same way. -/
theorem eq_of_eq_ok_iff {left right : Except E A} {error : E}
    (leftFails : ∀ reported, left = .error reported → reported = error)
    (rightFails : ∀ reported, right = .error reported → reported = error)
    (same : ∀ result, left = .ok result ↔ right = .ok result) : left = right := by
  cases found : left with
  | ok result => exact ((same result).mp found).symm
  | error reported =>
    cases other : right with
    | ok result => cases found.symm.trans ((same result).mpr other)
    | error otherReported => rw [leftFails reported found, rightFails otherReported other]

/-- Doing the same to what comes out tells computations apart if it tells results apart. -/
theorem map_injective {f : A → B} (injective : Function.Injective f) :
    Function.Injective (Except.map f : Except E A → Except E B) := by
  intro left right same
  cases left with
  | error error =>
    cases right with
    | error other => exact congrArg _ (Except.error.inj same)
    | ok result => cases same
  | ok result =>
    cases right with
    | error error => cases same
    | ok other => exact congrArg _ (injective (Except.ok.inj same))

/-- What never fails comes out well. -/
theorem exists_ok_of_ne_error {step : Except E A} (sound : ∀ error, step ≠ .error error) :
    ∃ result, step = .ok result := by
  cases step with
  | error error => exact absurd rfl (sound error)
  | ok result => exact ⟨result, rfl⟩

/-- A list is traversed without failure exactly when every step comes out, and then the results are
those of the steps, in order. -/
theorem mapM_list_eq_ok_iff {step : A → Except E B} {items : List A} {results : List B} :
    items.mapM step = .ok results ↔
      List.Forall₂ (fun item result => step item = .ok result) items results := by
  induction items generalizing results with
  | nil => rw [List.mapM_nil, pure_eq_ok_iff, List.forall₂_nil_left_iff, eq_comm]
  | cons item rest inductionHypothesis =>
    simp only [List.mapM_cons, bind_eq_ok_iff, pure_eq_ok_iff, inductionHypothesis,
      List.forall₂_cons_left_iff]
    constructor
    · rintro ⟨result, first, later, others, rfl⟩
      exact ⟨result, later, first, others, rfl⟩
    · rintro ⟨result, later, first, others, rfl⟩
      exact ⟨result, first, later, others, rfl⟩

/-- A list is traversed with a failure exactly when some step fails, and the failure is that of the first
step that does. -/
theorem mapM_list_eq_error_iff {step : A → Except E B} {fault? : A → Option E}
    (faults : ∀ item error, step item = .error error ↔ fault? item = some error)
    {items : List A} {error : E} :
    items.mapM step = .error error ↔ items.findSome? fault? = some error := by
  induction items with
  | nil => simp [pure, Except.pure]
  | cons item rest inductionHypothesis =>
    rw [List.mapM_cons, List.findSome?_cons, bind_eq_error_iff]
    cases found : fault? item with
    | some first =>
      rw [(faults item first).mpr found]
      simp
    | none =>
      obtain ⟨result, stepped⟩ := exists_ok_of_ne_error fun error failed =>
        Option.some_ne_none error (((faults item error).mp failed).symm.trans found)
      simp only [stepped, bind_eq_error_iff, inductionHypothesis]
      simp [pure, Except.pure]

/-- An array is traversed without failure when every step comes out. -/
theorem mapM_array_eq_ok {step : A → Except E B} {items : Array A} {results : Array B}
    (sizes : items.size = results.size)
    (steps : ∀ index (inside : index < items.size) (placed : index < results.size),
      step items[index] = .ok results[index]) :
    items.mapM step = .ok results := by
  have traversed : items.toList.mapM step = .ok results.toList :=
    mapM_list_eq_ok_iff.mpr (List.forall₂_iff_get.mpr ⟨sizes, steps⟩)
  rw [Array.mapM_eq_mapM_toList, traversed]
  rfl

end Flowgraph
