import Flowgraph.Proofs.Raw.Operations

/-!
# Agreement with and without proofs

`Unguarded.Agrees` relates a computation on data without proofs to one on data with them: both
refuse with the same error, or both return, and the first returns what is left of the second when
the proofs are forgotten. In neither case does the first one break down.

Agreement is kept by sequences of steps and by choices. So most operations agree because their steps
do, and only those that look something up have anything to show.
-/

namespace Flowgraph

variable {E F A B C D : Type}

namespace Unguarded

/-- The raw computation does what the checked one does, and erases what it returns. -/
def Agrees (raw : Unguarded E A) (erase : B → A) (checked : Except E B) : Prop :=
  raw = ordinary (checked.map erase)

/-- A trusted step that comes out can be left out. -/
@[simp] theorem trusting_ok_bind (value : A) (next : A → Unguarded E B) :
    (trusting (.ok value) >>= next) = next value := rfl

@[simp] theorem ordinary_ok_bind (value : A) (next : A → Unguarded E B) :
    (ordinary (.ok value) >>= next) = next value := rfl

/-- Refusals agree when they report the same. -/
theorem agrees_error (erase : B → A) (error : E) :
    Agrees (ordinary (.error error)) erase (.error error) := rfl

/-- A trusted step agrees with a value when it returns the erased value. -/
theorem agrees_trusting {step : Except Breach A} {erase : B → A} {value : B}
    (returned : step = .ok (erase value)) : Agrees (E := E) (trusting step) erase (.ok value) := by
  rw [returned]
  rfl

/-- A step that is the same on both sides agrees with itself. -/
theorem agrees_ordinary (outcome : Except E A) : Agrees (ordinary outcome) id outcome := by
  cases outcome <;> rfl

/-- Reporting errors differently keeps the agreement. -/
theorem Agrees.adapt {raw : Unguarded E A} {erase : B → A} {checked : Except E B}
    (agrees : Agrees raw erase checked) (report : E → F) :
    Agrees (ExceptT.adapt report raw) erase (checked.mapError report) := by
  rw [Agrees] at agrees
  rw [agrees]
  cases checked <;> rfl

/-- A sequence agrees with another when the first steps agree, and the others do after them. -/
theorem Agrees.bind {raw : Unguarded E A} {erase : B → A} {checked : Except E B}
    {rawNext : A → Unguarded E C} {eraseNext : D → C} {next : B → Except E D}
    (agrees : Agrees raw erase checked)
    (later : ∀ value, Agrees (rawNext (erase value)) eraseNext (next value)) :
    Agrees (raw >>= rawNext) eraseNext (checked >>= next) := by
  rw [Agrees] at agrees
  rw [agrees]
  cases checked with
  | error error => exact agrees_error eraseNext error
  | ok value => exact later value

/-- The same where the first step is a sum of sizes, and the checked computation keeps that it has
a size. -/
theorem agrees_sum {left right : Size} {report : LabelError → E} {rawNext : Size → Unguarded E A}
    {erase : B → A} {next : ∀ total, left.sum right = .ok total → Except E B}
    (later : ∀ total found, Agrees (rawNext total) erase (next total found)) :
    Agrees (ordinary ((left.sum right).mapError report) >>= rawNext) erase
      (match found : left.sum right with
        | .error error => .error (report error)
        | .ok total => next total found) := by
  split
  · rename_i error found
    rw [found]
    exact agrees_error erase _
  · rename_i total found
    have step : ordinary ((left.sum right).mapError report) = ordinary (.ok total) := by
      rw [found]
      rfl
    rw [step]
    exact later total found

section Outcomes

variable {raw : Unguarded E A} {erase : B → A} {checked : Except E B}

/-- What agrees with a computation with proofs does not break down. -/
theorem Agrees.ne_breach (agrees : Agrees raw erase checked) (breach : Breach) :
    raw ≠ .mk (.error breach) := by
  rw [Agrees] at agrees
  rw [agrees]
  rintro ⟨⟩

/-- It returns what is left of a value that is returned with proofs. -/
theorem Agrees.eq_ok_iff (agrees : Agrees raw erase checked) {value : A} :
    raw = ordinary (.ok value) ↔ ∃ proved, checked = .ok proved ∧ erase proved = value := by
  rw [Agrees] at agrees
  rw [agrees]
  cases checked with
  | error error => exact iff_of_false (by rintro ⟨⟩) (by rintro ⟨_, ⟨⟩, _⟩)
  | ok proved =>
    constructor
    · rintro ⟨⟩
      exact ⟨proved, rfl, rfl⟩
    · rintro ⟨_, ⟨⟩, rfl⟩
      rfl

/-- It refuses where the other does. -/
theorem Agrees.eq_error_iff (agrees : Agrees raw erase checked) {error : E} :
    raw = ordinary (.error error) ↔ checked = .error error := by
  rw [Agrees] at agrees
  rw [agrees]
  cases checked with
  | error reported =>
    constructor
    · rintro ⟨⟩
      rfl
    · rintro ⟨⟩
      rfl
  | ok proved => exact iff_of_false (by rintro ⟨⟩) (by rintro ⟨⟩)

end Outcomes

section Choice

variable {condition : Prop} [Decidable condition] {raw rawOther : Unguarded E A} {erase : B → A}

/-- A choice agrees with a computation when both ways do. -/
theorem agrees_choice {checked : Except E B} (holds : condition → Agrees raw erase checked)
    (fails : ¬ condition → Agrees rawOther erase checked) :
    Agrees (if condition then raw else rawOther) erase checked := by
  split
  · exact holds ‹_›
  · exact fails ‹_›

/-- A choice agrees with the same choice when both ways do. -/
theorem agrees_ite {checked other : Except E B} (holds : condition → Agrees raw erase checked)
    (fails : ¬ condition → Agrees rawOther erase other) :
    Agrees (if condition then raw else rawOther) erase (if condition then checked else other) := by
  split
  · exact holds ‹_›
  · exact fails ‹_›

/-- The same where the checked computation keeps what the choice has shown. -/
theorem agrees_dite {checked : condition → Except E B} {other : ¬ condition → Except E B}
    (holds : ∀ proof, Agrees raw erase (checked proof))
    (fails : ∀ proof, Agrees rawOther erase (other proof)) :
    Agrees (if condition then raw else rawOther) erase
      (if proof : condition then checked proof else other proof) := by
  split
  · exact holds _
  · exact fails _

end Choice

end Unguarded

end Flowgraph
