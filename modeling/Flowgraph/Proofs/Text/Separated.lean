import Mathlib

/-!
# Texts that can be taken apart

A text that is made of pieces with a separator between them can be taken apart again when the pieces do
without the first character of the separator. That is all that is needed of a text of several levels: on
each of them, the pieces have to do without the separators of this level and of those around it. Numbers
consist of digits and a sign, and so they do without any separator.
-/

namespace Flowgraph.Text

variable {marks : List Char}

/-- Whether a text does without the given characters. -/
def Avoids (marks : List Char) (text : String) : Prop := ∀ mark ∈ marks, mark ∉ text.toList

@[simp] theorem avoids_append (left right : String) :
    Avoids marks (left ++ right) ↔ Avoids marks left ∧ Avoids marks right := by
  simp only [Avoids, String.toList_append, List.mem_append, not_or]
  exact forall₂_and

/-- A text that does without some characters does without fewer. -/
theorem Avoids.mono {fewer : List Char} {text : String} (avoids : Avoids marks text)
    (fewerMarks : fewer ⊆ marks) : Avoids fewer text :=
  fun mark member => avoids mark (fewerMarks member)

/-- Texts are different if they begin with different characters. -/
theorem ne_of_head?_ne {left right : String} (apart : left.toList.head? ≠ right.toList.head?) :
    left ≠ right :=
  fun same => apart (same ▸ rfl)

section Numbers

variable (others : ∀ mark ∈ marks, ¬ mark.isDigit)

include others

/-- A natural number is written in digits. -/
theorem avoids_natural (number : Nat) : Avoids marks (toString number) := by
  intro mark member digit
  apply others mark member
  rw [Nat.toString_eq_repr, Nat.toList_repr] at digit
  exact Nat.isDigit_of_mem_toDigits (by decide) (by decide) digit

/-- An integer is written in digits, with a sign in front if it is negative. -/
theorem avoids_integer (unsigned : '-' ∉ marks) (number : Int) :
    Avoids marks (toString number) := by
  rw [Int.toString_eq_repr, Int.repr_eq_if]
  split
  · exact avoids_natural others _
  · have sign : Avoids marks "-" := by
      intro mark member minus
      obtain rfl : mark = '-' := by simpa using minus
      exact unsigned member
    exact (avoids_append _ _).mpr ⟨sign, avoids_natural others _⟩

end Numbers

/-- Lists with a separator between them are determined by the whole, when none of them has the first
element of the separator. -/
theorem lists_eq_of_intercalate_eq {A : Type} [DecidableEq A] (mark : A) (more : List A)
    {pieces others : List (List A)}
    (piecesAvoid : ∀ piece ∈ pieces, mark ∉ piece) (othersAvoid : ∀ piece ∈ others, mark ∉ piece)
    (nonempty : pieces ≠ []) (othersNonempty : others ≠ [])
    (same : (mark :: more).intercalate pieces = (mark :: more).intercalate others) :
    pieces = others := by
  induction pieces generalizing others with
  | nil => exact absurd rfl nonempty
  | cons piece rest inductionHypothesis =>
    obtain ⟨other, otherRest, rfl⟩ := List.exists_cons_of_ne_nil othersNonempty
    have pieceAvoids := piecesAvoid piece (.head _)
    have otherAvoids := othersAvoid other (.head _)
    cases rest with
    | nil =>
      cases otherRest with
      | nil => simpa using same
      | cons next last =>
        -- Then a piece would begin with the other one and go on with a separator.
        rw [List.intercalate_singleton, List.intercalate_cons_cons] at same
        exact absurd (same ▸ by simp) pieceAvoids
    | cons following behind =>
      cases otherRest with
      | nil =>
        rw [List.intercalate_singleton, List.intercalate_cons_cons] at same
        exact absurd (same ▸ by simp) otherAvoids
      | cons next last =>
        simp only [List.intercalate_cons_cons, List.append_assoc, List.cons_append] at same
        -- Both of the first pieces reach to the first separator.
        have lengths : piece.length = other.length := by
          have first := congrArg (List.idxOf mark) same
          rwa [List.idxOf_append_of_notMem pieceAvoids, List.idxOf_append_of_notMem otherAvoids,
            List.idxOf_cons_self, List.idxOf_cons_self, Nat.add_zero, Nat.add_zero] at first
        obtain ⟨rfl, later⟩ := List.append_inj same lengths
        rw [List.cons_inj_right, List.append_cancel_left_eq] at later
        rw [inductionHypothesis (fun piece member => piecesAvoid piece (.tail _ member))
          (fun piece member => othersAvoid piece (.tail _ member)) (List.cons_ne_nil _ _)
          (List.cons_ne_nil _ _) later]

/-- So are texts, when the pieces avoid what the separator begins with. -/
theorem pieces_eq_of_intercalate_eq (mark : Char) {separator : String} {pieces others : List String}
    (begins : separator.toList.head? = some mark) (avoided : mark ∈ marks)
    (piecesAvoid : ∀ piece ∈ pieces, Avoids marks piece)
    (othersAvoid : ∀ piece ∈ others, Avoids marks piece) (nonempty : pieces ≠ [])
    (othersNonempty : others ≠ [])
    (same : separator.intercalate pieces = separator.intercalate others) : pieces = others := by
  obtain ⟨more, spelled⟩ := List.head?_eq_some_iff.mp begins
  have lists : pieces.map String.toList = others.map String.toList := by
    apply lists_eq_of_intercalate_eq mark more
    · exact List.forall_mem_map.mpr fun piece member => piecesAvoid piece member mark avoided
    · exact List.forall_mem_map.mpr fun piece member => othersAvoid piece member mark avoided
    · simpa using nonempty
    · simpa using othersNonempty
    · rw [← spelled, ← String.toList_intercalate, ← String.toList_intercalate, same]
  exact (List.map_inj_right fun _ _ => String.toList_inj.mp).mp lists

/-- What the pieces and the separator do without, the whole does without. -/
theorem avoids_intercalate {separator : String} {pieces : List String}
    (separatorAvoids : Avoids marks separator) (piecesAvoid : ∀ piece ∈ pieces, Avoids marks piece) :
    Avoids marks (separator.intercalate pieces) := by
  induction pieces with
  | nil => simp [Avoids]
  | cons piece rest inductionHypothesis =>
    obtain ⟨first, others⟩ := List.forall_mem_cons.mp piecesAvoid
    cases rest with
    | nil => exact String.intercalate_singleton ▸ first
    | cons next behind =>
      rw [String.intercalate_cons_cons, avoids_append, avoids_append]
      exact ⟨⟨first, separatorAvoids⟩, inductionHypothesis others⟩

/-- It is the same to put a separator behind each text before the last one. -/
theorem join_append_eq_intercalate (separator last : String) (pieces : List String) :
    String.join (pieces.map (· ++ separator)) ++ last = separator.intercalate (pieces ++ [last]) := by
  induction pieces with
  | nil => simp
  | cons piece rest inductionHypothesis =>
    rw [List.map_cons, String.join_cons, List.cons_append,
      String.intercalate_cons_of_ne_nil (by simp), ← inductionHypothesis, String.append_assoc]

end Flowgraph.Text
