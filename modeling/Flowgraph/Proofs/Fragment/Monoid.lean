import Flowgraph.Proofs.Fragment.Placement

/-!
# Placing fragments side by side is a monoid

The two ways to place three fragments side by side nest their interchanges differently, and come to
the same: the places of each part agree label by label, so the fragments are equal, and no renaming
stands between them. They agree in failing as well, because a nested append fails exactly when all
labels together are too many. The fragment without any labels is neutral.
-/

namespace Flowgraph.Fragment

variable {Inst Cond : Type} {first second third : Fragment Inst Cond}

/-- Both sides of the code of three fragments have a size when they are placed side by side. -/
structure FitTogether (first second third : Fragment Inst Cond) : Prop where
  entries : first.internal.count + second.internal.count + third.internal.count +
    first.inputs.count + second.inputs.count + third.inputs.count < Size.limit
  exits : first.internal.count + second.internal.count + third.internal.count +
    first.outputs.count + second.outputs.count + third.outputs.count < Size.limit

section Nested

variable {early late left right : Fragment Inst Cond}

/-- Three fragments side by side are the same fragment in whichever order they are put together. -/
theorem append_append_eq (earlyMade : first.append second = .ok early)
    (leftMade : early.append third = .ok left) (lateMade : second.append third = .ok late)
    (rightMade : first.append late = .ok right) : left = right := by
  obtain ⟨earlyInternal, earlyInputs, earlyOutputs⟩ := counts_append earlyMade
  obtain ⟨lateInternal, lateInputs, lateOutputs⟩ := counts_append lateMade
  obtain ⟨leftInternal, leftInputs, leftOutputs⟩ := counts_append leftMade
  obtain ⟨rightInternal, rightInputs, rightOutputs⟩ := counts_append rightMade
  refine eq_of_get? (Size.ext (by omega)) (Size.ext (by omega)) (Size.ext (by omega)) ?_
  intro label inside
  rcases append_cases leftMade inside with ⟨inner, innerInside, rfl⟩ | ⟨inner, innerInside, rfl⟩
  · rcases append_cases earlyMade innerInside with ⟨part, partInside, rfl⟩ | ⟨part, partInside, rfl⟩
    · have inLeft := (placed_append_left earlyMade).trans (placed_append_left leftMade)
      refine inLeft.block_eq (placed_append_left rightMade) ?_ ?_ partInside
      · intro label _
        rw [earlyInternal, lateInternal, Label.makeRoom_makeRoom]
      · intro label _
        rw [earlyInternal, lateInternal, Label.makeRoom_makeRoom]
    · have inLeft := (placed_append_right earlyMade).trans (placed_append_left leftMade)
      have inRight := (placed_append_left lateMade).trans (placed_append_right rightMade)
      refine inLeft.block_eq inRight ?_ ?_ partInside
      · intro label _
        ext
        grind
      · intro label _
        ext
        grind
  · have inRight := (placed_append_right lateMade).trans (placed_append_right rightMade)
    refine (placed_append_right leftMade).block_eq inRight ?_ ?_ innerInside
    · intro label _
      ext
      grind
    · intro label _
      ext
      grind

end Nested

/-- Three fragments that fit together can be put together in either order. -/
theorem exists_append_append (fit : FitTogether first second third) :
    ∃ whole, (first.append second >>= fun both => both.append third) = .ok whole ∧
      (second.append third >>= fun both => first.append both) = .ok whole := by
  obtain ⟨entries, exits⟩ := fit
  obtain ⟨early, earlyMade⟩ := exists_append first second (by omega) (by omega)
  obtain ⟨late, lateMade⟩ := exists_append second third (by omega) (by omega)
  obtain ⟨earlyInternal, earlyInputs, earlyOutputs⟩ := counts_append earlyMade
  obtain ⟨lateInternal, lateInputs, lateOutputs⟩ := counts_append lateMade
  obtain ⟨left, leftMade⟩ := exists_append early third (by omega) (by omega)
  obtain ⟨right, rightMade⟩ := exists_append first late (by omega) (by omega)
  obtain rfl := append_append_eq earlyMade leftMade lateMade rightMade
  exact ⟨left, bind_eq_ok_iff.mpr ⟨early, earlyMade, leftMade⟩,
    bind_eq_ok_iff.mpr ⟨late, lateMade, rightMade⟩⟩

/-- Fragments that do not fit together have too many labels on one side of their code. -/
theorem wide_of_not_fitTogether (wide : ¬ FitTogether first second third) :
    Size.limit ≤ first.internal.count + second.internal.count + third.internal.count +
        first.inputs.count + second.inputs.count + third.inputs.count ∨
      Size.limit ≤ first.internal.count + second.internal.count + third.internal.count +
        first.outputs.count + second.outputs.count + third.outputs.count := by
  refine Classical.byContradiction fun narrow => wide ⟨?_, ?_⟩ <;> omega

/-- Three fragments that do not fit together cannot be put together from the left. -/
theorem append_bind_eq_overflow (wide : ¬ FitTogether first second third) :
    (first.append second >>= fun both => both.append third) = .error (.label .overflow) := by
  have tooMany := wide_of_not_fitTogether wide
  rw [bind_eq_error_iff]
  cases made : first.append second with
  | error error =>
    obtain ⟨-, rfl⟩ := append_eq_error_iff.mp made
    exact .inl rfl
  | ok both =>
    obtain ⟨internal, inputs, outputs⟩ := counts_append made
    exact .inr ⟨both, rfl, append_eq_error_iff.mpr ⟨by omega, rfl⟩⟩

/-- Nor can they from the right. -/
theorem bind_append_eq_overflow (wide : ¬ FitTogether first second third) :
    (second.append third >>= fun both => first.append both) = .error (.label .overflow) := by
  have tooMany := wide_of_not_fitTogether wide
  rw [bind_eq_error_iff]
  cases made : second.append third with
  | error error =>
    obtain ⟨-, rfl⟩ := append_eq_error_iff.mp made
    exact .inl rfl
  | ok both =>
    obtain ⟨internal, inputs, outputs⟩ := counts_append made
    exact .inr ⟨both, rfl, append_eq_error_iff.mpr ⟨by omega, rfl⟩⟩

section Neutral

variable (fragment : Fragment Inst Cond)

/-- The fragment without labels goes before any other without being seen. -/
theorem identity_zero_append : (identity .zero).append fragment = .ok fragment := by
  obtain ⟨entries, exits⟩ := fragment.counts_fit
  obtain ⟨both, made⟩ := exists_append (identity .zero) fragment
    (by simpa [identity] using entries) (by simpa [identity] using exits)
  obtain ⟨internal, inputs, outputs⟩ := counts_append made
  simp only [identity, internal_ofRenaming, inputs_ofRenaming, outputs_ofRenaming,
    Renaming.domain_identity, Renaming.codomain_identity, Size.count_zero, Nat.zero_add]
    at internal inputs outputs
  rw [made, eq_of_get? (Size.ext internal.symm) (Size.ext inputs.symm) (Size.ext outputs.symm)]
  intro label inside
  have block := (placed_append_right made).block label inside
  simpa [identity] using block.symm

/-- It goes behind any other in the same way. -/
theorem append_identity_zero : fragment.append (identity .zero) = .ok fragment := by
  obtain ⟨entries, exits⟩ := fragment.counts_fit
  obtain ⟨both, made⟩ := exists_append fragment (identity .zero)
    (by simpa [identity] using entries) (by simpa [identity] using exits)
  obtain ⟨internal, inputs, outputs⟩ := counts_append made
  simp only [identity, internal_ofRenaming, inputs_ofRenaming, outputs_ofRenaming,
    Renaming.domain_identity, Renaming.codomain_identity, Size.count_zero, Nat.add_zero]
    at internal inputs outputs
  rw [made, eq_of_get? (Size.ext internal.symm) (Size.ext inputs.symm) (Size.ext outputs.symm)]
  intro label inside
  have block := (placed_append_left made).block label inside
  simpa [identity] using block.symm

end Neutral

/-- Placing fragments side by side is a monoid, on the nose. Both ways to place three of them either
make the same fragment or are both refused because there are too many labels; and the fragment
without labels is neutral on both sides. -/
theorem append_monoid (first second third : Fragment Inst Cond) :
    ((∃ whole, (first.append second >>= fun both => both.append third) = .ok whole ∧
          (second.append third >>= fun both => first.append both) = .ok whole) ∨
        ((first.append second >>= fun both => both.append third) = .error (.label .overflow) ∧
          (second.append third >>= fun both => first.append both) = .error (.label .overflow))) ∧
      (identity .zero).append first = .ok first ∧ first.append (identity .zero) = .ok first := by
  refine ⟨?_, identity_zero_append first, append_identity_zero first⟩
  by_cases fit : FitTogether first second third
  · exact .inl (exists_append_append fit)
  · exact .inr ⟨append_bind_eq_overflow fit, bind_append_eq_overflow fit⟩

end Flowgraph.Fragment
