import Flowgraph.Proofs.Fragment.Sequence
import Flowgraph.Proofs.Raw.Fragment

/-!
# When fragments cannot be combined

A combination is made in many steps, each with checks of its own, and yet it is refused for few reasons:
an interface does not fit, more labels are to be hidden than there are, or one side of the code gets too
large. All other checks on the way repeat what the fragments that are combined already guarantee. For
each way to combine fragments, the statements here say of every failure when it is the one reported.

The same holds of the combinations on data without proofs, which make all these checks anew.
-/

namespace Flowgraph.Fragment

open Unguarded

variable {Inst Cond : Type} {fragment other : Fragment Inst Cond} {error : FragmentError}

section Relabel

variable {f g : Renaming} (inputsAgree : f.codomain = fragment.inputs)
  (outputsAgree : g.domain = fragment.outputs)

include inputsAgree outputsAgree

/-- Renamings that fit the interface are refused if a side of the code gets too large with them. -/
theorem relabel_eq_overflow
    (wide : Size.limit ≤ fragment.internal.count + f.domain.count ∨
      Size.limit ≤ fragment.internal.count + g.codomain.count) :
    fragment.relabel f g = .error (.label .overflow) := by
  rw [relabel, if_neg (Classical.not_not.mpr inputsAgree),
    if_neg (Classical.not_not.mpr outputsAgree), bind_eq_error_iff]
  cases entriesMade : (Renaming.identity fragment.internal).sum f with
  | error failure =>
    obtain ⟨-, rfl⟩ := Renaming.sum_eq_error_iff.mp entriesMade
    exact .inl rfl
  | ok entries =>
    -- The entries have a size, so it is the exits that do not.
    have entriesFit := entries.domain.fits
    rw [Renaming.count_domain_sum entriesMade, Renaming.domain_identity] at entriesFit
    have exitsFailed : (Renaming.identity fragment.internal).sum g = .error .overflow := by
      apply Renaming.sum_eq_error_iff.mpr
      rw [Renaming.codomain_identity]
      exact ⟨.inl (by omega), rfl⟩
    refine .inr ⟨entries, rfl, bind_eq_error_iff.mpr (.inl ?_)⟩
    rw [exitsFailed]
    rfl

/-- And they are refused for no other reason. -/
theorem relabel_eq_error_iff_of_agree :
    fragment.relabel f g = .error error ↔
      (Size.limit ≤ fragment.internal.count + f.domain.count ∨
        Size.limit ≤ fragment.internal.count + g.codomain.count) ∧ error = .label .overflow := by
  constructor
  · intro refused
    have wide : Size.limit ≤ fragment.internal.count + f.domain.count ∨
        Size.limit ≤ fragment.internal.count + g.codomain.count := by
      apply Classical.byContradiction
      intro narrow
      obtain ⟨renamed, made⟩ := exists_relabel fragment f g inputsAgree outputsAgree (by omega)
        (by omega)
      rw [made] at refused
      cases refused
    rw [relabel_eq_overflow inputsAgree outputsAgree wide] at refused
    cases refused
    exact ⟨wide, rfl⟩
  · rintro ⟨wide, rfl⟩
    exact relabel_eq_overflow inputsAgree outputsAgree wide

end Relabel

/-- Renaming an interface is refused for the first of three reasons that applies: the renaming of the
entries does not fit, or that of the exits does not, or a side of the code gets too large. -/
theorem relabel_eq_error_iff {f g : Renaming} :
    fragment.relabel f g = .error error ↔
      (f.codomain ≠ fragment.inputs ∧
          error = .sizeMismatch "input renaming" fragment.inputs f.codomain) ∨
        (f.codomain = fragment.inputs ∧ g.domain ≠ fragment.outputs ∧
            error = .sizeMismatch "output renaming" fragment.outputs g.domain) ∨
          (f.codomain = fragment.inputs ∧ g.domain = fragment.outputs ∧
            (Size.limit ≤ fragment.internal.count + f.domain.count ∨
              Size.limit ≤ fragment.internal.count + g.codomain.count) ∧
                error = .label .overflow) := by
  by_cases inputsAgree : f.codomain = fragment.inputs
  · by_cases outputsAgree : g.domain = fragment.outputs
    · rw [relabel_eq_error_iff_of_agree inputsAgree outputsAgree]
      simp only [inputsAgree, outputsAgree, ne_eq, not_true_eq_false, false_and, false_or, true_and]
    · rw [relabel, if_neg (Classical.not_not.mpr inputsAgree), if_pos outputsAgree]
      simp [inputsAgree, outputsAgree, eq_comm]
  · rw [relabel, if_pos inputsAgree]
    simp [inputsAgree, eq_comm]

/-- Linking is refused when it is too wide for one side of the interface, and for no other reason. -/
theorem link_eq_error_iff {width : Size} :
    fragment.link width = .error error ↔
      (fragment.inputs.count < width.count ∨ fragment.outputs.count < width.count) ∧
        error = .linkTooWide width fragment.inputs fragment.outputs := by
  by_cases fitting :
    width.count ≤ fragment.inputs.count ∧ width.count ≤ fragment.outputs.count
  · obtain ⟨linked, made⟩ := fragment.exists_link width fitting.1 fitting.2
    simp only [made, reduceCtorEq, false_iff]
    omega
  · have wide : fragment.inputs.count < width.count ∨ fragment.outputs.count < width.count := by
      omega
    rw [link, dif_neg fitting]
    simp [wide, eq_comm]

/-- Fragments that meet in one interface cannot be put in sequence exactly when they cannot be placed
side by side. -/
theorem seq_eq_error_iff_of_agree (agree : fragment.outputs = other.inputs) :
    fragment.seq other = .error error ↔
      (Size.limit ≤ fragment.internal.count + other.internal.count + fragment.inputs.count +
          fragment.outputs.count ∨
        Size.limit ≤ fragment.internal.count + other.internal.count + fragment.outputs.count +
          other.outputs.count) ∧ error = .label .overflow := by
  have interface := congrArg Size.count agree
  have appendRefused := @append_eq_error_iff _ _ fragment other error
  rw [← agree] at appendRefused
  rw [← appendRefused]
  constructor
  · intro refused
    cases joinedMade : fragment.append other with
    | error reported =>
      rw [seq, if_neg (Classical.not_not.mpr agree), joinedMade] at refused
      exact refused
    | ok joined =>
      -- Placed side by side, they have sizes, and these are all that a sequence needs.
      obtain ⟨internal, inputs, outputs⟩ := counts_append joinedMade
      obtain ⟨entriesFit, exitsFit⟩ := joined.counts_fit
      obtain ⟨both, made⟩ := exists_seq fragment other agree (by omega) (by omega)
      rw [made] at refused
      cases refused
  · intro refused
    rw [seq, if_neg (Classical.not_not.mpr agree), refused]
    rfl

/-- Putting fragments in sequence is refused for the first of two reasons that applies: they do not meet
in one interface, or a side of the code gets too large. -/
theorem seq_eq_error_iff :
    fragment.seq other = .error error ↔
      (fragment.outputs ≠ other.inputs ∧
          error = .sizeMismatch "sequenced interface" fragment.outputs other.inputs) ∨
        (fragment.outputs = other.inputs ∧
          (Size.limit ≤ fragment.internal.count + other.internal.count + fragment.inputs.count +
              fragment.outputs.count ∨
            Size.limit ≤ fragment.internal.count + other.internal.count + fragment.outputs.count +
              other.outputs.count) ∧ error = .label .overflow) := by
  by_cases agree : fragment.outputs = other.inputs
  · rw [seq_eq_error_iff_of_agree agree]
    simp only [agree, ne_eq, not_true_eq_false, false_and, false_or, true_and]
  · rw [seq, if_pos agree]
    simp [agree, eq_comm]

/-- Fragments are combined unless they must be refused, and then it is said why.

An append fails when one side of the code gets too large; a renaming of the interface when the renaming
of the entries does not fit, else when that of the exits does not, else when a side of the code gets too
large; a link when it is too wide; and a sequence when the interfaces do not meet, else when a side of
the code gets too large. So the code itself is never at fault, a sequence is never reported as one of
its steps would be, and no link has too many labels. Nor is any of this owed to proofs that save a
check: on data without proofs, the four come to the same. -/
theorem combine_refused_iff (fragment other : Fragment Inst Cond) (f g : Renaming) (width : Size) :
    (∀ error, fragment.append other = .error error ↔
      (Size.limit ≤ fragment.internal.count + other.internal.count + fragment.inputs.count +
          other.inputs.count ∨
        Size.limit ≤ fragment.internal.count + other.internal.count + fragment.outputs.count +
          other.outputs.count) ∧ error = .label .overflow) ∧
    (∀ error, fragment.relabel f g = .error error ↔
      (f.codomain ≠ fragment.inputs ∧
          error = .sizeMismatch "input renaming" fragment.inputs f.codomain) ∨
        (f.codomain = fragment.inputs ∧ g.domain ≠ fragment.outputs ∧
            error = .sizeMismatch "output renaming" fragment.outputs g.domain) ∨
          (f.codomain = fragment.inputs ∧ g.domain = fragment.outputs ∧
            (Size.limit ≤ fragment.internal.count + f.domain.count ∨
              Size.limit ≤ fragment.internal.count + g.codomain.count) ∧
                error = .label .overflow)) ∧
    (∀ error, fragment.link width = .error error ↔
      (fragment.inputs.count < width.count ∨ fragment.outputs.count < width.count) ∧
        error = .linkTooWide width fragment.inputs fragment.outputs) ∧
    (∀ error, fragment.seq other = .error error ↔
      (fragment.outputs ≠ other.inputs ∧
          error = .sizeMismatch "sequenced interface" fragment.outputs other.inputs) ∨
        (fragment.outputs = other.inputs ∧
          (Size.limit ≤ fragment.internal.count + other.internal.count + fragment.inputs.count +
              fragment.outputs.count ∨
            Size.limit ≤ fragment.internal.count + other.internal.count + fragment.outputs.count +
              other.outputs.count) ∧ error = .label .overflow)) ∧
    (∀ inner, fragment.append other ≠ .error (.blockMap inner) ∧
      fragment.relabel f g ≠ .error (.blockMap inner) ∧
        fragment.link width ≠ .error (.blockMap inner) ∧
          fragment.seq other ≠ .error (.blockMap inner)) ∧
    (∀ linked inputs outputs, fragment.seq other ≠ .error (.linkTooWide linked inputs outputs)) ∧
    (∀ expected actual,
      fragment.seq other ≠ .error (.sizeMismatch "input renaming" expected actual) ∧
        fragment.seq other ≠ .error (.sizeMismatch "output renaming" expected actual)) ∧
    fragment.link width ≠ .error (.label .overflow) ∧
    Agrees (fragment.raw.append other.raw) raw (fragment.append other) ∧
    Agrees (fragment.raw.relabel f g) raw (fragment.relabel f g) ∧
    Agrees (fragment.raw.link width) raw (fragment.link width) ∧
    Agrees (fragment.raw.seq other.raw) raw (fragment.seq other) := by
  refine ⟨fun error => append_eq_error_iff, fun error => relabel_eq_error_iff,
    fun error => link_eq_error_iff, fun error => seq_eq_error_iff, fun inner => ?_,
    fun linked inputs outputs => ?_, fun expected actual => ?_, ?_,
    agrees_append fragment other, agrees_relabel fragment f g, agrees_link fragment width,
    agrees_seq fragment other⟩
  · simp [append_eq_error_iff, relabel_eq_error_iff, link_eq_error_iff, seq_eq_error_iff]
  · simp [seq_eq_error_iff]
  · simp [seq_eq_error_iff]
  · simp [link_eq_error_iff]

end Flowgraph.Fragment
