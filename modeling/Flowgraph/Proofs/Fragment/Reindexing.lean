import Flowgraph.Proofs.Fragment.Interface

/-!
# Renaming in stages

What is renamed twice is renamed once by composites, and identities rename nothing. Entries are read
through their renaming and exits are written through theirs, so the two sides compose in opposite orders.
For fragments this rests on the same law for their code: behind the hidden labels, which both stages
leave alone, renamings compose as they do by themselves (`Renaming.identity_sum_andThen`).
-/

namespace Flowgraph.Fragment

variable {Inst Cond : Type} {fragment middle renamed : Fragment Inst Cond}
  {f₁ g₁ f₂ g₂ f g : Renaming}

/-- The steps of `relabel_steps` are all that renaming an interface takes. -/
theorem relabel_eq_ok {entries exits : Renaming} (inputsAgree : f.codomain = fragment.inputs)
    (outputsAgree : g.domain = fragment.outputs)
    (entriesMade : (Renaming.identity fragment.internal).sum f = .ok entries)
    (exitsMade : (Renaming.identity fragment.internal).sum g = .ok exits)
    (codeMade : fragment.code.relabel entries exits = .ok renamed.code)
    (internal : renamed.internal = fragment.internal) (inputs : renamed.inputs = f.domain)
    (outputs : renamed.outputs = g.codomain) : fragment.relabel f g = .ok renamed := by
  rw [relabel, if_neg (Classical.not_not.mpr inputsAgree),
    if_neg (Classical.not_not.mpr outputsAgree)]
  simp only [bind_eq_ok_iff, mapError_eq_ok_iff, ofCode_eq_ok_iff]
  exact ⟨entries, entriesMade, exits, exitsMade, renamed.code, codeMade, internal, inputs, outputs,
    rfl⟩

/-- Identities rename nothing. -/
theorem relabel_identity (fragment : Fragment Inst Cond) :
    fragment.relabel (.identity fragment.inputs) (.identity fragment.outputs) = .ok fragment := by
  exact relabel_eq_ok (Renaming.codomain_identity _) (Renaming.domain_identity _)
    (Renaming.identity_sum_identity_eq_ok_iff.mpr ⟨_, fragment.entries_eq, rfl⟩)
    (Renaming.identity_sum_identity_eq_ok_iff.mpr ⟨_, fragment.exits_eq, rfl⟩)
    fragment.code.relabel_identity rfl (Renaming.domain_identity _).symm rfl

/-- A fragment that is renamed in two stages could have been renamed at once. -/
theorem relabel_of_relabel_relabel (middleMade : fragment.relabel f₁ g₁ = .ok middle)
    (made : middle.relabel f₂ g₂ = .ok renamed) (entriesMade : f₂.andThen f₁ = .ok f)
    (exitsMade : g₁.andThen g₂ = .ok g) : fragment.relabel f g = .ok renamed := by
  obtain ⟨inputsAgree, outputsAgree, entries, exits, entriesSum, exitsSum, codeMade, internal, -, -⟩ :=
    relabel_steps middleMade
  obtain ⟨-, -, nextEntries, nextExits, nextEntriesSum, nextExitsSum, nextCodeMade, nextInternal,
    nextInputs, nextOutputs⟩ := relabel_steps made
  rw [internal] at nextEntriesSum nextExitsSum
  obtain ⟨-, fCodomain, -⟩ := Renaming.andThen_eq_ok_iff.mp entriesMade
  obtain ⟨-, gCodomain, -⟩ := Renaming.andThen_eq_ok_iff.mp exitsMade
  have fDomain := Renaming.domain_andThen entriesMade
  have gDomain := Renaming.domain_andThen exitsMade
  obtain ⟨allEntries, allExits, allEntriesMade, allExitsMade, allCodeMade⟩ :=
    BlockMap.relabel_relabel_eq_ok_iff.mp (bind_eq_ok_iff.mpr ⟨_, codeMade, nextCodeMade⟩)
  rw [Renaming.identity_sum_andThen nextEntriesSum entriesSum entriesMade] at allEntriesMade
  rw [Renaming.identity_sum_andThen exitsSum nextExitsSum exitsMade] at allExitsMade
  exact relabel_eq_ok (fCodomain.trans inputsAgree) (gDomain.trans outputsAgree) allEntriesMade
    allExitsMade allCodeMade (nextInternal.trans internal) (nextInputs.trans fDomain.symm)
    (nextOutputs.trans gCodomain.symm)

/-- Where the first stage comes out, renaming in two stages and renaming at once by the composites are
the same. The first stage can fail on its own, when the interface between the two is too large. -/
theorem relabel_relabel_eq_ok_iff :
    (fragment.relabel f₁ g₁ >>= fun middle => middle.relabel f₂ g₂) = .ok renamed ↔
      (∃ middle, fragment.relabel f₁ g₁ = .ok middle) ∧
        ∃ f g : Renaming, f₂.andThen f₁ = .ok f ∧ g₁.andThen g₂ = .ok g ∧
          fragment.relabel f g = .ok renamed := by
  rw [bind_eq_ok_iff]
  constructor
  · rintro ⟨middle, middleMade, made⟩
    obtain ⟨meet, exitsMeet, -⟩ := relabel_steps made
    obtain ⟨f, entriesMade⟩ := Renaming.exists_andThen (meet.trans (inputs_relabel middleMade))
    obtain ⟨g, exitsMade⟩ :=
      Renaming.exists_andThen ((outputs_relabel middleMade).symm.trans exitsMeet.symm)
    exact ⟨⟨middle, middleMade⟩, f, g, entriesMade, exitsMade,
      relabel_of_relabel_relabel middleMade made entriesMade exitsMade⟩
  · rintro ⟨⟨middle, middleMade⟩, f, g, entriesMade, exitsMade, made⟩
    obtain ⟨entriesFit, exitsFit⟩ := renamed.counts_fit
    rw [internal_relabel made, inputs_relabel made, Renaming.domain_andThen entriesMade,
      ← internal_relabel middleMade] at entriesFit
    rw [internal_relabel made, outputs_relabel made,
      (Renaming.andThen_eq_ok_iff.mp exitsMade).2.1, ← internal_relabel middleMade] at exitsFit
    obtain ⟨twice, twiceMade⟩ := middle.exists_relabel f₂ g₂
      ((Renaming.andThen_eq_ok_iff.mp entriesMade).1.trans (inputs_relabel middleMade).symm)
      ((Renaming.andThen_eq_ok_iff.mp exitsMade).1.symm.trans (outputs_relabel middleMade).symm)
      entriesFit exitsFit
    have once := relabel_of_relabel_relabel middleMade twiceMade entriesMade exitsMade
    rw [made] at once
    cases once
    exact ⟨middle, middleMade, twiceMade⟩

/-- Renaming is a functor, against the direction of the renamings on the side of the entries. Whatever
comes of a block map or of a fragment in two stages comes of it at once by the composites, which then
exist; and identities change nothing. -/
theorem relabel_functorial (code : BlockMap Inst Cond) (fragment : Fragment Inst Cond)
    (f₁ g₁ f₂ g₂ : Renaming) :
    (∀ renamed, (code.relabel f₁ g₁ >>= fun middle => middle.relabel f₂ g₂) = .ok renamed ↔
        ∃ f g : Renaming, f₂.andThen f₁ = .ok f ∧ g₁.andThen g₂ = .ok g ∧
          code.relabel f g = .ok renamed) ∧
      code.relabel (.identity code.entries) (.identity code.exits) = .ok code ∧
      (∀ renamed, (fragment.relabel f₁ g₁ >>= fun middle => middle.relabel f₂ g₂) = .ok renamed ↔
        (∃ middle, fragment.relabel f₁ g₁ = .ok middle) ∧
          ∃ f g : Renaming, f₂.andThen f₁ = .ok f ∧ g₁.andThen g₂ = .ok g ∧
            fragment.relabel f g = .ok renamed) ∧
      fragment.relabel (.identity fragment.inputs) (.identity fragment.outputs) = .ok fragment :=
  ⟨fun _ => BlockMap.relabel_relabel_eq_ok_iff, code.relabel_identity,
    fun _ => relabel_relabel_eq_ok_iff, fragment.relabel_identity⟩

end Flowgraph.Fragment
