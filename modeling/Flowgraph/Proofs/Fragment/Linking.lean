import Flowgraph.Proofs.Fragment.Reindexing

/-!
# Laws of linking

Linking moves the border between the hidden labels and the interface, and no block. So a border that is
moved twice could have been moved at once, a fragment is its code with all of its hidden labels linked,
and what is done to the interface behind the linked labels can be done before the link or after it: in the
flat layout it is the same whether the labels before it are counted as linked or as hidden
(`identity_sum_iff`).
-/

namespace Flowgraph.Fragment

variable {Inst Cond : Type} {fragment linked : Fragment Inst Cond} {width first second : Size}

/-- A link is what comes of regrouping both sides of the code: that changes no block, and the sizes are
those of the new groups. -/
theorem link_eq_ok_iff_regrouped :
    fragment.link width = .ok linked ↔
      (width.count ≤ fragment.inputs.count ∧ width.count ≤ fragment.outputs.count) ∧
        (∃ entries exits : Renaming,
          Renaming.regroupRight fragment.internal width linked.inputs = .ok entries ∧
            Renaming.regroupLeft fragment.internal width linked.outputs = .ok exits ∧
              fragment.code.relabel entries exits = .ok linked.code) ∧
          linked.code = fragment.code ∧
            linked.internal.count = fragment.internal.count + width.count ∧
              linked.inputs.count = fragment.inputs.count - width.count ∧
                linked.outputs.count = fragment.outputs.count - width.count := by
  constructor
  · intro made
    obtain ⟨inputsWide, outputsWide, internal, code⟩ := link_eq_ok_iff.mp made
    have entriesEq := linked.entries_eq
    have exitsEq := linked.exits_eq
    rw [code, internal] at entriesEq exitsEq
    refine ⟨⟨inputsWide, outputsWide⟩, ⟨_, _, Renaming.regroupRight_eq_ok_iff.mpr ⟨_, entriesEq, rfl⟩,
      Renaming.regroupLeft_eq_ok_iff.mpr ⟨_, exitsEq, rfl⟩, ?_⟩, code, internal,
      count_inputs_link made, count_outputs_link made⟩
    rw [code, fragment.code.relabel_identity]
  · rintro ⟨⟨inputsWide, outputsWide⟩, -, code, internal, -, -⟩
    exact link_eq_ok_iff.mpr ⟨inputsWide, outputsWide, internal, code⟩

/-- Linking twice is linking at once as many labels. -/
theorem link_link_eq_ok_iff :
    (fragment.link first >>= fun middle => middle.link second) = .ok linked ↔
      ∃ total, first.sum second = .ok total ∧ fragment.link total = .ok linked := by
  simp only [bind_eq_ok_iff, Size.sum_eq_ok_iff]
  constructor
  · rintro ⟨middle, middleMade, made⟩
    have middleInputs := count_inputs_link middleMade
    have middleOutputs := count_outputs_link middleMade
    obtain ⟨inputsWide, outputsWide, middleInternal, middleCode⟩ := link_eq_ok_iff.mp middleMade
    obtain ⟨restInputs, restOutputs, internal, code⟩ := link_eq_ok_iff.mp made
    have fits := fragment.inputs.fits
    refine ⟨⟨first.count + second.count, by omega⟩, rfl, link_eq_ok_iff.mpr ⟨?_, ?_, ?_, ?_⟩⟩
    · simp only
      omega
    · simp only
      omega
    · rw [internal, middleInternal, Nat.add_assoc]
    · rw [code, middleCode]
  · rintro ⟨total, count, made⟩
    obtain ⟨inputsWide, outputsWide, internal, code⟩ := link_eq_ok_iff.mp made
    obtain ⟨middle, middleMade⟩ := fragment.exists_link first (by omega) (by omega)
    have middleInputs := count_inputs_link middleMade
    have middleOutputs := count_outputs_link middleMade
    obtain ⟨-, -, middleInternal, middleCode⟩ := link_eq_ok_iff.mp middleMade
    refine ⟨middle, middleMade, link_eq_ok_iff.mpr ⟨by omega, by omega, by omega, ?_⟩⟩
    rw [code, middleCode]

/-- So it comes out exactly when both sides of the interface have labels enough for both links. -/
theorem exists_link_link_iff :
    (∃ linked, (fragment.link first >>= fun middle => middle.link second) = .ok linked) ↔
      first.count + second.count ≤ min fragment.inputs.count fragment.outputs.count := by
  simp only [link_link_eq_ok_iff, Size.sum_eq_ok_iff, Nat.le_min]
  constructor
  · rintro ⟨linked, total, count, made⟩
    obtain ⟨inputsWide, outputsWide, -⟩ := link_eq_ok_iff.mp made
    omega
  · rintro ⟨inputsWide, outputsWide⟩
    have fits := fragment.inputs.fits
    obtain ⟨linked, made⟩ := fragment.exists_link ⟨first.count + second.count, by omega⟩ inputsWide
      outputsWide
    exact ⟨linked, _, rfl, made⟩

/-- A fragment is its code with the hidden labels linked. -/
theorem ofBlockMap_link (fragment : Fragment Inst Cond) :
    (ofBlockMap fragment.code).link fragment.internal = .ok fragment := by
  have entries : fragment.internal.count ≤ fragment.code.entries.count := by
    rw [fragment.entries_eq]
    exact Nat.le_add_right _ _
  have exits : fragment.internal.count ≤ fragment.code.exits.count := by
    rw [fragment.exits_eq]
    exact Nat.le_add_right _ _
  exact link_eq_ok_iff.mpr ⟨entries, exits, (Nat.zero_add _).symm, rfl⟩

section Behind

variable {f g : Renaming} {renamed looped : Fragment Inst Cond}

/-- Rename what lies behind the first labels of an interface, and then link these. -/
def relabelLink (fragment : Fragment Inst Cond) (width : Size) (f g : Renaming) :
    Except FragmentError (Fragment Inst Cond) := do
  let entries ← ((Renaming.identity width).sum f).mapError .label
  let exits ← ((Renaming.identity width).sum g).mapError .label
  let renamed ← fragment.relabel entries exits
  renamed.link width

/-- Link the first labels of an interface, and then rename what is left. -/
def linkRelabel (fragment : Fragment Inst Cond) (width : Size) (f g : Renaming) :
    Except FragmentError (Fragment Inst Cond) := do
  let looped ← fragment.link width
  looped.relabel f g

/-- Behind labels that are linked, a renaming is where it is when these are hidden. -/
theorem identity_sum_iff (loopedMade : fragment.link width = .ok looped) {table outer total : Renaming}
    (made : (Renaming.identity width).sum table = .ok outer) :
    (Renaming.identity looped.internal).sum table = .ok total ↔
      (Renaming.identity fragment.internal).sum outer = .ok total := by
  have border : (Renaming.identity fragment.internal).sum (Renaming.identity width) =
      .ok (Renaming.identity looped.internal) :=
    Renaming.identity_sum_identity_eq_ok_iff.mpr ⟨_, count_internal_link loopedMade, rfl⟩
  exact Renaming.sum_sum_eq_ok_iff border made

/-- Whatever is renamed behind the first labels before they are linked could have been renamed after. -/
theorem linkRelabel_of_relabelLink (made : fragment.relabelLink width f g = .ok linked) :
    fragment.linkRelabel width f g = .ok linked := by
  simp only [relabelLink, bind_eq_ok_iff, mapError_eq_ok_iff] at made
  obtain ⟨entries, entriesMade, exits, exitsMade, renamed, renamedMade, linkedMade⟩ := made
  obtain ⟨inputsAgree, outputsAgree, allEntries, allExits, allEntriesMade, allExitsMade, codeMade,
    renamedInternal, renamedInputs, renamedOutputs⟩ := relabel_steps renamedMade
  have entriesCodomain := Renaming.count_codomain_sum entriesMade
  have entriesDomain := Renaming.count_domain_sum entriesMade
  have exitsCodomain := Renaming.count_codomain_sum exitsMade
  have exitsDomain := Renaming.count_domain_sum exitsMade
  rw [inputsAgree, Renaming.codomain_identity] at entriesCodomain
  rw [outputsAgree, Renaming.domain_identity] at exitsDomain
  rw [Renaming.domain_identity, ← renamedInputs] at entriesDomain
  rw [Renaming.codomain_identity, ← renamedOutputs] at exitsCodomain
  obtain ⟨looped, loopedMade⟩ := fragment.exists_link width (by omega) (by omega)
  have loopedInternal := count_internal_link loopedMade
  have loopedInputs := count_inputs_link loopedMade
  have loopedOutputs := count_outputs_link loopedMade
  have internal := count_internal_link linkedMade
  have inputs := count_inputs_link linkedMade
  have outputs := count_outputs_link linkedMade
  rw [renamedInternal] at internal
  rw [← code_link loopedMade, ← code_link linkedMade] at codeMade
  refine bind_eq_ok_iff.mpr ⟨looped, loopedMade, ?_⟩
  exact relabel_eq_ok (Size.ext (by omega)) (Size.ext (by omega))
    ((identity_sum_iff loopedMade entriesMade).mpr allEntriesMade)
    ((identity_sum_iff loopedMade exitsMade).mpr allExitsMade) codeMade (Size.ext (by omega))
    (Size.ext (by omega)) (Size.ext (by omega))

/-- And nothing more can be renamed after than before. -/
theorem exists_relabelLink (made : fragment.linkRelabel width f g = .ok linked) :
    ∃ renamed, fragment.relabelLink width f g = .ok renamed := by
  obtain ⟨looped, loopedMade, made⟩ := bind_eq_ok_iff.mp made
  obtain ⟨inputsAgree, outputsAgree, -⟩ := relabel_steps made
  obtain ⟨inputsWide, outputsWide, -⟩ := link_eq_ok_iff.mp loopedMade
  have loopedInternal := count_internal_link loopedMade
  have loopedInputs := count_inputs_link loopedMade
  have loopedOutputs := count_outputs_link loopedMade
  have inputsFit := fragment.inputs.fits
  have outputsFit := fragment.outputs.fits
  obtain ⟨entriesFit, exitsFit⟩ := linked.counts_fit
  rw [internal_relabel made, inputs_relabel made] at entriesFit
  rw [internal_relabel made, outputs_relabel made] at exitsFit
  rw [← inputsAgree] at loopedInputs
  rw [← outputsAgree] at loopedOutputs
  obtain ⟨entries, entriesMade, entriesCodomain, entriesDomain⟩ :=
    Renaming.exists_identity_sum width f (by omega) (by omega)
  obtain ⟨exits, exitsMade, exitsCodomain, exitsDomain⟩ :=
    Renaming.exists_identity_sum width g (by omega) (by omega)
  obtain ⟨renamed, renamedMade⟩ := fragment.exists_relabel entries exits (Size.ext (by omega))
    (Size.ext (by omega)) (by omega) (by omega)
  have renamedInputs := congrArg Size.count (inputs_relabel renamedMade)
  have renamedOutputs := congrArg Size.count (outputs_relabel renamedMade)
  obtain ⟨result, resultMade⟩ := renamed.exists_link width (by omega) (by omega)
  refine ⟨result, ?_⟩
  simp only [relabelLink, bind_eq_ok_iff, mapError_eq_ok_iff]
  exact ⟨entries, entriesMade, exits, exitsMade, renamed, renamedMade, resultMade⟩

/-- So it does not matter whether what lies behind the linked labels is renamed before the link or after
it. -/
theorem relabelLink_eq_ok_iff :
    fragment.relabelLink width f g = .ok linked ↔ fragment.linkRelabel width f g = .ok linked := by
  constructor
  · exact linkRelabel_of_relabelLink
  · intro made
    obtain ⟨early, earlyMade⟩ := exists_relabelLink made
    have late := linkRelabel_of_relabelLink earlyMade
    rw [made] at late
    cases late
    exact earlyMade

end Behind

/-- The laws of linking, on the nose. Two links come out exactly when both sides of the interface have
labels enough for both, and are one link of as many labels. A link comes out exactly when it is not too
wide; regrouping both sides of the code is all it does, which leaves the code equal, and it moves the
labels from both sides of the interface to the hidden ones. A fragment is its code with the hidden labels
linked. And what lies behind the linked labels can be renamed before the link or after it. -/
theorem link_laws (fragment : Fragment Inst Cond) (first second : Size) (f g : Renaming) :
    ((∃ linked, (fragment.link first >>= fun middle => middle.link second) = .ok linked) ↔
        first.count + second.count ≤ min fragment.inputs.count fragment.outputs.count) ∧
      (∀ linked, (fragment.link first >>= fun middle => middle.link second) = .ok linked ↔
        ∃ total, first.sum second = .ok total ∧ fragment.link total = .ok linked) ∧
      (∀ linked, fragment.link first = .ok linked ↔
        (first.count ≤ fragment.inputs.count ∧ first.count ≤ fragment.outputs.count) ∧
          (∃ entries exits : Renaming,
            Renaming.regroupRight fragment.internal first linked.inputs = .ok entries ∧
              Renaming.regroupLeft fragment.internal first linked.outputs = .ok exits ∧
                fragment.code.relabel entries exits = .ok linked.code) ∧
            linked.code = fragment.code ∧
              linked.internal.count = fragment.internal.count + first.count ∧
                linked.inputs.count = fragment.inputs.count - first.count ∧
                  linked.outputs.count = fragment.outputs.count - first.count) ∧
      (ofBlockMap fragment.code).link fragment.internal = .ok fragment ∧
      ∀ linked, fragment.relabelLink first f g = .ok linked ↔
        fragment.linkRelabel first f g = .ok linked :=
  ⟨exists_link_link_iff, fun _ => link_link_eq_ok_iff, fun _ => link_eq_ok_iff_regrouped,
    ofBlockMap_link fragment, fun _ => relabelLink_eq_ok_iff⟩

end Flowgraph.Fragment
