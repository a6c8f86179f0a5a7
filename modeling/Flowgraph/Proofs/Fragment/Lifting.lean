import Flowgraph.Proofs.Fragment.Placement
import Flowgraph.Proofs.Renaming.Category

/-!
# Renamings as fragments

A renaming can be taken as a fragment that hides nothing and consists of jumps, and it is known by them:
the block at an entry says what the image is (`get?_ofRenaming`). So what is done to such fragments can be
done to the renamings first. Side by side they are the sum, and other renamings at their interface compose
with them, the one at the entries before and the one at the exits behind.

The two ways check their sizes on their own. Both ask that the entries have a size and that the exits have
one, and neither counts anything else, because there are no hidden labels.
-/

namespace Flowgraph.Fragment

variable {Inst Cond : Type}

/-- At each entry, a renaming that is taken as a fragment has a jump to the image. -/
theorem get?_ofRenaming {table : Renaming} {label : Label} (inside : label.Within table.domain) :
    (ofRenaming table : Fragment Inst Cond).code.get? label =
      some (.jump (table.image label)) := by
  have found : table.images[label.index]? = some (table.image label) := by
    rw [Renaming.image_eq_getElem table inside]
    exact Array.getElem?_eq_getElem inside
  simp [ofRenaming, ofBlockMap, BlockMap.ofRenaming, BlockMap.get?, found]

/-- Its blocks are at the labels of its domain. -/
theorem entries_ofRenaming (table : Renaming) :
    (ofRenaming table : Fragment Inst Cond).code.entries = table.domain := by
  simp [ofRenaming, ofBlockMap, BlockMap.ofRenaming, BlockMap.entries, Renaming.domain]

/-- A fragment that hides nothing and has the jumps of a renaming is that renaming. -/
theorem eq_ofRenaming {fragment : Fragment Inst Cond} {table : Renaming}
    (internal : fragment.internal = .zero) (inputs : fragment.inputs = table.domain)
    (outputs : fragment.outputs = table.codomain)
    (jumps : ∀ label : Label, label.Within table.domain →
      fragment.code.get? label = some (.jump (table.image label))) :
    fragment = ofRenaming table := by
  refine eq_of_get? internal (inputs.trans (inputs_ofRenaming table).symm) outputs
    fun label inside => ?_
  have bound : label.Within table.domain := by
    rwa [Label.Within, fragment.entries_eq, internal, Size.count_zero, Nat.zero_add, inputs] at inside
  rw [jumps label bound, get?_ofRenaming bound]

/-- Different renamings are different fragments. -/
theorem ofRenaming_inj {first second : Renaming} :
    (ofRenaming first : Fragment Inst Cond) = ofRenaming second ↔ first = second := by
  constructor
  · intro same
    have domains : first.domain = second.domain := by
      have inputs := congrArg Fragment.inputs same
      rwa [inputs_ofRenaming, inputs_ofRenaming] at inputs
    refine Renaming.ext_image domains (congrArg Fragment.outputs same) fun label inside => ?_
    have jump : (ofRenaming first : Fragment Inst Cond).code.get? label =
        some (.jump (first.image label)) := get?_ofRenaming inside
    rw [same, get?_ofRenaming (domains ▸ inside)] at jump
    simpa [Block.jump, Block.terminal, eq_comm] using jump
  · rintro rfl
    rfl

section Sum

variable {first second total : Renaming}

/-- Where the sum of two renamings exists, the two fragments can be placed side by side. -/
theorem exists_append_ofRenaming (made : first.sum second = .ok total) :
    ∃ both, (ofRenaming first : Fragment Inst Cond).append (ofRenaming second) = .ok both := by
  have domain := Renaming.count_domain_sum made
  have codomain := Renaming.count_codomain_sum made
  have domainFits := total.domain.fits
  have codomainFits := total.codomain.fits
  apply exists_append
  · simp only [internal_ofRenaming, inputs_ofRenaming, Size.count_zero, Nat.zero_add]
    omega
  · simp only [internal_ofRenaming, outputs_ofRenaming, Size.count_zero, Nat.zero_add]
    omega

/-- And they are the sum: a jump from the left stays on the left, and one from the right is moved along
with its entry. -/
theorem append_ofRenaming_eq_ok (made : first.sum second = .ok total) :
    (ofRenaming first : Fragment Inst Cond).append (ofRenaming second) =
      .ok (ofRenaming total) := by
  obtain ⟨both, bothMade⟩ := @exists_append_ofRenaming Inst Cond _ _ _ made
  obtain ⟨internal, inputs, outputs⟩ := counts_append bothMade
  rw [inputs_ofRenaming, inputs_ofRenaming, ← Renaming.count_domain_sum made] at inputs
  rw [outputs_ofRenaming, outputs_ofRenaming, ← Renaming.count_codomain_sum made] at outputs
  rw [bothMade, eq_ofRenaming (Size.ext internal) (Size.ext inputs) (Size.ext outputs) ?_]
  intro label inside
  rw [Label.Within, Renaming.count_domain_sum made] at inside
  by_cases front : label.Within first.domain
  · have placed : label.Within (ofRenaming first : Fragment Inst Cond).code.entries := by
      rwa [entries_ofRenaming]
    have block := get?_append_left bothMade placed
    rw [get?_ofRenaming front] at block
    simp only [internal_ofRenaming, Size.count_zero, Label.makeRoom_zero] at block
    rw [block, Renaming.image_sum_left made front]
    simp
  · obtain ⟨behind, rfl⟩ := Label.exists_eq_shift_of_le (Nat.not_lt.mp front)
    rw [Label.index_shift] at inside
    have source : behind.Within second.domain := Nat.lt_of_add_lt_add_left inside
    have placed : behind.Within (ofRenaming second : Fragment Inst Cond).code.entries := by
      rwa [entries_ofRenaming]
    have block := get?_append_right bothMade placed
    rw [get?_ofRenaming source] at block
    simp only [internal_ofRenaming, inputs_ofRenaming, outputs_ofRenaming, Size.count_zero,
      Label.shift_zero, Label.makeRoom_of_le (Nat.zero_le _)] at block
    rw [block, Renaming.image_sum_right made source]
    rfl

/-- So two renamings side by side are the sum, which is refused when they are. -/
theorem append_ofRenaming (first second : Renaming) :
    (ofRenaming first : Fragment Inst Cond).append (ofRenaming second) =
      do return ofRenaming (← (first.sum second).mapError .label) := by
  cases made : first.sum second with
  | ok total => exact append_ofRenaming_eq_ok made
  | error error =>
    obtain ⟨wide, rfl⟩ := Renaming.sum_eq_error_iff.mp made
    refine append_eq_error_iff.mpr ⟨?_, rfl⟩
    simp only [internal_ofRenaming, inputs_ofRenaming, outputs_ofRenaming, Size.count_zero,
      Nat.zero_add]
    exact wide.symm

end Sum

section Relabel

variable {table before after composite : Renaming}

/-- Where two renamings fit the interface of a third, they can rename it. -/
theorem exists_relabel_ofRenaming (meet : before.codomain = table.domain)
    (meetAfter : table.codomain = after.domain) :
    ∃ renamed, (ofRenaming table : Fragment Inst Cond).relabel before after = .ok renamed := by
  apply exists_relabel
  · rwa [inputs_ofRenaming]
  · exact meetAfter.symm
  · simpa using before.domain_fits
  · simpa using after.codomain.fits

/-- And the three are their composite: a jump leads from an entry to where the first two of them send it,
and on to where the last one sends that. -/
theorem relabel_ofRenaming_eq_ok
    (made : (before.andThen table >>= fun early => early.andThen after) = .ok composite) :
    (ofRenaming table : Fragment Inst Cond).relabel before after = .ok (ofRenaming composite) := by
  obtain ⟨early, earlyMade, lateMade⟩ := bind_eq_ok_iff.mp made
  obtain ⟨meet, earlyCodomain, -⟩ := Renaming.andThen_eq_ok_iff.mp earlyMade
  obtain ⟨meetAfter, codomain, -⟩ := Renaming.andThen_eq_ok_iff.mp lateMade
  have earlyDomain := Renaming.domain_andThen earlyMade
  have domain : composite.domain = before.domain :=
    (Renaming.domain_andThen lateMade).trans earlyDomain
  obtain ⟨renamed, renamedMade⟩ := @exists_relabel_ofRenaming Inst Cond _ _ _ meet
    (earlyCodomain.symm.trans meetAfter)
  have inputs : renamed.inputs = composite.domain := (inputs_relabel renamedMade).trans domain.symm
  have outputs : renamed.outputs = composite.codomain :=
    (outputs_relabel renamedMade).trans codomain.symm
  rw [renamedMade, eq_ofRenaming (internal_relabel renamedMade) inputs outputs ?_]
  intro label inside
  have source : label.Within before.domain := domain ▸ inside
  have placed : label.Within renamed.code.entries := by
    rwa [Label.Within, renamed.entries_eq, internal_relabel renamedMade, internal_ofRenaming,
      Size.count_zero, Nat.zero_add, inputs]
  have block := get?_relabel renamedMade placed
  simp only [internal_ofRenaming, Size.count_zero, Label.mapVisible_zero] at block
  rw [get?_ofRenaming (meet ▸ before.image_within source)] at block
  rw [block, Renaming.image_andThen lateMade (earlyDomain ▸ source),
    Renaming.image_andThen earlyMade source]
  rfl

/-- So a renaming that is renamed is a composite of renamings, and it can be renamed as far as they can be
composed. -/
theorem relabel_ofRenaming_eq_ok_iff {lifted : Fragment Inst Cond} :
    (ofRenaming table).relabel before after = .ok lifted ↔
      ∃ composite, (before.andThen table >>= fun early => early.andThen after) = .ok composite ∧
        ofRenaming composite = lifted := by
  constructor
  · intro made
    obtain ⟨meet, meetAfter, -⟩ := relabel_steps made
    rw [inputs_ofRenaming] at meet
    obtain ⟨composite, composed⟩ := Renaming.exists_andThen_bind_iff.mpr ⟨meet, meetAfter.symm⟩
    rw [relabel_ofRenaming_eq_ok composed] at made
    exact ⟨composite, composed, Except.ok.inj made⟩
  · rintro ⟨composite, composed, rfl⟩
    exact relabel_ofRenaming_eq_ok composed

/-- That is when they meet in the same spaces. -/
theorem exists_relabel_ofRenaming_iff :
    (∃ lifted, (ofRenaming table : Fragment Inst Cond).relabel before after = .ok lifted) ↔
      before.codomain = table.domain ∧ table.codomain = after.domain := by
  constructor
  · rintro ⟨lifted, made⟩
    obtain ⟨meet, meetAfter, -⟩ := relabel_steps made
    rw [inputs_ofRenaming] at meet
    exact ⟨meet, meetAfter.symm⟩
  · rintro ⟨meet, meetAfter⟩
    exact exists_relabel_ofRenaming meet meetAfter

end Relabel

/-- Taking renamings as fragments is strict. Side by side they are their sum, and are refused with the
error of the sum where it is refused. With their interface renamed they are the composite with the
renamings of the interface, and that comes out exactly when these fit. And no two of them are the same
fragment. -/
theorem ofRenaming_strict (first second before after : Renaming) :
    ((ofRenaming first : Fragment Inst Cond).append (ofRenaming second) =
        do return ofRenaming (← (first.sum second).mapError .label)) ∧
      ((∃ lifted, (ofRenaming first : Fragment Inst Cond).relabel before after = .ok lifted) ↔
        before.codomain = first.domain ∧ first.codomain = after.domain) ∧
      (∀ lifted : Fragment Inst Cond, (ofRenaming first).relabel before after = .ok lifted ↔
        ∃ composite, (before.andThen first >>= fun early => early.andThen after) = .ok composite ∧
          ofRenaming composite = lifted) ∧
      ((ofRenaming first : Fragment Inst Cond) = ofRenaming second ↔ first = second) :=
  ⟨append_ofRenaming first second, exists_relabel_ofRenaming_iff,
    fun _ => relabel_ofRenaming_eq_ok_iff, ofRenaming_inj⟩

end Flowgraph.Fragment
