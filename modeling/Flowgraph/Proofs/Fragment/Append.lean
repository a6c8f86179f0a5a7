import Flowgraph.Fragment.Combine
import Flowgraph.Proofs.BlockMap.Lookup
import Flowgraph.Proofs.Renaming.Interchange

/-!
# Where the blocks of fragments side by side come from

Each way to combine fragments gives the labels of its operands new places. The statements about a
combination say when it comes out, which sizes it has, at which place it has a block of an operand,
and how the targets of that block read there. Everything that is said about runs of combined
fragments rests on such statements, and on nothing else about the way the combinations are made.
This module does so for `Fragment.append`.
-/

namespace Flowgraph.Fragment

variable {Inst Cond : Type}

/-- The hidden labels together with one side of the interface are no more than the code has on that side. -/
theorem counts_fit (fragment : Fragment Inst Cond) :
    fragment.internal.count + fragment.inputs.count < Size.limit ∧
      fragment.internal.count + fragment.outputs.count < Size.limit :=
  ⟨fragment.entries_eq ▸ fragment.code.entries.fits, fragment.exits_eq ▸ fragment.code.exits.fits⟩

/-- Code makes a fragment exactly when its sizes are those of the interface, and it is kept. -/
theorem ofCode_eq_ok_iff {internal inputs outputs : Size} {code : BlockMap Inst Cond}
    {fragment : Fragment Inst Cond} :
    ofCode internal inputs outputs code = .ok fragment ↔
      fragment.internal = internal ∧ fragment.inputs = inputs ∧ fragment.outputs = outputs ∧
        fragment.code = code := by
  have entriesEq := fragment.entries_eq
  have exitsEq := fragment.exits_eq
  unfold ofCode
  split
  · rename_i error found
    have wide := (Size.sum_eq_error_iff.mp found).1
    have fits := fragment.code.entries.fits
    simp only [reduceCtorEq, false_iff]
    rintro ⟨rfl, rfl, rfl, rfl⟩
    omega
  · rename_i entries entriesFound
    rw [Size.sum_eq_ok_iff] at entriesFound
    split
    · split
      · rename_i error found
        have wide := (Size.sum_eq_error_iff.mp found).1
        have fits := fragment.code.exits.fits
        simp only [reduceCtorEq, false_iff]
        rintro ⟨rfl, rfl, rfl, rfl⟩
        omega
      · rename_i exits exitsFound
        rw [Size.sum_eq_ok_iff] at exitsFound
        split
        · simp [Fragment.ext_iff, eq_comm]
        · rename_i differ
          simp only [reduceCtorEq, false_iff]
          rintro ⟨rfl, rfl, rfl, rfl⟩
          exact differ (Size.ext (exitsEq.trans exitsFound.symm))
    · rename_i differ
      simp only [reduceCtorEq, false_iff]
      rintro ⟨rfl, rfl, rfl, rfl⟩
      exact differ (Size.ext (entriesEq.trans entriesFound.symm))

/-- So code makes a fragment as soon as its sizes are those of the interface. -/
theorem exists_ofCode {internal inputs outputs : Size} {code : BlockMap Inst Cond}
    (entries : code.entries.count = internal.count + inputs.count)
    (exits : code.exits.count = internal.count + outputs.count) :
    ∃ fragment, ofCode internal inputs outputs code = .ok fragment :=
  ⟨⟨internal, inputs, outputs, code, entries, exits⟩, ofCode_eq_ok_iff.mpr ⟨rfl, rfl, rfl, rfl⟩⟩

/-- Fragments can be placed side by side as soon as both sides of the code have a size. -/
theorem exists_append (fragment other : Fragment Inst Cond)
    (entriesFit : fragment.internal.count + other.internal.count + fragment.inputs.count +
      other.inputs.count < Size.limit)
    (exitsFit : fragment.internal.count + other.internal.count + fragment.outputs.count +
      other.outputs.count < Size.limit) :
    ∃ both, fragment.append other = .ok both := by
  have leftEntries := fragment.entries_eq
  have leftExits := fragment.exits_eq
  have rightEntries := other.entries_eq
  have rightExits := other.exits_eq
  obtain ⟨entries, entriesMade⟩ := Renaming.exists_interchange (a := fragment.internal)
    (b := other.internal) (c := fragment.inputs) (d := other.inputs) entriesFit
  obtain ⟨exits, exitsMade⟩ := Renaming.exists_interchange (a := fragment.internal)
    (b := fragment.outputs) (c := other.internal) (d := other.outputs) (by omega)
  obtain ⟨joined, joinedMade⟩ := BlockMap.exists_append fragment.code other.code (by omega)
    (by omega)
  have joinedEntries := BlockMap.count_entries_append joinedMade
  have joinedExits := BlockMap.count_exits_append joinedMade
  have entriesCodomain := Renaming.count_codomain_interchange entriesMade
  have exitsDomain := Renaming.count_domain_interchange exitsMade
  obtain ⟨code, codeMade⟩ := BlockMap.exists_relabel_iff.mpr
    (show entries.codomain = joined.entries ∧ exits.domain = joined.exits from
      ⟨Size.ext (by omega), Size.ext (by omega)⟩)
  have codeEntries := congrArg Size.count (BlockMap.entries_relabel codeMade)
  have codeExits := congrArg Size.count (BlockMap.exits_relabel codeMade)
  have entriesDomain := Renaming.count_domain_interchange entriesMade
  have exitsCodomain := Renaming.count_codomain_interchange exitsMade
  let internal : Size := ⟨fragment.internal.count + other.internal.count, by omega⟩
  let inputs : Size := ⟨fragment.inputs.count + other.inputs.count, by omega⟩
  let outputs : Size := ⟨fragment.outputs.count + other.outputs.count, by omega⟩
  obtain ⟨both, made⟩ := exists_ofCode
    (show code.entries.count = internal.count + inputs.count by simp only [internal, inputs]; omega)
    (show code.exits.count = internal.count + outputs.count by simp only [internal, outputs]; omega)
  refine ⟨both, ?_⟩
  simp only [append, bind_eq_ok_iff, mapError_eq_ok_iff, Size.sum_eq_ok_iff]
  exact ⟨entries, entriesMade, exits, exitsMade, joined, joinedMade, code, codeMade, internal, rfl,
    inputs, rfl, outputs, rfl, made⟩

/-- Fragments cannot be placed side by side exactly when one side of the code is too large, and
nothing else is ever reported. -/
theorem append_eq_error_iff {fragment other : Fragment Inst Cond} {error : FragmentError} :
    fragment.append other = .error error ↔
      (Size.limit ≤ fragment.internal.count + other.internal.count + fragment.inputs.count +
          other.inputs.count ∨
        Size.limit ≤ fragment.internal.count + other.internal.count + fragment.outputs.count +
          other.outputs.count) ∧ error = .label .overflow := by
  by_cases fits : fragment.internal.count + other.internal.count + fragment.inputs.count +
      other.inputs.count < Size.limit ∧
    fragment.internal.count + other.internal.count + fragment.outputs.count +
      other.outputs.count < Size.limit
  · obtain ⟨both, made⟩ := exists_append fragment other fits.1 fits.2
    simp only [made, reduceCtorEq, false_iff]
    omega
  · -- One of the two interchanges, which are made before anything else, fails.
    have failed : fragment.append other = .error (.label .overflow) := by
      rw [append, bind_eq_error_iff]
      cases entriesMade : Renaming.interchange fragment.internal other.internal fragment.inputs
          other.inputs with
      | error reported =>
        obtain ⟨-, rfl⟩ := Renaming.interchange_eq_error_iff.mp entriesMade
        exact .inl rfl
      | ok entries =>
        have entriesFit := Renaming.count_domain_interchange entriesMade ▸ entries.domain.fits
        refine .inr ⟨entries, rfl, bind_eq_error_iff.mpr (.inl ?_)⟩
        exact mapError_eq_error_iff.mpr
          ⟨.overflow, Renaming.interchange_eq_error_iff.mpr ⟨by omega, rfl⟩, rfl⟩
    simp only [failed, Except.error.injEq, eq_comm, iff_and_self]
    omega

section Append

variable {fragment other both : Fragment Inst Cond} (made : fragment.append other = .ok both)

include made

/-- What an append is made of. -/
theorem append_steps :
    ∃ (entries exits : Renaming) (joined : BlockMap Inst Cond),
      Renaming.interchange fragment.internal other.internal fragment.inputs other.inputs =
          .ok entries ∧
        Renaming.interchange fragment.internal fragment.outputs other.internal other.outputs =
            .ok exits ∧
          fragment.code.append other.code = .ok joined ∧
            joined.relabel entries exits = .ok both.code ∧
              both.internal.count = fragment.internal.count + other.internal.count ∧
                both.inputs.count = fragment.inputs.count + other.inputs.count ∧
                  both.outputs.count = fragment.outputs.count + other.outputs.count := by
  simp only [append, bind_eq_ok_iff, mapError_eq_ok_iff, ofCode_eq_ok_iff,
    Size.sum_eq_ok_iff] at made
  obtain ⟨entries, entriesMade, exits, exitsMade, joined, joinedMade, code, codeMade, internal,
    internalCount, inputs, inputsCount, outputs, outputsCount, rfl, rfl, rfl, rfl⟩ := made
  exact ⟨entries, exits, joined, entriesMade, exitsMade, joinedMade, codeMade, internalCount,
    inputsCount, outputsCount⟩

/-- The sizes of an append are the sums of those of its operands. -/
theorem counts_append :
    both.internal.count = fragment.internal.count + other.internal.count ∧
      both.inputs.count = fragment.inputs.count + other.inputs.count ∧
        both.outputs.count = fragment.outputs.count + other.outputs.count := by
  obtain ⟨_, _, _, _, _, _, _, counts⟩ := append_steps made
  exact counts

theorem count_internal_append :
    both.internal.count = fragment.internal.count + other.internal.count :=
  (counts_append made).1

theorem count_inputs_append :
    both.inputs.count = fragment.inputs.count + other.inputs.count :=
  (counts_append made).2.1

theorem count_outputs_append :
    both.outputs.count = fragment.outputs.count + other.outputs.count :=
  (counts_append made).2.2

/-- The blocks of the left operand keep their places, except that those of its entries make room for
the hidden blocks of the right operand; and their targets likewise. -/
theorem get?_append_left {label : Label} (inside : label.Within fragment.code.entries) :
    both.code.get? (label.makeRoom fragment.internal.count other.internal.count) =
      (fragment.code.get? label).map
        (·.mapLabels (·.makeRoom fragment.internal.count other.internal.count)) := by
  obtain ⟨entries, exits, joined, entriesMade, exitsMade, joinedMade, codeMade, -⟩ :=
    append_steps made
  have source : label.index < fragment.internal.count + fragment.inputs.count :=
    fragment.entries_eq ▸ inside
  have placed :
      (label.makeRoom fragment.internal.count other.internal.count).Within entries.domain := by
    have moved := label.index_makeRoom_le fragment.internal.count other.internal.count
    rw [Label.Within, Renaming.count_domain_interchange entriesMade]
    omega
  rw [BlockMap.get?_relabel codeMade placed,
    Renaming.image_interchange_makeRoom entriesMade source,
    BlockMap.get?_append_left joinedMade inside, fragment.code.get?_eq_some_block inside]
  refine congrArg some (Block.mapLabels_congr fun target member => ?_)
  have bound := fragment.code.target_within inside member
  rw [Label.Within, fragment.exits_eq] at bound
  exact Renaming.image_interchange_left exitsMade bound

/-- The blocks of the right operand go behind the hidden blocks of the left, and those of its
entries behind the entries of the left as well; and their targets likewise. -/
theorem get?_append_right {label : Label} (inside : label.Within other.code.entries) :
    both.code.get?
        ((label.makeRoom other.internal.count fragment.inputs.count).shift
          fragment.internal.count) =
      (other.code.get? label).map
        (·.mapLabels fun target =>
          (target.makeRoom other.internal.count fragment.outputs.count).shift
            fragment.internal.count) := by
  obtain ⟨entries, exits, joined, entriesMade, exitsMade, joinedMade, codeMade, -⟩ :=
    append_steps made
  have source : label.index < other.internal.count + other.inputs.count :=
    other.entries_eq ▸ inside
  have placed :
      ((label.makeRoom other.internal.count fragment.inputs.count).shift
        fragment.internal.count).Within entries.domain := by
    have moved := label.index_makeRoom_le other.internal.count fragment.inputs.count
    rw [Label.Within, Renaming.count_domain_interchange entriesMade, Label.index_shift]
    omega
  rw [BlockMap.get?_relabel codeMade placed,
    Renaming.image_interchange_makeRoom_shift entriesMade source, ← fragment.entries_eq,
    BlockMap.get?_append_right joinedMade, other.code.get?_eq_some_block inside]
  simp only [Option.map_some, Block.mapLabels_mapLabels]
  refine congrArg some (Block.mapLabels_congr fun target member => ?_)
  have bound := other.code.target_within inside member
  rw [Label.Within, other.exits_eq] at bound
  rw [fragment.exits_eq]
  exact Renaming.image_interchange_right exitsMade bound

end Append

end Flowgraph.Fragment
