import Flowgraph.Renaming.Basic

/-!
# Composition, sums and inverses of renamings

`Renaming.andThen` composes in reading order, `Renaming.sum` acts on both summands of a sum at once,
and `Renaming.inverse` undoes a permutation. Each returns a checked renaming again; what can fail is
the agreement of sizes, the size of a sum, and invertibility.
-/

namespace Flowgraph.Renaming

/-- First `table`, then `next`, which has to be defined on the codomain of `table`. -/
def andThen (table next : Renaming) : Except LabelError Renaming :=
  if agree : table.codomain = next.domain then
    .ok {
      codomain := next.codomain
      images := table.images.map next.image
      domain_fits := by simpa using table.domain_fits
      images_within := by
        intro image member
        obtain ⟨middle, middleMember, rfl⟩ := Array.mem_map.mp member
        exact next.image_within (agree ▸ table.images_within middle middleMember) }
  else
    .error (.sizeMismatch table.codomain next.domain)

/-- Act on a sum of label spaces, with `table` on the left summand and `other` on the right. -/
def sum (table other : Renaming) : Except LabelError Renaming :=
  match codomainFound : table.codomain.sum other.codomain with
  | .error error => .error error
  | .ok codomain =>
    match domainFound : table.domain.sum other.domain with
    | .error error => .error error
    | .ok domain =>
      .ok {
        codomain := codomain
        images := table.images ++ other.images.map (·.shift table.codomain.count)
        domain_fits := by
          have := domain.fits
          rw [Size.sum_eq_ok_iff.mp domainFound] at this
          simpa using this
        images_within := by
          intro image member
          have total := Size.sum_eq_ok_iff.mp codomainFound
          rcases Array.mem_append.mp member with leftMember | rightMember
          · have := table.images_within image leftMember
            simp only [Label.Within] at this ⊢
            omega
          · obtain ⟨right, otherMember, rfl⟩ := Array.mem_map.mp rightMember
            have := other.images_within right otherMember
            simp only [Label.Within, Label.index_shift] at this ⊢
            omega }

/-- For each label of the codomain, the last label of the domain that is sent to it, if any is. -/
def preimages (table : Renaming) : Array (Option Label) :=
  table.pairs.foldl
    (fun slots (label, image) => slots.setIfInBounds image.index (some label))
    (Array.replicate table.codomain.count none)

/-- There is one slot for each label of the codomain. -/
theorem size_preimages (table : Renaming) : table.preimages.size = table.codomain.count := by
  have foldSize : ∀ (pairs : List (Label × Label)) (slots : Array (Option Label)),
      (pairs.foldl (fun slots (label, image) => slots.setIfInBounds image.index (some label))
        slots).size = slots.size := by
    intro pairs
    induction pairs with
    | nil => exact fun _ => rfl
    | cons pair rest inductionHypothesis => exact fun slots => by simp [inductionHypothesis]
  simp [preimages, foldSize]

/-- Each preimage is a label of the domain. -/
theorem preimages_within (table : Renaming) {label : Label}
    (member : some label ∈ table.preimages) : label.Within table.domain := by
  have pairsWithin : ∀ pair ∈ table.pairs, pair.1.Within table.domain := by
    intro pair pairMember
    obtain ⟨entry, entryMember, rfl⟩ := List.mem_map.mp pairMember
    have := List.snd_lt_of_mem_zipIdx entryMember
    simpa [Label.Within] using this
  have foldWithin : ∀ (pairs : List (Label × Label)) (slots : Array (Option Label)),
      (∀ pair ∈ pairs, pair.1.Within table.domain) →
      (∀ earlier, some earlier ∈ slots → earlier.Within table.domain) →
      some label ∈ pairs.foldl
        (fun slots (label, image) => slots.setIfInBounds image.index (some label)) slots →
      label.Within table.domain := by
    intro pairs
    induction pairs with
    | nil => exact fun slots _ slotsWithin slotMember => slotsWithin label slotMember
    | cons pair rest inductionHypothesis =>
      intro slots allWithin slotsWithin slotMember
      refine inductionHypothesis _ (fun next nextMember => allWithin next (.tail _ nextMember))
        (fun earlier earlierMember => ?_) slotMember
      rcases Array.mem_or_eq_of_mem_setIfInBounds earlierMember with older | newest
      · exact slotsWithin earlier older
      · cases newest
        exact allWithin pair (.head _)
  exact foldWithin table.pairs _ pairsWithin (by simp) member

/-- The renaming back, for a renaming that permutes one label space. With equal sizes on both sides
it does so exactly when every label of the codomain has a preimage. -/
def inverse (table : Renaming) : Except LabelError Renaming :=
  if table.domain = table.codomain then
    if onto : ∀ slot ∈ table.preimages, slot.isSome then
      .ok {
        codomain := table.domain
        images := table.preimages.attach.map fun slot => slot.val.get (onto slot.val slot.property)
        domain_fits := by simpa [size_preimages] using table.codomain.fits
        images_within := by
          intro image member
          obtain ⟨⟨slot, slotMember⟩, _, rfl⟩ := Array.mem_map.mp member
          exact table.preimages_within (by simpa using slotMember) }
    else
      .error .notBijective
  else
    .error .notBijective

/-- Whether a renaming permutes one label space. -/
def isPermutation (table : Renaming) : Bool := table.inverse.isOk

end Flowgraph.Renaming
