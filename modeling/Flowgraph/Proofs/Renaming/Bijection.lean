import Mathlib.Data.Fintype.EquivFin
import Flowgraph.Proofs.Renaming.Interchange
import Flowgraph.Proofs.Renaming.Inverse

/-!
# Which renamings can be undone

A renaming between spaces of one size that gives no image twice misses none either, because the spaces
are finite. So `Renaming.inverse` leaves no slot empty exactly for the bijections, which is
`exists_inverse_iff`, and what it returns is the one renaming that undoes the other on both sides, which
is `inverse_eq_ok_iff`. By `Inverts.iff_andThen` that is the one which composes to identities with it, and
nothing needs to be said about the sizes. What undoes a composite or an interchange is put together from
what undoes its parts.
-/

namespace Flowgraph.Renaming

/-- A renaming between spaces of one size under which no two labels have the same image. -/
structure Bijective (table : Renaming) : Prop where
  square : table.domain = table.codomain
  injective : ∀ left right : Label, left.Within table.domain → right.Within table.domain →
    table.image left = table.image right → left = right

section Finite

variable {table : Renaming}

/-- The images of a renaming between spaces of one size, as a function on their positions. -/
def position (table : Renaming) (square : table.domain = table.codomain)
    (index : Fin table.domain.count) : Fin table.domain.count :=
  ⟨(table.image ⟨index⟩).index,
    Nat.lt_of_lt_of_eq (table.image_within index.isLt) (congrArg Size.count square).symm⟩

/-- Between spaces of one size, no image is given twice exactly when none is missed. -/
theorem injective_iff_onto (square : table.domain = table.codomain) :
    (∀ left right : Label, left.Within table.domain → right.Within table.domain →
        table.image left = table.image right → left = right) ↔
      ∀ label : Label, label.Within table.codomain →
        ∃ source : Label, source.Within table.domain ∧ table.image source = label := by
  have finite : Function.Injective (table.position square) ↔
      Function.Surjective (table.position square) := Finite.injective_iff_surjective
  constructor
  · intro injective label inside
    have onto := finite.mp fun left right same =>
      Fin.ext (congrArg Label.index
        (injective ⟨left⟩ ⟨right⟩ left.isLt right.isLt (Label.ext (Fin.mk.inj same))))
    obtain ⟨source, sent⟩ := onto ⟨label.index, square ▸ inside⟩
    exact ⟨⟨source⟩, source.isLt, Label.ext (Fin.mk.inj sent)⟩
  · intro onto left right leftInside rightInside same
    have injective := finite.mpr fun index => by
      obtain ⟨source, sourceInside, sent⟩ := onto ⟨index⟩ (square ▸ index.isLt)
      exact ⟨⟨source.index, sourceInside⟩, Fin.ext (congrArg Label.index sent)⟩
    have positions : (⟨left.index, leftInside⟩ : Fin table.domain.count) =
        ⟨right.index, rightInside⟩ :=
      injective (Fin.ext (congrArg Label.index same))
    exact Label.ext (Fin.mk.inj positions)

/-- A codomain is not smaller than a domain of which no two labels have the same image. -/
theorem count_domain_le_codomain
    (injective : ∀ left right : Label, left.Within table.domain → right.Within table.domain →
      table.image left = table.image right → left = right) :
    table.domain.count ≤ table.codomain.count := by
  have placed : Function.Injective fun index : Fin table.domain.count =>
      (⟨(table.image ⟨index⟩).index, table.image_within index.isLt⟩ : Fin table.codomain.count) :=
    fun left right same => Fin.ext (congrArg Label.index
      (injective ⟨left⟩ ⟨right⟩ left.isLt right.isLt (Label.ext (Fin.mk.inj same))))
  simpa only [Fintype.card_fin] using Fintype.card_le_of_injective _ placed

end Finite

section Inverse

variable {table back : Renaming}

/-- What `Renaming.inverse` returns sends each label to one that is sent there. -/
theorem image_inverse (made : table.inverse = .ok back) {label : Label}
    (inside : label.Within table.codomain) :
    (back.image label).Within table.domain ∧ table.image (back.image label) = label := by
  unfold inverse at made
  split at made
  · split at made
    · rename_i onto
      cases made
      have bound : label.index < table.preimages.size := table.size_preimages.symm ▸ inside
      have found : table.preimages[label.index]? = some table.preimages[label.index] :=
        Array.getElem?_eq_getElem bound
      rcases table.slot_preimages inside with ⟨empty, _⟩ | ⟨source, filled, sourceInside, sent⟩
      · have isSome := onto _ (Array.getElem_mem bound)
        rw [Option.some.inj (found.symm.trans empty)] at isSome
        cases isSome
      · have slot := Option.some.inj (found.symm.trans filled)
        rw [show Renaming.image _ label = source from image_of_getElem? ?_]
        · exact ⟨sourceInside, sent⟩
        · rw [Array.getElem?_eq_getElem (by simpa using bound)]
          simp [slot]
    · cases made
  · cases made

/-- The inverse of a renaming is the renaming that undoes it. -/
theorem inverse_eq_ok_iff : table.inverse = .ok back ↔ Inverts back table := by
  constructor
  · intro made
    have sizes : table.domain = table.codomain ∧ back.domain = table.codomain ∧
        back.codomain = table.domain := by
      unfold inverse at made
      split at made
      · rename_i square
        split at made
        · cases made
          exact ⟨square, Size.ext (by simp [size_preimages]), rfl⟩
        · cases made
      · cases made
    obtain ⟨square, domain, codomain⟩ := sizes
    have injective := (injective_iff_onto square).mpr fun label inside =>
      ⟨back.image label, image_inverse made inside⟩
    refine ⟨square, domain, codomain, fun label inside => ?_, fun label inside => ?_⟩
    · have image := table.image_within inside
      obtain ⟨backInside, sent⟩ := image_inverse made image
      exact injective _ _ backInside inside sent
    · exact (image_inverse made inside).2
  · exact Inverts.inverse_eq_ok

/-- What can be undone is a bijection. -/
theorem Inverts.bijective (inverts : Inverts back table) : table.Bijective where
  square := inverts.square
  injective left right leftInside rightInside same := by
    rw [← inverts.image_image left leftInside, same, inverts.image_image right rightInside]

/-- A renaming has an inverse exactly when it is a bijection. -/
theorem exists_inverse_iff : (∃ back, table.inverse = .ok back) ↔ table.Bijective := by
  constructor
  · rintro ⟨back, made⟩
    exact (inverse_eq_ok_iff.mp made).bijective
  · rintro ⟨square, injective⟩
    have onto : ∀ slot ∈ table.preimages, slot.isSome := by
      intro slot member
      obtain ⟨index, bound, rfl⟩ := Array.mem_iff_getElem.mp member
      have inside : Label.Within ⟨index⟩ table.codomain := by
        rw [Label.Within, ← size_preimages]
        exact bound
      rcases table.slot_preimages inside with ⟨_, absent⟩ | ⟨source, filled, _, _⟩
      · obtain ⟨source, sourceInside, sent⟩ := (injective_iff_onto square).mp injective _ inside
        exact absurd sent (absent source sourceInside)
      · rw [Array.getElem?_eq_getElem bound] at filled
        rw [Option.some.inj filled]
        rfl
    rw [inverse, if_pos square, dif_pos onto]
    exact ⟨_, rfl⟩

/-- It has none exactly when it is no bijection, and there is one way to report that. -/
theorem inverse_eq_error_iff {error : LabelError} :
    table.inverse = .error error ↔ ¬ table.Bijective ∧ error = .notBijective := by
  rw [← exists_inverse_iff]
  unfold inverse
  split
  · split <;> simp [eq_comm]
  · simp [eq_comm]

/-- Asking whether a renaming permutes its space is asking whether it is a bijection. -/
theorem isPermutation_iff : table.isPermutation = true ↔ table.Bijective := by
  rw [isPermutation, ← exists_inverse_iff]
  cases table.inverse with
  | error error => simp [Except.isOk, Except.toBool]
  | ok back => simp [Except.isOk, Except.toBool]

instance (table : Renaming) : Decidable table.Bijective :=
  decidable_of_iff (table.isPermutation = true) isPermutation_iff

end Inverse

namespace Inverts

variable {table back next nextBack total : Renaming}

/-- What is undone by a renaming undoes it. -/
theorem symm (inverts : Inverts back table) : Inverts table back where
  square := by rw [inverts.domain_eq, inverts.codomain_eq, inverts.square]
  domain_eq := inverts.codomain_eq.symm
  codomain_eq := inverts.domain_eq.symm
  image_image label inside := inverts.image_back label (inverts.domain_eq ▸ inside)
  image_back label inside := inverts.image_image label (inverts.codomain_eq ▸ inside)

/-- One renaming after another is undone by undoing the second and then the first. -/
theorem andThen (inverts : Inverts back table) (nextInverts : Inverts nextBack next)
    (made : table.andThen next = .ok total) :
    ∃ totalBack, nextBack.andThen back = .ok totalBack ∧ Inverts totalBack total := by
  obtain ⟨agree, codomain, -⟩ := andThen_eq_ok_iff.mp made
  have domain := domain_andThen made
  have meet : nextBack.codomain = back.domain := by
    rw [nextInverts.codomain_eq, inverts.domain_eq, agree]
  obtain ⟨totalBack, backMade⟩ := exists_andThen meet
  obtain ⟨-, backCodomain, -⟩ := andThen_eq_ok_iff.mp backMade
  have backDomain := domain_andThen backMade
  refine ⟨totalBack, backMade, ?_, ?_, ?_, ?_, ?_⟩
  · rw [domain, codomain, inverts.square, agree, nextInverts.square]
  · rw [backDomain, nextInverts.domain_eq, codomain]
  · rw [backCodomain, inverts.codomain_eq, domain]
  · intro label inside
    rw [domain] at inside
    have middle : (table.image label).Within next.domain := agree ▸ table.image_within inside
    have image := next.image_within middle
    rw [image_andThen made inside, image_andThen backMade (nextInverts.domain_eq ▸ image),
      nextInverts.image_image _ middle, inverts.image_image label inside]
  · intro label inside
    rw [codomain] at inside
    have middle : (nextBack.image label).Within table.codomain :=
      agree ▸ nextInverts.back_within inside
    rw [image_andThen backMade (nextInverts.domain_eq ▸ inside),
      image_andThen made (inverts.back_within middle), inverts.image_back _ middle,
      nextInverts.image_back label inside]

/-- To undo a renaming is to be composed with it to an identity, on both sides. That both spaces are of one
size need not be asked for: neither has room for an image of the other that gives no label twice. -/
theorem iff_andThen :
    Inverts back table ↔
      table.andThen back = .ok (.identity table.domain) ∧
        back.andThen table = .ok (.identity table.codomain) := by
  constructor
  · intro inverts
    constructor
    · refine andThen_eq_ok inverts.domain_eq.symm (domain_identity _) inverts.codomain_eq.symm
        fun label inside => ?_
      rw [image_identity, inverts.image_image label inside]
    · refine andThen_eq_ok inverts.codomain_eq ((domain_identity _).trans inverts.domain_eq.symm) rfl
        fun label inside => ?_
      rw [image_identity, inverts.image_back label (inverts.domain_eq ▸ inside)]
  · rintro ⟨forth, around⟩
    obtain ⟨meet, codomain, -⟩ := andThen_eq_ok_iff.mp forth
    have images (label : Label) (inside : label.Within table.domain) :
        back.image (table.image label) = label := by
      rw [← image_andThen forth inside, image_identity]
    have backImages (label : Label) (inside : label.Within table.codomain) :
        table.image (back.image label) = label := by
      rw [← image_andThen around (meet ▸ inside), image_identity]
    have narrow : table.domain.count ≤ table.codomain.count :=
      count_domain_le_codomain fun left right leftInside rightInside same => by
        rw [← images left leftInside, same, images right rightInside]
    have wide : back.domain.count ≤ back.codomain.count :=
      count_domain_le_codomain fun left right leftInside rightInside same => by
        rw [← meet] at leftInside rightInside
        rw [← backImages left leftInside, same, backImages right rightInside]
    rw [← meet, ← codomain] at wide
    exact ⟨Size.ext (Nat.le_antisymm narrow wide), meet.symm, codomain.symm, images, backImages⟩

end Inverts

section Laws

variable {table next back : Renaming}

/-- A renaming is the inverse of its inverse. -/
theorem inverse_eq_ok_comm : table.inverse = .ok back ↔ back.inverse = .ok table := by
  rw [inverse_eq_ok_iff, inverse_eq_ok_iff]
  exact ⟨Inverts.symm, Inverts.symm⟩

/-- First the inverse of `next`, then that of `table`. -/
def inversesAndThen (table next : Renaming) : Except LabelError Renaming := do
  let last ← next.inverse
  let first ← table.inverse
  last.andThen first

/-- Where two renamings can be undone one by one, that is what it takes to undo their composite. -/
theorem inversesAndThen_eq_ok_iff :
    inversesAndThen table next = .ok back ↔
      (table.Bijective ∧ next.Bijective) ∧ (table.andThen next >>= inverse) = .ok back := by
  simp only [inversesAndThen, bind_eq_ok_iff, inverse_eq_ok_iff]
  constructor
  · rintro ⟨last, nextInverts, first, inverts, backMade⟩
    have meet : table.codomain = next.domain := by
      rw [← inverts.domain_eq, ← (andThen_eq_ok_iff.mp backMade).1, nextInverts.codomain_eq]
    obtain ⟨composite, made⟩ := exists_andThen meet
    obtain ⟨found, foundMade, undone⟩ := inverts.andThen nextInverts made
    rw [backMade] at foundMade
    cases foundMade
    exact ⟨⟨inverts.bijective, nextInverts.bijective⟩, composite, made, undone⟩
  · rintro ⟨⟨bijective, nextBijective⟩, composite, made, undone⟩
    obtain ⟨first, firstMade⟩ := exists_inverse_iff.mpr bijective
    obtain ⟨last, lastMade⟩ := exists_inverse_iff.mpr nextBijective
    have inverts := inverse_eq_ok_iff.mp firstMade
    have nextInverts := inverse_eq_ok_iff.mp lastMade
    obtain ⟨found, foundMade, foundUndoes⟩ := inverts.andThen nextInverts made
    have same := foundUndoes.inverse_eq_ok
    rw [undone.inverse_eq_ok] at same
    cases same
    exact ⟨last, nextInverts, first, inverts, foundMade⟩

/-- Two renamings that meet can be undone one by one exactly when both are bijections. -/
theorem exists_inversesAndThen_iff :
    (∃ back, inversesAndThen table next = .ok back) ↔
      table.Bijective ∧ next.Bijective ∧ table.codomain = next.domain := by
  simp only [inversesAndThen_eq_ok_iff]
  constructor
  · rintro ⟨back, ⟨bijective, nextBijective⟩, undone⟩
    obtain ⟨composite, made, -⟩ := bind_eq_ok_iff.mp undone
    exact ⟨bijective, nextBijective, (andThen_eq_ok_iff.mp made).1⟩
  · rintro ⟨bijective, nextBijective, meet⟩
    obtain ⟨first, firstMade⟩ := exists_inverse_iff.mpr bijective
    obtain ⟨last, lastMade⟩ := exists_inverse_iff.mpr nextBijective
    obtain ⟨composite, made⟩ := exists_andThen meet
    obtain ⟨back, -, undone⟩ :=
      (inverse_eq_ok_iff.mp firstMade).andThen (inverse_eq_ok_iff.mp lastMade) made
    exact ⟨back, ⟨bijective, nextBijective⟩,
      bind_eq_ok_iff.mpr ⟨composite, made, undone.inverse_eq_ok⟩⟩

end Laws

section Interchange

variable {a b c d : Size} {table : Renaming}

/-- Interchanging the groups in their new order undoes an interchange, since exchanging back undoes the
exchange in its middle. -/
theorem Inverts.interchange {back : Renaming} (made : Renaming.interchange a b c d = .ok table)
    (backMade : Renaming.interchange a c b d = .ok back) : Inverts back table := by
  obtain ⟨exchange, tail, exchanged, tailed, summed⟩ := interchange_eq_ok_iff.mp made
  obtain ⟨exchangeBack, tailBack, exchangedBack, tailedBack, summedBack⟩ :=
    interchange_eq_ok_iff.mp backMade
  have middle := Inverts.swap exchanged exchangedBack
  have behind := middle.sum (Inverts.identity d) tailed tailedBack
  exact (Inverts.identity a).sum behind summed summedBack

/-- So every interchange can be undone. -/
theorem exists_inverts_interchange (made : interchange a b c d = .ok table) :
    ∃ back, Inverts back table := by
  have domain := count_domain_interchange made
  have fits := table.domain.fits
  obtain ⟨back, backMade⟩ := exists_interchange (a := a) (b := c) (c := b) (d := d) (by omega)
  exact ⟨back, Inverts.interchange made backMade⟩

end Interchange

end Flowgraph.Renaming
