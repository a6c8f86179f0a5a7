import Flowgraph.Proofs.Renaming.Extension

/-!
# The way back

`Renaming.inverse` enters each label into the slot of its image and then asks whether all slots are
filled. `getElem?_enter` is the invariant of the entering, and `slot_preimages` what it leaves behind:
a slot holds a label that is sent there, or nothing if there is none.

`Inverts` says that a renaming is undone by another on both sides. It passes from parts to sums, and
where it holds, the other one is what `Renaming.inverse` returns.
-/

namespace Flowgraph.Renaming

section Slots

/-- A label and an image are paired by a renaming exactly when the label is in the domain and is sent
there. -/
theorem mem_pairs_iff {table : Renaming} {label image : Label} :
    (label, image) ∈ table.pairs ↔ label.Within table.domain ∧ table.image label = image := by
  constructor
  · intro member
    obtain ⟨⟨_, index⟩, entry, paired⟩ := List.mem_map.mp member
    cases paired
    have placed : table.images[index]? = some image := by
      simpa [List.mk_mem_zipIdx_iff_getElem?] using entry
    obtain ⟨inside, -⟩ := Array.getElem?_eq_some_iff.mp placed
    exact ⟨inside, image_of_getElem? placed⟩
  · rintro ⟨inside, rfl⟩
    refine List.mem_map.mpr ⟨(table.image label, label.index), ?_, rfl⟩
    rw [List.mk_mem_zipIdx_iff_getElem?, Array.getElem?_toList, image_eq_getElem table inside]
    exact Array.getElem?_eq_getElem inside

/-- After some labels have been entered, a slot holds one of those that belong there, or what it held
before if there are none. -/
theorem getElem?_enter (pairs : List (Label × Label)) {slots : Array (Option Label)} {index : Nat}
    {slot : Option Label}
    (found : (pairs.foldl (fun slots (label, image) => slots.setIfInBounds image.index (some label))
      slots)[index]? = some slot) :
    (slots[index]? = some slot ∧ ∀ label, (label, ⟨index⟩) ∉ pairs) ∨
      ∃ label, slot = some label ∧ (label, ⟨index⟩) ∈ pairs := by
  induction pairs generalizing slots with
  | nil => exact .inl ⟨found, by simp⟩
  | cons pair rest inductionHypothesis =>
    obtain ⟨entered, image⟩ := pair
    rcases inductionHypothesis found with ⟨earlier, absent⟩ | ⟨label, rfl, member⟩
    · rw [Array.getElem?_setIfInBounds] at earlier
      by_cases here : image.index = index
      · -- The first label was entered here, and none after it.
        obtain rfl : image = ⟨index⟩ := Label.ext here
        rw [if_pos rfl] at earlier
        split at earlier
        · cases earlier
          exact .inr ⟨entered, rfl, .head _⟩
        · cases earlier
      · rw [if_neg here] at earlier
        refine .inl ⟨earlier, fun label member => ?_⟩
        rcases List.mem_cons.mp member with first | later
        · cases first
          exact here rfl
        · exact absent label later
    · exact .inr ⟨label, rfl, .tail _ member⟩

/-- The slot of a label of the codomain holds a label that is sent there, or nothing if there is
none. -/
theorem slot_preimages (table : Renaming) {label : Label} (inside : label.Within table.codomain) :
    (table.preimages[label.index]? = some none ∧
        ∀ source : Label, source.Within table.domain → table.image source ≠ label) ∨
      ∃ source : Label, table.preimages[label.index]? = some (some source) ∧
        source.Within table.domain ∧ table.image source = label := by
  have bound : label.index < table.preimages.size := table.size_preimages.symm ▸ inside
  have found : table.preimages[label.index]? = some table.preimages[label.index] :=
    Array.getElem?_eq_getElem bound
  rcases getElem?_enter table.pairs found with ⟨initial, absent⟩ | ⟨source, filled, member⟩
  · left
    have empty : none = table.preimages[label.index] := by
      simpa [Array.getElem?_replicate, show label.index < table.codomain.count from inside]
        using initial
    rw [found, ← empty]
    refine ⟨rfl, fun source sourceInside sent => ?_⟩
    exact absent source (mem_pairs_iff.mpr ⟨sourceInside, sent⟩)
  · right
    obtain ⟨sourceInside, sent⟩ := mem_pairs_iff.mp member
    exact ⟨source, found.trans (congrArg some filled), sourceInside, sent⟩

end Slots

/-- `back` undoes `table`, which permutes one space. -/
structure Inverts (back table : Renaming) : Prop where
  square : table.domain = table.codomain
  domain_eq : back.domain = table.codomain
  codomain_eq : back.codomain = table.domain
  image_image : ∀ label : Label, label.Within table.domain → back.image (table.image label) = label
  image_back : ∀ label : Label, label.Within table.codomain →
    table.image (back.image label) = label

namespace Inverts

variable {table back : Renaming}

/-- What undoes a renaming leads into its domain. -/
theorem back_within (inverts : Inverts back table) {label : Label}
    (inside : label.Within table.codomain) : (back.image label).Within table.domain := by
  rw [← inverts.codomain_eq]
  exact back.image_within (inverts.domain_eq ▸ inside)

/-- Where a renaming is undone, each slot holds the label that is sent there. -/
theorem preimages_eq (inverts : Inverts back table) {label : Label}
    (inside : label.Within table.codomain) :
    table.preimages[label.index]? = some (some (back.image label)) := by
  have sent := inverts.image_back label inside
  rcases table.slot_preimages inside with ⟨_, absent⟩ | ⟨source, found, sourceInside, rfl⟩
  · exact absurd sent (absent _ (inverts.back_within inside))
  · rw [found, inverts.image_image source sourceInside]

/-- So the slots are the table of what undoes the renaming. -/
theorem preimages_eq_map (inverts : Inverts back table) :
    table.preimages = back.images.map some := by
  have sizes : table.preimages.size = back.images.size := by
    rw [size_preimages, ← count_domain, inverts.domain_eq]
  refine Array.ext (by simpa using sizes) fun index bound placed => ?_
  have inside : Label.Within ⟨index⟩ table.codomain := by
    rw [Label.Within, ← size_preimages]
    exact bound
  have found := inverts.preimages_eq inside
  rw [Array.getElem?_eq_getElem bound] at found
  rw [Option.some.inj found, Array.getElem_map]
  exact congrArg some (image_eq_getElem back (sizes ▸ bound))

/-- What undoes a renaming is its inverse. -/
theorem inverse_eq_ok (inverts : Inverts back table) : table.inverse = .ok back := by
  have onto : ∀ slot ∈ table.preimages, slot.isSome := by
    simp [inverts.preimages_eq_map]
  rw [inverse, if_pos inverts.square, dif_pos onto]
  refine congrArg Except.ok (Renaming.ext inverts.codomain_eq.symm ?_)
  exact Array.ext (by simp [inverts.preimages_eq_map]) fun index _ _ => by
    simp [inverts.preimages_eq_map]

/-- Continued to all labels, the two undo each other as well. -/
theorem extend_back (inverts : Inverts back table) (label : Label) :
    table.extend (back.extend label) = label := by
  by_cases inside : label.Within back.domain
  · have source : label.Within table.codomain := inverts.domain_eq ▸ inside
    rw [back.extend_of_within inside, table.extend_of_within (inverts.back_within source),
      inverts.image_back label source]
  · obtain ⟨outer, rfl⟩ := Label.exists_eq_shift_of_le (Nat.not_lt.mp inside)
    rw [back.extend_shift, inverts.codomain_eq, table.extend_shift, inverts.domain_eq]

/-- The identity undoes itself. -/
theorem identity (size : Size) : Inverts (.identity size) (.identity size) where
  square := domain_identity size
  domain_eq := domain_identity size
  codomain_eq := (domain_identity size).symm
  image_image label _ := by rw [image_identity, image_identity]
  image_back label _ := by rw [image_identity, image_identity]

/-- Exchanging two summands is undone by exchanging them again. -/
theorem swap {a b : Size} (made : Renaming.swap a b = .ok table)
    (backMade : Renaming.swap b a = .ok back) : Inverts back table := by
  have domain := count_domain_swap made
  have codomain := count_codomain_swap made
  have backDomain := count_domain_swap backMade
  have backCodomain := count_codomain_swap backMade
  refine ⟨Size.ext (by omega), Size.ext (by omega), Size.ext (by omega), ?_, ?_⟩
  · intro label inside
    rw [Label.Within, domain] at inside
    rcases Nat.lt_or_ge label.index a.count with front | behind
    · rw [image_swap_left made front, image_swap_right backMade front]
    · obtain ⟨right, rfl⟩ := Label.exists_eq_shift_of_le behind
      have rightInside : right.Within b := Nat.lt_of_add_lt_add_left inside
      rw [image_swap_right made rightInside, image_swap_left backMade rightInside]
  · intro label inside
    rw [Label.Within, codomain, Nat.add_comm] at inside
    rcases Nat.lt_or_ge label.index b.count with front | behind
    · rw [image_swap_left backMade front, image_swap_right made front]
    · obtain ⟨left, rfl⟩ := Label.exists_eq_shift_of_le behind
      have leftInside : left.Within a := Nat.lt_of_add_lt_add_left inside
      rw [image_swap_right backMade leftInside, image_swap_left made leftInside]

/-- Renamings side by side are undone side by side. -/
theorem sum {other otherBack total totalBack : Renaming} (inverts : Inverts back table)
    (otherInverts : Inverts otherBack other) (made : table.sum other = .ok total)
    (backMade : back.sum otherBack = .ok totalBack) : Inverts totalBack total := by
  have domain := count_domain_sum made
  have codomain := count_codomain_sum made
  have backDomain := count_domain_sum backMade
  have backCodomain := count_codomain_sum backMade
  rw [inverts.domain_eq, otherInverts.domain_eq] at backDomain
  rw [inverts.codomain_eq, otherInverts.codomain_eq] at backCodomain
  have square := congrArg Size.count inverts.square
  have otherSquare := congrArg Size.count otherInverts.square
  refine ⟨Size.ext (by omega), Size.ext (by omega), Size.ext (by omega), ?_, ?_⟩
  · intro label inside
    rw [Label.Within, domain] at inside
    rcases Nat.lt_or_ge label.index table.domain.count with front | behind
    · have image := table.image_within front
      rw [image_sum_left made front, image_sum_left backMade (inverts.domain_eq ▸ image),
        inverts.image_image label front]
    · obtain ⟨right, rfl⟩ := Label.exists_eq_shift_of_le behind
      have rightInside : right.Within other.domain := Nat.lt_of_add_lt_add_left inside
      have image := other.image_within rightInside
      rw [image_sum_right made rightInside, ← inverts.domain_eq,
        image_sum_right backMade (otherInverts.domain_eq ▸ image),
        otherInverts.image_image right rightInside, inverts.codomain_eq]
  · intro label inside
    rw [Label.Within, codomain] at inside
    rcases Nat.lt_or_ge label.index table.codomain.count with front | behind
    · rw [image_sum_left backMade (inverts.domain_eq ▸ front),
        image_sum_left made (inverts.back_within front), inverts.image_back label front]
    · obtain ⟨right, rfl⟩ := Label.exists_eq_shift_of_le behind
      have rightInside : right.Within other.codomain := Nat.lt_of_add_lt_add_left inside
      have image := image_sum_right backMade (otherInverts.domain_eq ▸ rightInside)
      rw [inverts.domain_eq, inverts.codomain_eq] at image
      rw [image, image_sum_right made (otherInverts.back_within rightInside),
        otherInverts.image_back right rightInside]

/-- So a sum can be undone as soon as both summands can. -/
theorem exists_sum {other otherBack total : Renaming} (inverts : Inverts back table)
    (otherInverts : Inverts otherBack other) (made : table.sum other = .ok total) :
    ∃ totalBack, Inverts totalBack total := by
  have domain := count_domain_sum made
  have codomain := count_codomain_sum made
  have domainFits := total.domain.fits
  have codomainFits := total.codomain.fits
  obtain ⟨totalBack, backMade⟩ := Renaming.exists_sum back otherBack
    (by rw [inverts.codomain_eq, otherInverts.codomain_eq]; omega)
    (by rw [inverts.domain_eq, otherInverts.domain_eq]; omega)
  exact ⟨totalBack, inverts.sum otherInverts made backMade⟩

end Inverts

/-- Every exchange of two summands can be undone. -/
theorem exists_inverts_swap {a b : Size} {table : Renaming} (made : swap a b = .ok table) :
    ∃ back, Inverts back table := by
  have domain := count_domain_swap made
  have fits := table.domain.fits
  obtain ⟨back, backMade⟩ := exists_swap b a (by omega)
  exact ⟨back, Inverts.swap made backMade⟩

section SwapBehind

/-- Exchange two neighbouring summands behind one that stays: `kept + (a + b) → kept + (b + a)`. -/
def swapBehind (kept a b : Size) : Except LabelError Renaming := do
  (Renaming.identity kept).sum (← Renaming.swap a b)

variable {kept a b : Size} {table : Renaming}

theorem swapBehind_eq_ok_iff :
    swapBehind kept a b = .ok table ↔
      ∃ exchange, swap a b = .ok exchange ∧ (identity kept).sum exchange = .ok table :=
  bind_eq_ok_iff

/-- Three summands with a sum can be rearranged in this way. -/
theorem exists_swapBehind (kept a b : Size) (fits : kept.count + a.count + b.count < Size.limit) :
    ∃ table, swapBehind kept a b = .ok table := by
  obtain ⟨exchange, exchanged⟩ := exists_swap a b (by omega)
  have domain := count_domain_swap exchanged
  have codomain := count_codomain_swap exchanged
  obtain ⟨table, made, -, -⟩ := exists_identity_sum kept exchange (by omega) (by omega)
  exact ⟨table, swapBehind_eq_ok_iff.mpr ⟨exchange, exchanged, made⟩⟩

variable (made : swapBehind kept a b = .ok table)

include made

theorem count_domain_swapBehind :
    table.domain.count = kept.count + a.count + b.count := by
  obtain ⟨exchange, exchanged, summed⟩ := swapBehind_eq_ok_iff.mp made
  rw [count_domain_sum summed, domain_identity, count_domain_swap exchanged, Nat.add_assoc]

/-- Every such exchange can be undone. -/
theorem exists_inverts_swapBehind : ∃ back, Inverts back table := by
  obtain ⟨exchange, exchanged, summed⟩ := swapBehind_eq_ok_iff.mp made
  obtain ⟨exchangeBack, inverts⟩ := exists_inverts_swap exchanged
  exact (Inverts.identity kept).exists_sum inverts summed

/-- It does to labels what `Label.exchange` does, and leaves those behind it where they are. -/
theorem extend_swapBehind (label : Label) :
    table.extend label = label.exchange kept.count a.count b.count := by
  obtain ⟨exchange, exchanged, summed⟩ := swapBehind_eq_ok_iff.mp made
  have trades : exchange.extend = (·.exchange 0 a.count b.count) :=
    funext (extend_swap exchanged)
  rw [extend_identity_sum summed, trades, Label.mapVisible_exchange, Nat.add_zero]

end SwapBehind

end Flowgraph.Renaming
