import Flowgraph.Proofs.Label
import Flowgraph.Proofs.Renaming.Extension

/-!
# The interchange of summands in closed form

`Renaming.interchange` is made of five steps, but regrouping a flat sum changes nothing, so only the
exchange in the middle is left: `interchange_eq_ok_iff` says so. What it does to a label is then
read off group by group, and each group of the sum moves as one.
-/

namespace Flowgraph.Renaming

variable {a b c d : Size}

/-- Regrouping to the right comes out exactly when all three spaces have a sum, and does nothing. -/
theorem regroupRight_eq_ok_iff {regrouped : Renaming} :
    regroupRight a b c = .ok regrouped ↔
      ∃ total : Size, total.count = a.count + b.count + c.count ∧ regrouped = identity total := by
  simp only [regroupRight, bind_eq_ok_iff, pure_eq_ok_iff, Size.sum_eq_ok_iff]
  constructor
  · rintro ⟨left, leftCount, total, totalCount, rfl⟩
    exact ⟨total, by omega, rfl⟩
  · rintro ⟨total, totalCount, rfl⟩
    have fits := total.fits
    exact ⟨⟨a.count + b.count, by omega⟩, rfl, total, totalCount, rfl⟩

/-- Regrouping to the right fails exactly when the three spaces together are too large. -/
theorem regroupRight_eq_error_iff {error : LabelError} :
    regroupRight a b c = .error error ↔
      Size.limit ≤ a.count + b.count + c.count ∧ error = .overflow := by
  simp only [regroupRight, bind_eq_error_iff, Size.sum_eq_error_iff, Size.sum_eq_ok_iff]
  constructor
  · rintro (⟨wide, rfl⟩ | ⟨left, leftCount, ⟨wide, rfl⟩ | ⟨total, _, returned⟩⟩)
    · exact ⟨by omega, rfl⟩
    · exact ⟨by omega, rfl⟩
    · cases returned
  · rintro ⟨wide, rfl⟩
    rcases Nat.lt_or_ge (a.count + b.count) Size.limit with fits | leftWide
    · exact .inr ⟨⟨_, fits⟩, rfl, .inl ⟨wide, rfl⟩⟩
    · exact .inl ⟨leftWide, rfl⟩

/-- Regrouping to the left comes out exactly when all three spaces have a sum, and does nothing. -/
theorem regroupLeft_eq_ok_iff {regrouped : Renaming} :
    regroupLeft a b c = .ok regrouped ↔
      ∃ total : Size, total.count = a.count + b.count + c.count ∧ regrouped = identity total := by
  simp only [regroupLeft, bind_eq_ok_iff, pure_eq_ok_iff, Size.sum_eq_ok_iff]
  constructor
  · rintro ⟨right, rightCount, total, totalCount, rfl⟩
    exact ⟨total, by omega, rfl⟩
  · rintro ⟨total, totalCount, rfl⟩
    have fits := total.fits
    exact ⟨⟨b.count + c.count, by omega⟩, rfl, total, by simp only; omega, rfl⟩

/-- The exchange of the two middle summands of four, with the outer ones left alone, permutes the
labels of the sum of all four. -/
theorem count_exchange_middle {exchange tail table : Renaming}
    (exchanged : swap b c = .ok exchange) (tailed : exchange.sum (identity d) = .ok tail)
    (summed : (identity a).sum tail = .ok table) :
    table.domain.count = a.count + b.count + c.count + d.count ∧
      table.codomain.count = a.count + b.count + c.count + d.count := by
  rw [count_domain_sum summed, count_domain_sum tailed, count_domain_swap exchanged,
    count_codomain_sum summed, count_codomain_sum tailed, count_codomain_swap exchanged]
  simp only [domain_identity, codomain_identity]
  omega

/-- An interchange is the exchange of the two middle summands, with the outer ones left alone. -/
theorem interchange_eq_ok_iff {table : Renaming} :
    interchange a b c d = .ok table ↔
      ∃ exchange tail : Renaming, swap b c = .ok exchange ∧
        exchange.sum (identity d) = .ok tail ∧ (identity a).sum tail = .ok table := by
  simp only [interchange, bind_eq_ok_iff, regroupRight_eq_ok_iff, regroupLeft_eq_ok_iff,
    Size.sum_eq_ok_iff]
  constructor
  · rintro ⟨_, _, _, ⟨_, _, rfl⟩, _, ⟨_, _, rfl⟩, _, paired, _, first, exchange, exchanged, tail,
      tailed, swapped, summed, _, second, _, ⟨_, _, rfl⟩, _, unpaired, _, third, _, _, _,
      ⟨_, _, rfl⟩, last⟩
    -- The steps around the exchange are identities, and drop out one by one.
    obtain ⟨_, _, rfl⟩ := identity_sum_identity_eq_ok_iff.mp paired
    obtain ⟨_, _, rfl⟩ := identity_sum_identity_eq_ok_iff.mp unpaired
    obtain ⟨_, rfl⟩ := identity_andThen_eq_ok_iff.mp first
    obtain ⟨_, rfl⟩ := identity_andThen_eq_ok_iff.mp second
    obtain ⟨_, rfl⟩ := andThen_identity_eq_ok_iff.mp third
    obtain ⟨_, rfl⟩ := andThen_identity_eq_ok_iff.mp last
    exact ⟨exchange, tail, exchanged, tailed, summed⟩
  · rintro ⟨exchange, tail, exchanged, tailed, summed⟩
    obtain ⟨domain, codomain⟩ := count_exchange_middle exchanged tailed summed
    have square : table.codomain = table.domain := Size.ext (by omega)
    have fits := table.codomain.fits
    -- Every step acts on the one space of all four summands, whose size is that of the codomain.
    refine ⟨⟨c.count + d.count, by omega⟩, rfl, identity table.codomain,
      ⟨table.codomain, by simp only; omega, rfl⟩, identity ⟨b.count + c.count + d.count, by omega⟩,
      ⟨_, rfl, rfl⟩, identity table.codomain,
      identity_sum_identity_eq_ok_iff.mpr ⟨table.codomain, by simp only; omega, rfl⟩,
      identity table.codomain, identity_andThen_eq_ok_iff.mpr ⟨(domain_identity _).symm, rfl⟩,
      exchange, exchanged, tail, tailed, table, summed,
      table, identity_andThen_eq_ok_iff.mpr ⟨square, rfl⟩,
      identity ⟨c.count + b.count + d.count, by omega⟩, ⟨_, rfl, rfl⟩, identity table.codomain,
      identity_sum_identity_eq_ok_iff.mpr ⟨table.codomain, by simp only; omega, rfl⟩,
      table, andThen_identity_eq_ok_iff.mpr ⟨rfl, rfl⟩,
      ⟨b.count + d.count, by omega⟩, rfl, identity table.codomain,
      ⟨table.codomain, by simp only; omega, rfl⟩, andThen_identity_eq_ok_iff.mpr ⟨rfl, rfl⟩⟩

/-- Two sums can be interchanged as soon as all four spaces have a sum. -/
theorem exists_interchange (fits : a.count + b.count + c.count + d.count < Size.limit) :
    ∃ table, interchange a b c d = .ok table := by
  obtain ⟨exchange, exchanged⟩ := exists_swap b c (by omega)
  have codomain := count_codomain_swap exchanged
  have domain := count_domain_swap exchanged
  obtain ⟨tail, tailed⟩ := exists_sum exchange (identity d)
    (by rw [codomain_identity]; omega) (by rw [domain_identity]; omega)
  have tailCodomain := count_codomain_sum tailed
  have tailDomain := count_domain_sum tailed
  simp only [codomain_identity, domain_identity] at tailCodomain tailDomain
  obtain ⟨table, summed⟩ := exists_sum (identity a) tail
    (by rw [codomain_identity]; omega) (by rw [domain_identity]; omega)
  exact ⟨table, interchange_eq_ok_iff.mpr ⟨exchange, tail, exchanged, tailed, summed⟩⟩

/-- Two sums cannot be interchanged exactly when all four spaces together are too large, and nothing
else is ever reported. -/
theorem interchange_eq_error_iff {error : LabelError} :
    interchange a b c d = .error error ↔
      Size.limit ≤ a.count + b.count + c.count + d.count ∧ error = .overflow := by
  rcases Nat.lt_or_ge (a.count + b.count + c.count + d.count) Size.limit with fits | wide
  · obtain ⟨table, made⟩ := exists_interchange fits
    simp only [made, reduceCtorEq, false_iff]
    omega
  · -- The sums of the first step fail already.
    have failed : interchange a b c d = .error .overflow := by
      rw [interchange, bind_eq_error_iff]
      cases summed : c.sum d with
      | error reported =>
        obtain ⟨-, rfl⟩ := Size.sum_eq_error_iff.mp summed
        exact .inl rfl
      | ok right =>
        have count := Size.sum_eq_ok_iff.mp summed
        refine .inr ⟨right, rfl, bind_eq_error_iff.mpr (.inl ?_)⟩
        exact regroupRight_eq_error_iff.mpr ⟨by omega, rfl⟩
    simp [failed, wide, eq_comm]

section Images

variable {table : Renaming} (made : interchange a b c d = .ok table)

include made

theorem count_domain_interchange :
    table.domain.count = a.count + b.count + c.count + d.count := by
  obtain ⟨exchange, tail, exchanged, tailed, summed⟩ := interchange_eq_ok_iff.mp made
  exact (count_exchange_middle exchanged tailed summed).1

theorem count_codomain_interchange :
    table.codomain.count = a.count + b.count + c.count + d.count := by
  obtain ⟨exchange, tail, exchanged, tailed, summed⟩ := interchange_eq_ok_iff.mp made
  exact (count_exchange_middle exchanged tailed summed).2

/-- The first group stays at the front. -/
theorem image_interchange_first {label : Label} (inside : label.Within a) :
    table.image label = label := by
  obtain ⟨exchange, tail, exchanged, tailed, summed⟩ := interchange_eq_ok_iff.mp made
  rw [image_sum_left summed (by simpa using inside), image_identity]

/-- Behind the first group, an interchange does what its tail does. -/
theorem image_interchange_shift (label : Label)
    (inside : label.index < b.count + c.count + d.count) :
    ∃ exchange tail : Renaming, swap b c = .ok exchange ∧ exchange.sum (identity d) = .ok tail ∧
      table.image (label.shift a.count) = (tail.image label).shift a.count := by
  obtain ⟨exchange, tail, exchanged, tailed, summed⟩ := interchange_eq_ok_iff.mp made
  have domain := count_domain_sum tailed
  rw [count_domain_swap exchanged, domain_identity] at domain
  have behind : label.Within tail.domain := by
    rw [Label.Within, domain]
    exact inside
  have image := image_sum_right summed behind
  rw [domain_identity, codomain_identity] at image
  exact ⟨exchange, tail, exchanged, tailed, image⟩

/-- The second group goes behind the third. -/
theorem image_interchange_second {label : Label} (inside : label.Within b) :
    table.image (label.shift a.count) = label.shift (a.count + c.count) := by
  simp only [Label.Within] at inside
  obtain ⟨exchange, tail, exchanged, tailed, image⟩ :=
    image_interchange_shift made label (by omega)
  have middle : label.Within exchange.domain := by
    rw [Label.Within, count_domain_swap exchanged]
    omega
  rw [image, image_sum_left tailed middle, image_swap_left exchanged inside, Label.shift_shift]

/-- The third group goes before the second. -/
theorem image_interchange_third {label : Label} (inside : label.Within c) :
    table.image (label.shift (a.count + b.count)) = label.shift a.count := by
  simp only [Label.Within] at inside
  obtain ⟨exchange, tail, exchanged, tailed, image⟩ :=
    image_interchange_shift made (label.shift b.count)
      (by rw [Label.index_shift]; omega)
  have middle : (label.shift b.count).Within exchange.domain := by
    rw [Label.Within, count_domain_swap exchanged, Label.index_shift]
    omega
  rw [← Label.shift_shift, image, image_sum_left tailed middle, image_swap_right exchanged inside]

/-- The fourth group stays at the end. -/
theorem image_interchange_fourth {label : Label} (inside : label.Within d) :
    table.image (label.shift (a.count + b.count + c.count)) =
      label.shift (a.count + b.count + c.count) := by
  obtain ⟨exchange, tail, exchanged, tailed, image⟩ :=
    image_interchange_shift made (label.shift (b.count + c.count))
      (by rw [Label.index_shift]; exact Nat.add_lt_add_left inside _)
  have last : label.Within (identity d).domain := by simpa using inside
  have tailImage := image_sum_right tailed last
  rw [image_identity, count_domain_swap exchanged, count_codomain_swap exchanged] at tailImage
  rw [Nat.add_assoc, ← Label.shift_shift, image, tailImage]

/-- An interchange brings the labels of the first sum to where there is room for the third group
behind the first. -/
theorem image_interchange_left {label : Label} (inside : label.index < a.count + b.count) :
    table.image label = label.makeRoom a.count c.count := by
  by_cases first : label.index < a.count
  · rw [image_interchange_first made first, Label.makeRoom_of_lt first]
  · obtain ⟨second, rfl⟩ := Label.exists_eq_shift_of_le (Nat.not_lt.mp first)
    rw [Label.index_shift] at inside
    rw [image_interchange_second made (by simp only [Label.Within]; omega), Label.makeRoom_shift]

/-- An interchange brings the labels of the second sum behind the first group, and makes room for
the second group among them. -/
theorem image_interchange_right {label : Label} (inside : label.index < c.count + d.count) :
    table.image (label.shift (a.count + b.count)) =
      (label.makeRoom c.count b.count).shift a.count := by
  by_cases third : label.index < c.count
  · rw [image_interchange_third made third, Label.makeRoom_of_lt third]
  · obtain ⟨fourth, rfl⟩ := Label.exists_eq_shift_of_le (Nat.not_lt.mp third)
    rw [Label.index_shift] at inside
    rw [Label.shift_shift, image_interchange_fourth made (by simp only [Label.Within]; omega),
      Label.makeRoom_shift, Label.shift_shift, Nat.add_assoc, Nat.add_comm b.count]

/-- Read against its direction, an interchange finds the first and third group side by side. -/
theorem image_interchange_makeRoom {label : Label} (inside : label.index < a.count + c.count) :
    table.image (label.makeRoom a.count b.count) = label := by
  by_cases first : label.index < a.count
  · rw [Label.makeRoom_of_lt first, image_interchange_first made first]
  · obtain ⟨third, rfl⟩ := Label.exists_eq_shift_of_le (Nat.not_lt.mp first)
    rw [Label.index_shift] at inside
    rw [Label.makeRoom_shift, image_interchange_third made (by simp only [Label.Within]; omega)]

/-- Read against its direction, an interchange finds the second and fourth group side by side,
behind the other two. -/
theorem image_interchange_makeRoom_shift {label : Label}
    (inside : label.index < b.count + d.count) :
    table.image ((label.makeRoom b.count c.count).shift a.count) =
      label.shift (a.count + c.count) := by
  by_cases second : label.index < b.count
  · rw [Label.makeRoom_of_lt second, image_interchange_second made second]
  · obtain ⟨fourth, rfl⟩ := Label.exists_eq_shift_of_le (Nat.not_lt.mp second)
    rw [Label.index_shift] at inside
    rw [Label.makeRoom_shift, Label.shift_shift, ← Nat.add_assoc,
      image_interchange_fourth made (by simp only [Label.Within]; omega), Label.shift_shift]
    congr 1
    omega

/-- Continued to all labels, an interchange lets the two middle groups trade places. -/
theorem extend_interchange (label : Label) :
    table.extend label = label.exchange a.count b.count c.count := by
  obtain ⟨exchange, tail, exchanged, tailed, summed⟩ := interchange_eq_ok_iff.mp made
  have trades : tail.extend = (·.exchange 0 b.count c.count) :=
    funext fun label => (extend_sum_identity tailed label).trans (extend_swap exchanged label)
  rw [extend_identity_sum summed, trades, Label.mapVisible_exchange, Nat.add_zero]

end Images

end Flowgraph.Renaming
