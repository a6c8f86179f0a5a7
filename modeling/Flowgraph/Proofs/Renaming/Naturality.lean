import Flowgraph.Proofs.Renaming.Bijection

/-!
# The interchange among other renamings

`Renaming.interchange` moves each of four groups of labels as one, so it is known by what it does to the
groups: `image_interchange` gives it in closed form, and the two middle groups trade places. Interchanging
once more, with the sizes in their new order, brings them back, which makes the one the inverse of the
other. Four renamings can be applied to the groups in their old places, and their codomains interchanged
behind that, or the domains can be interchanged first and the renamings applied in the new places.
`image_interchange_sumOfSums` follows each group on both ways and finds it at the same labels.
-/

namespace Flowgraph.Renaming

section Pairs

/-- Four renamings side by side, in two pairs. -/
def sumOfSums (first second third fourth : Renaming) : Except LabelError Renaming := do
  let left ← first.sum second
  let right ← third.sum fourth
  left.sum right

variable {first second third fourth total : Renaming}

/-- What four renamings side by side are made of. -/
theorem sumOfSums_eq_ok_iff :
    sumOfSums first second third fourth = .ok total ↔
      ∃ left right : Renaming, first.sum second = .ok left ∧ third.sum fourth = .ok right ∧
        left.sum right = .ok total := by
  simp only [sumOfSums, bind_eq_ok_iff]
  constructor
  · rintro ⟨left, leftMade, right, rightMade, made⟩
    exact ⟨left, right, leftMade, rightMade, made⟩
  · rintro ⟨left, right, leftMade, rightMade, made⟩
    exact ⟨left, leftMade, right, rightMade, made⟩

/-- Four renamings can be put side by side as soon as all codomains and all domains have a sum. -/
theorem exists_sumOfSums (first second third fourth : Renaming)
    (codomains : first.codomain.count + second.codomain.count + third.codomain.count +
      fourth.codomain.count < Size.limit)
    (domains : first.domain.count + second.domain.count + third.domain.count +
      fourth.domain.count < Size.limit) :
    ∃ total, sumOfSums first second third fourth = .ok total := by
  obtain ⟨left, leftMade⟩ := exists_sum first second (by omega) (by omega)
  obtain ⟨right, rightMade⟩ := exists_sum third fourth (by omega) (by omega)
  have leftCodomain := count_codomain_sum leftMade
  have leftDomain := count_domain_sum leftMade
  have rightCodomain := count_codomain_sum rightMade
  have rightDomain := count_domain_sum rightMade
  obtain ⟨total, made⟩ := exists_sum left right (by omega) (by omega)
  exact ⟨total, sumOfSums_eq_ok_iff.mpr ⟨left, right, leftMade, rightMade, made⟩⟩

/-- Four renamings cannot be put side by side only because there are too many labels. -/
theorem eq_overflow_of_sumOfSums {error : LabelError}
    (failed : sumOfSums first second third fourth = .error error) : error = .overflow := by
  simp only [sumOfSums, bind_eq_error_iff, sum_eq_error_iff] at failed
  rcases failed with ⟨-, overflow⟩ | ⟨_, _, ⟨-, overflow⟩ | ⟨_, _, -, overflow⟩⟩ <;> exact overflow

section Made

variable (made : sumOfSums first second third fourth = .ok total)

include made

theorem count_domain_sumOfSums :
    total.domain.count = first.domain.count + second.domain.count + third.domain.count +
      fourth.domain.count := by
  obtain ⟨left, right, leftMade, rightMade, made⟩ := sumOfSums_eq_ok_iff.mp made
  rw [count_domain_sum made, count_domain_sum leftMade, count_domain_sum rightMade, Nat.add_assoc,
    Nat.add_assoc, Nat.add_assoc]

theorem count_codomain_sumOfSums :
    total.codomain.count = first.codomain.count + second.codomain.count + third.codomain.count +
      fourth.codomain.count := by
  obtain ⟨left, right, leftMade, rightMade, made⟩ := sumOfSums_eq_ok_iff.mp made
  rw [count_codomain_sum made, count_codomain_sum leftMade, count_codomain_sum rightMade,
    Nat.add_assoc, Nat.add_assoc, Nat.add_assoc]

/-- The first group is renamed where it is. -/
theorem image_sumOfSums_first {label : Label} (inside : label.Within first.domain) :
    total.image label = first.image label := by
  obtain ⟨left, right, leftMade, rightMade, made⟩ := sumOfSums_eq_ok_iff.mp made
  have leftInside : label.Within left.domain := by
    rw [Label.Within, count_domain_sum leftMade]
    exact Nat.lt_add_right _ inside
  rw [image_sum_left made leftInside, image_sum_left leftMade inside]

/-- The second group is renamed behind the first. -/
theorem image_sumOfSums_second {label : Label} (inside : label.Within second.domain) :
    total.image (label.shift first.domain.count) =
      (second.image label).shift first.codomain.count := by
  obtain ⟨left, right, leftMade, rightMade, made⟩ := sumOfSums_eq_ok_iff.mp made
  have leftInside : (label.shift first.domain.count).Within left.domain := by
    rw [Label.Within, count_domain_sum leftMade]
    exact Nat.add_lt_add_left inside _
  rw [image_sum_left made leftInside, image_sum_right leftMade inside]

/-- The third group is renamed behind the first pair. -/
theorem image_sumOfSums_third {label : Label} (inside : label.Within third.domain) :
    total.image (label.shift (first.domain.count + second.domain.count)) =
      (third.image label).shift (first.codomain.count + second.codomain.count) := by
  obtain ⟨left, right, leftMade, rightMade, made⟩ := sumOfSums_eq_ok_iff.mp made
  have rightInside : label.Within right.domain := by
    rw [Label.Within, count_domain_sum rightMade]
    exact Nat.lt_add_right _ inside
  rw [← count_domain_sum leftMade, image_sum_right made rightInside, image_sum_left rightMade inside,
    count_codomain_sum leftMade]

/-- The fourth group is renamed behind the other three. -/
theorem image_sumOfSums_fourth {label : Label} (inside : label.Within fourth.domain) :
    total.image
        (label.shift (first.domain.count + second.domain.count + third.domain.count)) =
      (fourth.image label).shift
        (first.codomain.count + second.codomain.count + third.codomain.count) := by
  obtain ⟨left, right, leftMade, rightMade, made⟩ := sumOfSums_eq_ok_iff.mp made
  have rightInside : (label.shift third.domain.count).Within right.domain := by
    rw [Label.Within, count_domain_sum rightMade]
    exact Nat.add_lt_add_left inside _
  rw [← count_domain_sum leftMade, ← Label.shift_shift, image_sum_right made rightInside,
    image_sum_right rightMade inside, Label.shift_shift, count_codomain_sum leftMade]

end Made

/-- A label of four groups lies in one of them. -/
theorem group_cases {a b c d : Nat} {label : Label} (inside : label.index < a + b + c + d) :
    label.index < a ∨ (∃ inner : Label, inner.index < b ∧ label = inner.shift a) ∨
      (∃ inner : Label, inner.index < c ∧ label = inner.shift (a + b)) ∨
        ∃ inner : Label, inner.index < d ∧ label = inner.shift (a + b + c) := by
  rcases Nat.lt_or_ge label.index a with front | behind
  · exact .inl front
  rcases Nat.lt_or_ge label.index (a + b) with second | behind'
  · obtain ⟨inner, rfl⟩ := Label.exists_eq_shift_of_le behind
    exact .inr (.inl ⟨inner, Nat.lt_of_add_lt_add_left second, rfl⟩)
  rcases Nat.lt_or_ge label.index (a + b + c) with third | last
  · obtain ⟨inner, rfl⟩ := Label.exists_eq_shift_of_le behind'
    exact .inr (.inr (.inl ⟨inner, Nat.lt_of_add_lt_add_left third, rfl⟩))
  · obtain ⟨inner, rfl⟩ := Label.exists_eq_shift_of_le last
    exact .inr (.inr (.inr ⟨inner, Nat.lt_of_add_lt_add_left inside, rfl⟩))

end Pairs

section Natural

variable (first second third fourth : Renaming)

/-- Rename four groups, and then interchange their codomains. -/
def sumsInterchange : Except LabelError Renaming := do
  let sums ← sumOfSums first second third fourth
  let exchange ← interchange first.codomain second.codomain third.codomain fourth.codomain
  sums.andThen exchange

/-- Interchange the domains of four groups, and then rename the groups in their new places. -/
def interchangeSums : Except LabelError Renaming := do
  let exchange ← interchange first.domain second.domain third.domain fourth.domain
  let sums ← sumOfSums first third second fourth
  exchange.andThen sums

variable {first second third fourth}

section Images

variable {sums exchange moved exchanged : Renaming}
  (sumsMade : sumOfSums first second third fourth = .ok sums)
  (exchangeMade : interchange first.codomain second.codomain third.codomain fourth.codomain =
    .ok exchange)
  (movedMade : interchange first.domain second.domain third.domain fourth.domain = .ok moved)
  (exchangedMade : sumOfSums first third second fourth = .ok exchanged)

include sumsMade exchangeMade movedMade exchangedMade

/-- On both ways, each group is renamed and comes to its new place. -/
theorem image_interchange_sumOfSums {label : Label} (inside : label.Within sums.domain) :
    exchange.image (sums.image label) = exchanged.image (moved.image label) := by
  rw [Label.Within, count_domain_sumOfSums sumsMade] at inside
  rcases group_cases inside with front | ⟨inner, second, rfl⟩ | ⟨inner, third, rfl⟩ |
    ⟨inner, fourth, rfl⟩
  · rw [image_sumOfSums_first sumsMade front,
      image_interchange_first exchangeMade (first.image_within front),
      image_interchange_first movedMade front, image_sumOfSums_first exchangedMade front]
  · rw [image_sumOfSums_second sumsMade second,
      image_interchange_second exchangeMade (Renaming.image_within _ second),
      image_interchange_second movedMade second, image_sumOfSums_third exchangedMade second]
  · rw [image_sumOfSums_third sumsMade third,
      image_interchange_third exchangeMade (Renaming.image_within _ third),
      image_interchange_third movedMade third, image_sumOfSums_second exchangedMade third]
  · rw [image_sumOfSums_fourth sumsMade fourth,
      image_interchange_fourth exchangeMade (Renaming.image_within _ fourth),
      image_interchange_fourth movedMade fourth, Nat.add_right_comm,
      Nat.add_right_comm first.domain.count, image_sumOfSums_fourth exchangedMade fourth]

/-- So both ways come to the same renaming. -/
theorem andThen_interchange_eq : sums.andThen exchange = moved.andThen exchanged := by
  have sumsDomain := count_domain_sumOfSums sumsMade
  have sumsCodomain := count_codomain_sumOfSums sumsMade
  have exchangeDomain := count_domain_interchange exchangeMade
  have exchangeCodomain := count_codomain_interchange exchangeMade
  have movedDomain := count_domain_interchange movedMade
  have movedCodomain := count_codomain_interchange movedMade
  have exchangedDomain := count_domain_sumOfSums exchangedMade
  have exchangedCodomain := count_codomain_sumOfSums exchangedMade
  refine andThen_eq_andThen (Size.ext (by omega)) (Size.ext (by omega)) (Size.ext (by omega))
    (Size.ext (by omega)) fun label inside => ?_
  exact image_interchange_sumOfSums sumsMade exchangeMade movedMade exchangedMade inside

end Images

variable (first second third fourth) in
/-- Both sides of four renamings next to each other have a size. -/
structure GroupsFit : Prop where
  domains : first.domain.count + second.domain.count + third.domain.count +
    fourth.domain.count < Size.limit
  codomains : first.codomain.count + second.codomain.count + third.codomain.count +
    fourth.codomain.count < Size.limit

/-- Where both sides have a size, both ways come out, and as the same renaming. -/
theorem exists_sumsInterchange (fit : GroupsFit first second third fourth) :
    ∃ result, sumsInterchange first second third fourth = .ok result ∧
      interchangeSums first second third fourth = .ok result := by
  obtain ⟨domains, codomains⟩ := fit
  obtain ⟨sums, sumsMade⟩ := exists_sumOfSums first second third fourth codomains domains
  obtain ⟨exchange, exchangeMade⟩ := exists_interchange codomains
  obtain ⟨moved, movedMade⟩ := exists_interchange domains
  obtain ⟨exchanged, exchangedMade⟩ :=
    exists_sumOfSums first third second fourth (by omega) (by omega)
  have meet : sums.codomain = exchange.domain := by
    refine Size.ext ?_
    rw [count_codomain_sumOfSums sumsMade, count_domain_interchange exchangeMade]
  obtain ⟨result, made⟩ := exists_andThen meet
  have same := andThen_interchange_eq sumsMade exchangeMade movedMade exchangedMade
  refine ⟨result, ?_, ?_⟩
  · rw [sumsInterchange, sumsMade, exchangeMade]
    exact made
  · rw [interchangeSums, movedMade, exchangedMade]
    exact same.symm.trans made

/-- Where one side is too large, both ways are refused, and for that reason. -/
theorem sumsInterchange_eq_overflow (wide : ¬ GroupsFit first second third fourth) :
    sumsInterchange first second third fourth = .error .overflow ∧
      interchangeSums first second third fourth = .error .overflow := by
  constructor
  · cases sumsMade : sumOfSums first second third fourth with
    | error error =>
      obtain rfl := eq_overflow_of_sumOfSums sumsMade
      rw [sumsInterchange, sumsMade]
      rfl
    | ok sums =>
      refine absurd ⟨?_, ?_⟩ wide
      · exact count_domain_sumOfSums sumsMade ▸ sums.domain.fits
      · exact count_codomain_sumOfSums sumsMade ▸ sums.codomain.fits
  · rw [interchangeSums, bind_eq_error_iff]
    cases movedMade : interchange first.domain second.domain third.domain fourth.domain with
    | error error =>
      obtain ⟨-, rfl⟩ := interchange_eq_error_iff.mp movedMade
      exact .inl rfl
    | ok moved =>
      have domains := count_domain_interchange movedMade ▸ moved.domain.fits
      refine .inr ⟨moved, rfl, bind_eq_error_iff.mpr (.inl ?_)⟩
      cases exchangedMade : sumOfSums first third second fourth with
      | error error => rw [eq_overflow_of_sumOfSums exchangedMade]
      | ok exchanged =>
        have codomains := count_codomain_sumOfSums exchangedMade ▸ exchanged.codomain.fits
        exact absurd ⟨domains, by omega⟩ wide

end Natural

section Closed

variable {a b c d : Size} {table : Renaming}

/-- The two middle groups trade places, and all other labels stay where they are. -/
theorem image_interchange (made : interchange a b c d = .ok table) (label : Label) :
    table.image label = label.exchange a.count b.count c.count := by
  rw [← extend_interchange made]
  by_cases inside : label.Within table.domain
  · rw [extend_of_within inside]
  · have square : table.domain = table.codomain :=
      Size.ext ((count_domain_interchange made).trans (count_codomain_interchange made).symm)
    rw [extend_of_le square (Nat.not_lt.mp inside)]
    exact dif_neg inside

end Closed

/-- An interchange comes out exactly when its four groups have a sum, and can fail in no other way. It
sends the second group behind the third and the third before the second; the same with the two sizes
exchanged is its inverse; and four renamings can be applied before it, in the old places, or behind it,
in the new ones. -/
theorem interchange_natural (a b c d : Size) (first second third fourth : Renaming) :
    ((Size.limit ≤ a.count + b.count + c.count + d.count ∧
          interchange a b c d = .error .overflow) ∨
        (a.count + b.count + c.count + d.count < Size.limit ∧
          ∃ table, interchange a b c d = .ok table ∧
            table.domain.count = a.count + b.count + c.count + d.count ∧
              table.codomain.count = a.count + b.count + c.count + d.count ∧
                (∀ label : Label, (table.image label).index =
                  if label.index < a.count then label.index
                  else if label.index < a.count + b.count then label.index + c.count
                  else if label.index < a.count + b.count + c.count then label.index - b.count
                  else label.index) ∧
                table.isPermutation = true ∧ table.inverse = interchange a c b d)) ∧
      ((¬ GroupsFit first second third fourth ∧
          sumsInterchange first second third fourth = .error .overflow ∧
            interchangeSums first second third fourth = .error .overflow) ∨
        (GroupsFit first second third fourth ∧
          ∃ result, sumsInterchange first second third fourth = .ok result ∧
            interchangeSums first second third fourth = .ok result)) := by
  refine ⟨?_, ?_⟩
  · rcases Nat.lt_or_ge (a.count + b.count + c.count + d.count) Size.limit with fits | wide
    · obtain ⟨table, made⟩ := exists_interchange fits
      obtain ⟨back, backMade⟩ := exists_interchange (a := a) (b := c) (c := b) (d := d) (by omega)
      have inverts := Inverts.interchange made backMade
      refine .inr ⟨fits, table, made, count_domain_interchange made, count_codomain_interchange made,
        fun label => ?_, isPermutation_iff.mpr inverts.bijective, ?_⟩
      · rw [image_interchange made, Label.index_exchange, Nat.add_comm c.count]
      · rw [inverts.inverse_eq_ok, backMade]
    · exact .inl ⟨wide, interchange_eq_error_iff.mpr ⟨wide, rfl⟩⟩
  · by_cases fit : GroupsFit first second third fourth
    · exact .inr ⟨fit, exists_sumsInterchange fit⟩
    · exact .inl ⟨fit, sumsInterchange_eq_overflow fit⟩

end Flowgraph.Renaming
