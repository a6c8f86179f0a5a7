import Flowgraph.Proofs.Renaming.Inverse

/-!
# The symmetry of sums

`Renaming.swap` exchanges the two summands of a sum, and it is the symmetry that belongs to sums of
renamings. It is undone by exchanging the summands again, two renamings can be applied before it, in the
old places, or behind it, in the new ones, and a space is exchanged with the sum of two others by going
past one of them after the other. The two ways of each law are refused together, because there are too many
labels, and so the laws are equations between what is returned or refused.
-/

namespace Flowgraph.Renaming

/-- The inverse of an exchange is the exchange in the other direction. -/
theorem swap_bind_inverse (a b : Size) : (swap a b >>= inverse) = swap b a := by
  rcases Nat.lt_or_ge (a.count + b.count) Size.limit with fits | wide
  · obtain ⟨table, made⟩ := exists_swap a b fits
    obtain ⟨back, backMade⟩ := exists_swap b a (by omega)
    rw [made, backMade]
    exact (Inverts.swap made backMade).inverse_eq_ok
  · have refused : swap a b = .error .overflow := swap_eq_error_iff.mpr ⟨wide, rfl⟩
    have backRefused : swap b a = .error .overflow := swap_eq_error_iff.mpr ⟨by omega, rfl⟩
    rw [refused, backRefused]
    rfl

section Natural

variable (left right : Renaming)

/-- Rename two groups, and then exchange their codomains. -/
def sumSwap : Except LabelError Renaming := do
  let both ← left.sum right
  let exchange ← swap left.codomain right.codomain
  both.andThen exchange

/-- Exchange the domains of two groups, and then rename the groups in their new places. -/
def swapSum : Except LabelError Renaming := do
  let exchange ← swap left.domain right.domain
  let both ← right.sum left
  exchange.andThen both

/-- Both sides of two renamings next to each other have a size. -/
structure TwoFit : Prop where
  domains : left.domain.count + right.domain.count < Size.limit
  codomains : left.codomain.count + right.codomain.count < Size.limit

variable {left right}

section Images

variable {both exchange moved exchanged : Renaming} (bothMade : left.sum right = .ok both)
  (exchangeMade : swap left.codomain right.codomain = .ok exchange)
  (movedMade : swap left.domain right.domain = .ok moved)
  (exchangedMade : right.sum left = .ok exchanged)

include bothMade exchangeMade movedMade exchangedMade

/-- On both ways, each group is renamed and comes to its new place. -/
theorem image_swap_sum {label : Label} (inside : label.Within both.domain) :
    exchange.image (both.image label) = exchanged.image (moved.image label) := by
  rw [Label.Within, count_domain_sum bothMade] at inside
  by_cases front : label.Within left.domain
  · rw [image_sum_left bothMade front, image_swap_left exchangeMade (left.image_within front),
      image_swap_left movedMade front, image_sum_right exchangedMade front]
  · obtain ⟨behind, rfl⟩ := Label.exists_eq_shift_of_le (Nat.not_lt.mp front)
    rw [Label.index_shift] at inside
    have source : behind.Within right.domain := Nat.lt_of_add_lt_add_left inside
    rw [image_sum_right bothMade source, image_swap_right exchangeMade (right.image_within source),
      image_swap_right movedMade source, image_sum_left exchangedMade source]

/-- So both ways come to the same renaming. -/
theorem andThen_swap_eq : both.andThen exchange = moved.andThen exchanged := by
  have bothDomain := count_domain_sum bothMade
  have bothCodomain := count_codomain_sum bothMade
  have exchangeDomain := count_domain_swap exchangeMade
  have exchangeCodomain := count_codomain_swap exchangeMade
  have movedDomain := count_domain_swap movedMade
  have movedCodomain := count_codomain_swap movedMade
  have exchangedDomain := count_domain_sum exchangedMade
  have exchangedCodomain := count_codomain_sum exchangedMade
  refine andThen_eq_andThen (Size.ext (by omega)) (Size.ext (by omega)) (Size.ext (by omega))
    (Size.ext (by omega)) fun label inside => ?_
  exact image_swap_sum bothMade exchangeMade movedMade exchangedMade inside

end Images

/-- Where both sides have a size, both ways come out, and as the same renaming. -/
theorem exists_sumSwap (fit : TwoFit left right) :
    ∃ result, sumSwap left right = .ok result ∧ swapSum left right = .ok result := by
  obtain ⟨domains, codomains⟩ := fit
  obtain ⟨both, bothMade⟩ := exists_sum left right codomains domains
  obtain ⟨exchange, exchangeMade⟩ := exists_swap left.codomain right.codomain codomains
  obtain ⟨moved, movedMade⟩ := exists_swap left.domain right.domain domains
  obtain ⟨exchanged, exchangedMade⟩ := exists_sum right left (by omega) (by omega)
  have meet : both.codomain = exchange.domain := by
    refine Size.ext ?_
    rw [count_codomain_sum bothMade, count_domain_swap exchangeMade]
  obtain ⟨result, made⟩ := exists_andThen meet
  have same := andThen_swap_eq bothMade exchangeMade movedMade exchangedMade
  refine ⟨result, ?_, ?_⟩
  · rw [sumSwap, bothMade, exchangeMade]
    exact made
  · rw [swapSum, movedMade, exchangedMade]
    exact same.symm.trans made

/-- Where one side is too large, both ways are refused, and for that reason. -/
theorem sumSwap_eq_overflow (wide : ¬ TwoFit left right) :
    sumSwap left right = .error .overflow ∧ swapSum left right = .error .overflow := by
  have tooMany : Size.limit ≤ left.codomain.count + right.codomain.count ∨
      Size.limit ≤ left.domain.count + right.domain.count :=
    Classical.byContradiction fun narrow => wide ⟨by omega, by omega⟩
  constructor
  · have refused : left.sum right = .error .overflow := sum_eq_error_iff.mpr ⟨tooMany, rfl⟩
    rw [sumSwap, refused]
    rfl
  · have refused : right.sum left = .error .overflow := sum_eq_error_iff.mpr ⟨by omega, rfl⟩
    rw [swapSum, refused]
    cases movedMade : swap left.domain right.domain with
    | error error =>
      obtain ⟨-, rfl⟩ := swap_eq_error_iff.mp movedMade
      rfl
    | ok moved => rfl

end Natural

section Past

variable {a b c : Size}

/-- Exchange the first of three spaces with the second, and then with the third. -/
def swapPast (a b c : Size) : Except LabelError Renaming := do
  let near ← (← swap a b).sum (identity c)
  let far ← (identity b).sum (← swap a c)
  near.andThen far

/-- What a space does that goes past two others is made of an exchange with either of them. -/
theorem swapPast_eq_ok_iff {table : Renaming} :
    swapPast a b c = .ok table ↔
      ∃ first second near far : Renaming, swap a b = .ok first ∧ swap a c = .ok second ∧
        first.sum (identity c) = .ok near ∧ (identity b).sum second = .ok far ∧
          near.andThen far = .ok table := by
  simp only [swapPast, bind_eq_ok_iff]
  constructor
  · rintro ⟨first, firstMade, near, nearMade, second, secondMade, far, farMade, made⟩
    exact ⟨first, second, near, far, firstMade, secondMade, nearMade, farMade, made⟩
  · rintro ⟨first, second, near, far, firstMade, secondMade, nearMade, farMade, made⟩
    exact ⟨first, firstMade, near, nearMade, second, secondMade, far, farMade, made⟩

/-- To go past two spaces is to be exchanged with their sum. -/
theorem swap_sum_eq_swapPast (fits : a.count + b.count + c.count < Size.limit) :
    ∃ table, (b.sum c >>= fun both => swap a both) = .ok table ∧ swapPast a b c = .ok table := by
  have bothFits : b.count + c.count < Size.limit := by omega
  have bothMade : b.sum c = .ok ⟨b.count + c.count, bothFits⟩ := Size.sum_eq_ok_iff.mpr rfl
  obtain ⟨table, made⟩ := exists_swap a ⟨b.count + c.count, bothFits⟩ (by simp only; omega)
  obtain ⟨first, firstMade⟩ := exists_swap a b (by omega)
  obtain ⟨second, secondMade⟩ := exists_swap a c (by omega)
  have domain := count_domain_swap made
  have codomain := count_codomain_swap made
  have firstDomain := count_domain_swap firstMade
  have firstCodomain := count_codomain_swap firstMade
  have secondDomain := count_domain_swap secondMade
  have secondCodomain := count_codomain_swap secondMade
  simp only at domain codomain
  obtain ⟨near, nearMade, nearCodomain, nearDomain⟩ :=
    exists_sum_identity first c (by omega) (by omega)
  obtain ⟨far, farMade, farCodomain, farDomain⟩ :=
    exists_identity_sum b second (by omega) (by omega)
  have meet : near.codomain = far.domain := Size.ext (by omega)
  refine ⟨table, bind_eq_ok_iff.mpr ⟨_, bothMade, made⟩, swapPast_eq_ok_iff.mpr ⟨first, second, near,
    far, firstMade, secondMade, nearMade, farMade, andThen_eq_ok meet (Size.ext (by omega))
      (Size.ext (by omega)) fun label inside => ?_⟩⟩
  have whole : label.Within table.domain := by
    rw [Label.Within] at inside ⊢
    omega
  have middle : (near.image label).Within far.domain := meet ▸ near.image_within inside
  -- Continued to all labels, each of the exchanges lets two groups trade places.
  rw [← extend_of_within whole, ← extend_of_within middle, ← extend_of_within inside,
    extend_sum_identity nearMade, extend_identity_sum farMade, funext (extend_swap secondMade),
    Label.mapVisible_exchange, extend_swap firstMade, extend_swap made, Nat.add_zero]
  exact Label.exchange_add label a.count b.count c.count

/-- Both ways are refused where the three spaces together are too large. -/
theorem swapPast_eq_overflow (wide : Size.limit ≤ a.count + b.count + c.count) :
    (b.sum c >>= fun both => swap a both) = .error .overflow ∧
      swapPast a b c = .error .overflow := by
  constructor
  · rw [bind_eq_error_iff]
    cases found : b.sum c with
    | error error =>
      obtain ⟨-, rfl⟩ := Size.sum_eq_error_iff.mp found
      exact .inl rfl
    | ok both =>
      have count := Size.sum_eq_ok_iff.mp found
      exact .inr ⟨both, rfl, swap_eq_error_iff.mpr ⟨by omega, rfl⟩⟩
  · rw [swapPast, bind_eq_error_iff]
    cases firstMade : swap a b with
    | error error =>
      obtain ⟨-, rfl⟩ := swap_eq_error_iff.mp firstMade
      exact .inl rfl
    | ok first =>
      have domain := count_domain_swap firstMade
      refine .inr ⟨first, rfl, bind_eq_error_iff.mpr (.inl (sum_eq_error_iff.mpr ⟨.inr ?_, rfl⟩))⟩
      rw [domain_identity]
      omega

end Past

/-- Exchanging two summands is a natural symmetry. It is its own way back, up to the order of the summands;
two renamings can be applied before it or behind it; and it goes past a sum as it goes past the summands one
after the other. Either way of each law comes out exactly when all labels together have a size. -/
theorem swap_natural_symmetry (a b c : Size) (left right : Renaming) :
    ((swap a b >>= inverse) = swap b a ∧
        ((∃ table, swap a b = .ok table) ↔ a.count + b.count < Size.limit)) ∧
      (sumSwap left right = swapSum left right ∧
        ((∃ table, sumSwap left right = .ok table) ↔ TwoFit left right)) ∧
      ((b.sum c >>= fun both => swap a both) = swapPast a b c ∧
        ((∃ table, swapPast a b c = .ok table) ↔
          a.count + b.count + c.count < Size.limit)) := by
  refine ⟨⟨swap_bind_inverse a b, ?_⟩, ?_, ?_⟩
  · constructor
    · rintro ⟨table, made⟩
      exact count_domain_swap made ▸ table.domain.fits
    · exact exists_swap a b
  · by_cases fit : TwoFit left right
    · obtain ⟨table, made, otherMade⟩ := exists_sumSwap fit
      exact ⟨made.trans otherMade.symm, iff_of_true ⟨table, made⟩ fit⟩
    · obtain ⟨refused, otherRefused⟩ := sumSwap_eq_overflow fit
      refine ⟨refused.trans otherRefused.symm, iff_of_false ?_ fit⟩
      simp [refused]
  · rcases Nat.lt_or_ge (a.count + b.count + c.count) Size.limit with fits | wide
    · obtain ⟨table, made, otherMade⟩ := swap_sum_eq_swapPast fits
      exact ⟨made.trans otherMade.symm, iff_of_true ⟨table, otherMade⟩ fits⟩
    · obtain ⟨refused, otherRefused⟩ := swapPast_eq_overflow wide
      refine ⟨refused.trans otherRefused.symm, iff_of_false ?_ (Nat.not_lt.mpr wide)⟩
      simp [otherRefused]

end Flowgraph.Renaming
