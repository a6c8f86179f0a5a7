import Flowgraph.Proofs.Renaming.Image

/-!
# Renamings as a strict monoidal category

Label spaces are the objects of a category whose arrows are the renamings, `Renaming.andThen` composes
them, and `Renaming.sum` puts them side by side. Since sums are laid out flat, the laws hold on the nose:
no regrouping stands between the two sides of an equation, and the identities of two spaces are side by
side the identity of their sum. Where a law fails to hold, that is because one of its sides is refused, and
`strict_monoidal` says on each side when that is.

Two stacked pairs can be composed before they are put side by side or after. The second way needs room
for the two spaces in the middle, which the first never sees, so `Stacked` asks for it.
-/

namespace Flowgraph.Renaming

section Associativity

variable {first second third result : Renaming}

/-- Three renamings in a row can be composed from either end, and come to the same. -/
theorem andThen_bind_eq_ok_iff :
    (first.andThen second >>= fun composite => composite.andThen third) = .ok result ↔
      (second.andThen third >>= fun composite => first.andThen composite) = .ok result := by
  simp only [bind_eq_ok_iff]
  constructor
  · rintro ⟨early, earlyMade, made⟩
    obtain ⟨meet, earlyCodomain, -⟩ := andThen_eq_ok_iff.mp earlyMade
    obtain ⟨nextMeet, codomain, -⟩ := andThen_eq_ok_iff.mp made
    have earlyDomain := domain_andThen earlyMade
    obtain ⟨late, lateMade⟩ := exists_andThen (earlyCodomain.symm.trans nextMeet)
    have lateDomain := domain_andThen lateMade
    have lateCodomain := (andThen_eq_ok_iff.mp lateMade).2.1
    refine ⟨late, lateMade, andThen_eq_ok (meet.trans lateDomain.symm)
      ((domain_andThen made).trans earlyDomain) (codomain.trans lateCodomain.symm)
      fun label inside => ?_⟩
    rw [image_andThen made (earlyDomain ▸ inside), image_andThen earlyMade inside,
      image_andThen lateMade (meet ▸ first.image_within inside)]
  · rintro ⟨late, lateMade, made⟩
    obtain ⟨nextMeet, lateCodomain, -⟩ := andThen_eq_ok_iff.mp lateMade
    obtain ⟨meet, codomain, -⟩ := andThen_eq_ok_iff.mp made
    have lateDomain := domain_andThen lateMade
    obtain ⟨early, earlyMade⟩ := exists_andThen (meet.trans lateDomain)
    have earlyDomain := domain_andThen earlyMade
    have earlyCodomain := (andThen_eq_ok_iff.mp earlyMade).2.1
    refine ⟨early, earlyMade, andThen_eq_ok (earlyCodomain.trans nextMeet)
      ((domain_andThen made).trans earlyDomain.symm) (codomain.trans lateCodomain)
      fun label inside => ?_⟩
    rw [earlyDomain] at inside
    have middle : (first.image label).Within second.domain :=
      lateDomain ▸ meet ▸ first.image_within inside
    rw [image_andThen made inside, image_andThen earlyMade inside, image_andThen lateMade middle]

/-- They can be composed exactly when each of them meets the next. -/
theorem exists_andThen_bind_iff :
    (∃ result, (first.andThen second >>= fun composite => composite.andThen third) = .ok result) ↔
      first.codomain = second.domain ∧ second.codomain = third.domain := by
  simp only [bind_eq_ok_iff]
  constructor
  · rintro ⟨result, composite, compositeMade, made⟩
    obtain ⟨meet, codomain, -⟩ := andThen_eq_ok_iff.mp compositeMade
    exact ⟨meet, codomain.symm.trans (andThen_eq_ok_iff.mp made).1⟩
  · rintro ⟨meet, nextMeet⟩
    obtain ⟨composite, compositeMade⟩ := exists_andThen meet
    obtain ⟨result, made⟩ :=
      exists_andThen ((andThen_eq_ok_iff.mp compositeMade).2.1.trans nextMeet)
    exact ⟨result, composite, compositeMade, made⟩

end Associativity

section SideBySide

variable (first second third : Renaming)

/-- Both sides of three renamings next to each other have a size. -/
structure ThreeFit : Prop where
  domains : first.domain.count + second.domain.count + third.domain.count < Size.limit
  codomains : first.codomain.count + second.codomain.count + third.codomain.count < Size.limit

variable {first second third}

/-- Three renamings that fit can be put side by side in either order, and come to the same. -/
theorem exists_sum_sum (fit : ThreeFit first second third) :
    ∃ result, (first.sum second >>= fun left => left.sum third) = .ok result ∧
      (second.sum third >>= fun right => first.sum right) = .ok result := by
  obtain ⟨domains, codomains⟩ := fit
  obtain ⟨left, leftMade⟩ := exists_sum first second (by omega) (by omega)
  obtain ⟨right, rightMade⟩ := exists_sum second third (by omega) (by omega)
  have domain := count_domain_sum leftMade
  have codomain := count_codomain_sum leftMade
  obtain ⟨result, made⟩ := exists_sum left third (by omega) (by omega)
  exact ⟨result, bind_eq_ok_iff.mpr ⟨left, leftMade, made⟩,
    bind_eq_ok_iff.mpr ⟨right, rightMade, (sum_sum_eq_ok_iff leftMade rightMade).mp made⟩⟩

/-- Three that do not fit are refused in either order, because there are too many labels. -/
theorem sum_bind_eq_overflow (wide : ¬ ThreeFit first second third) :
    (first.sum second >>= fun left => left.sum third) = .error .overflow ∧
      (second.sum third >>= fun right => first.sum right) = .error .overflow := by
  have tooMany : Size.limit ≤ first.domain.count + second.domain.count + third.domain.count ∨
      Size.limit ≤ first.codomain.count + second.codomain.count + third.codomain.count :=
    Classical.byContradiction fun narrow => wide ⟨by omega, by omega⟩
  constructor
  · rw [bind_eq_error_iff]
    cases made : first.sum second with
    | error error =>
      obtain ⟨-, rfl⟩ := sum_eq_error_iff.mp made
      exact .inl rfl
    | ok left =>
      have domain := count_domain_sum made
      have codomain := count_codomain_sum made
      exact .inr ⟨left, rfl, sum_eq_error_iff.mpr ⟨by omega, rfl⟩⟩
  · rw [bind_eq_error_iff]
    cases made : second.sum third with
    | error error =>
      obtain ⟨-, rfl⟩ := sum_eq_error_iff.mp made
      exact .inl rfl
    | ok right =>
      have domain := count_domain_sum made
      have codomain := count_codomain_sum made
      exact .inr ⟨right, rfl, sum_eq_error_iff.mpr ⟨by omega, rfl⟩⟩

/-- The renaming of the space without labels goes before any other without being seen. -/
theorem identity_zero_sum (table : Renaming) : (identity .zero).sum table = .ok table := by
  rw [sum_eq_ok_iff]
  simp [identity]

/-- It goes behind any other in the same way. -/
theorem sum_identity_zero (table : Renaming) : table.sum (identity .zero) = .ok table := by
  rw [sum_eq_ok_iff]
  simp [identity]

/-- Identities side by side are the identity of the sum, if it has a size. -/
theorem identity_sum_identity (a b : Size) :
    (identity a).sum (identity b) = (a.sum b).map identity := by
  cases found : a.sum b with
  | ok total =>
    exact identity_sum_identity_eq_ok_iff.mpr ⟨total, Size.sum_eq_ok_iff.mp found, rfl⟩
  | error error =>
    obtain ⟨wide, rfl⟩ := Size.sum_eq_error_iff.mp found
    exact sum_eq_error_iff.mpr ⟨.inl wide, rfl⟩

end SideBySide

section Stacks

variable (first second third fourth : Renaming)

/-- Two renamings side by side, and after them two others. -/
def sumAndThenSum : Except LabelError Renaming := do
  let before ← first.sum second
  let after ← third.sum fourth
  before.andThen after

/-- The first renaming and after it the third, beside the second and after it the fourth. -/
def andThenSumAndThen : Except LabelError Renaming := do
  let left ← first.andThen third
  let right ← second.andThen fourth
  left.sum right

/-- Two stacks of two renamings, next to each other: in either stack the two meet, and the spaces next to
each other have a sum at the bottom, in the middle and at the top. -/
structure Stacked : Prop where
  left_meets : first.codomain = third.domain
  right_meets : second.codomain = fourth.domain
  domains : first.domain.count + second.domain.count < Size.limit
  middles : first.codomain.count + second.codomain.count < Size.limit
  codomains : third.codomain.count + fourth.codomain.count < Size.limit

variable {first second third fourth}

/-- Composites can be put side by side exactly when the stacks meet and their ends fit. -/
theorem exists_andThenSumAndThen_iff :
    (∃ result, andThenSumAndThen first second third fourth = .ok result) ↔
      first.codomain = third.domain ∧ second.codomain = fourth.domain ∧
        first.domain.count + second.domain.count < Size.limit ∧
          third.codomain.count + fourth.codomain.count < Size.limit := by
  simp only [andThenSumAndThen, bind_eq_ok_iff]
  constructor
  · rintro ⟨result, left, leftMade, right, rightMade, made⟩
    obtain ⟨leftMeets, leftCodomain, -⟩ := andThen_eq_ok_iff.mp leftMade
    obtain ⟨rightMeets, rightCodomain, -⟩ := andThen_eq_ok_iff.mp rightMade
    have domain := count_domain_sum made
    have codomain := count_codomain_sum made
    have domainFits := result.domain.fits
    have codomainFits := result.codomain.fits
    rw [domain_andThen leftMade, domain_andThen rightMade] at domain
    rw [leftCodomain, rightCodomain] at codomain
    exact ⟨leftMeets, rightMeets, by omega, by omega⟩
  · rintro ⟨leftMeets, rightMeets, domains, codomains⟩
    obtain ⟨left, leftMade⟩ := exists_andThen leftMeets
    obtain ⟨right, rightMade⟩ := exists_andThen rightMeets
    obtain ⟨result, made⟩ := exists_sum left right
      (by rwa [(andThen_eq_ok_iff.mp leftMade).2.1, (andThen_eq_ok_iff.mp rightMade).2.1])
      (by rwa [domain_andThen leftMade, domain_andThen rightMade])
    exact ⟨result, left, leftMade, right, rightMade, made⟩

/-- Stacked renamings come to the same on both ways. -/
theorem sumAndThenSum_eq (stacked : Stacked first second third fourth) :
    sumAndThenSum first second third fourth = andThenSumAndThen first second third fourth := by
  obtain ⟨leftMeets, rightMeets, domains, middles, codomains⟩ := stacked
  obtain ⟨before, beforeMade⟩ := exists_sum first second middles domains
  obtain ⟨after, afterMade⟩ := exists_sum third fourth codomains
    (by rwa [← leftMeets, ← rightMeets])
  obtain ⟨left, leftMade⟩ := exists_andThen leftMeets
  obtain ⟨right, rightMade⟩ := exists_andThen rightMeets
  rw [sumAndThenSum, andThenSumAndThen, beforeMade, afterMade, leftMade, rightMade]
  exact sum_andThen_sum beforeMade afterMade leftMade rightMade

/-- And stacked are exactly those for which both ways come out as the same. -/
theorem stacked_iff :
    Stacked first second third fourth ↔
      ∃ result, sumAndThenSum first second third fourth = .ok result ∧
        andThenSumAndThen first second third fourth = .ok result := by
  constructor
  · intro stacked
    obtain ⟨result, made⟩ := exists_andThenSumAndThen_iff.mpr
      ⟨stacked.left_meets, stacked.right_meets, stacked.domains, stacked.codomains⟩
    exact ⟨result, (sumAndThenSum_eq stacked).trans made, made⟩
  · rintro ⟨result, sumsMade, made⟩
    obtain ⟨leftMeets, rightMeets, domains, codomains⟩ :=
      exists_andThenSumAndThen_iff.mp ⟨result, made⟩
    obtain ⟨before, beforeMade, -⟩ := bind_eq_ok_iff.mp sumsMade
    have middles := count_codomain_sum beforeMade ▸ before.codomain.fits
    exact ⟨leftMeets, rightMeets, domains, middles, codomains⟩

end Stacks

/-- Renamings are a strict monoidal category. Composition is associative, with the identities as units;
sums are associative, with the identity of the space without labels as unit; identities side by side are an
identity; and stacks of renamings can be composed first or put side by side first. -/
theorem strict_monoidal (first second third fourth : Renaming) (a b : Size) :
    ((∀ result, (first.andThen second >>= fun composite => composite.andThen third) = .ok result ↔
          (second.andThen third >>= fun composite => first.andThen composite) = .ok result) ∧
        ((∃ result,
            (first.andThen second >>= fun composite => composite.andThen third) = .ok result) ↔
          first.codomain = second.domain ∧ second.codomain = third.domain) ∧
        (identity first.domain).andThen first = .ok first ∧
          first.andThen (identity first.codomain) = .ok first) ∧
      ((first.sum second >>= fun left => left.sum third) =
          (second.sum third >>= fun right => first.sum right) ∧
        ((∃ result, (first.sum second >>= fun left => left.sum third) = .ok result) ↔
          ThreeFit first second third) ∧
        (identity .zero).sum first = .ok first ∧ first.sum (identity .zero) = .ok first ∧
          (identity a).sum (identity b) = (a.sum b).map identity) ∧
      (Stacked first second third fourth ↔
        ∃ result, sumAndThenSum first second third fourth = .ok result ∧
          andThenSumAndThen first second third fourth = .ok result) := by
  refine ⟨⟨fun _ => andThen_bind_eq_ok_iff, exists_andThen_bind_iff,
    identity_andThen_eq_ok_iff.mpr ⟨rfl, rfl⟩, andThen_identity_eq_ok_iff.mpr ⟨rfl, rfl⟩⟩, ?_,
    stacked_iff⟩
  by_cases fit : ThreeFit first second third
  · obtain ⟨result, leftMade, rightMade⟩ := exists_sum_sum fit
    exact ⟨leftMade.trans rightMade.symm, iff_of_true ⟨result, leftMade⟩ fit, identity_zero_sum first,
      sum_identity_zero first, identity_sum_identity a b⟩
  · obtain ⟨leftRefused, rightRefused⟩ := sum_bind_eq_overflow fit
    refine ⟨leftRefused.trans rightRefused.symm, iff_of_false ?_ fit, identity_zero_sum first,
      sum_identity_zero first, identity_sum_identity a b⟩
    rintro ⟨result, made⟩
    rw [leftRefused] at made
    cases made

end Flowgraph.Renaming
