import Flowgraph.Proofs.Renaming.Image

/-!
# The summands of a sum

A label of a sum is split into a side and a label there, and a label of one side is injected into the sum.
All three operations decide first whether the sum has a size, and only then whether the label lies in the
space that it is taken from: `Label.GuardedBy` says that nothing else is decided. Between these spaces they
are inverse to each other, and a sum of renamings goes along with them.
-/

namespace Flowgraph

variable {A : Type}

namespace Label

/-- A step that needs a label of a space: it comes out for the labels of the space, and refuses any other
label for not being one. -/
structure GuardedBy (label : Label) (size : Size) (step : Except LabelError A) : Prop where
  accepts : (∃ result, step = .ok result) ↔ label.Within size
  refuses : ∀ error, step = .error error ↔ ¬ label.Within size ∧ error = .outOfRange label size

/-- It is enough to know what the step does on either side of the bound. -/
theorem GuardedBy.of_cases {label : Label} {size : Size} {step : Except LabelError A}
    (inside : label.Within size → ∃ result, step = .ok result)
    (outside : ¬ label.Within size → step = .error (.outOfRange label size)) :
    label.GuardedBy size step := by
  by_cases within : label.Within size
  · obtain ⟨result, rfl⟩ := inside within
    exact ⟨iff_of_true ⟨result, rfl⟩ within, fun error => by simp [within]⟩
  · rw [outside within]
    exact ⟨by simp [within], fun error => by simp [within, eq_comm]⟩

section Sum

variable {left right total : Size}

/-- Whatever begins with the size of a sum fails if the sum has none. -/
theorem sum_bind_of_wide (wide : Size.limit ≤ left.count + right.count)
    (next : Size → Except LabelError A) : (left.sum right >>= next) = .error .overflow := by
  rw [Size.sum_eq_error_iff.mpr ⟨wide, rfl⟩]
  rfl

/-- What begins with the size of a sum comes out only if the sum has one. -/
theorem exists_sum_of_bind {next : Size → Except LabelError A} {result : A}
    (made : (left.sum right >>= next) = .ok result) : ∃ total, left.sum right = .ok total := by
  obtain ⟨total, fits, -⟩ := bind_eq_ok_iff.mp made
  exact ⟨total, fits⟩

section Fits

variable {label : Label} (fits : left.sum right = .ok total)

include fits

theorem inl_eq_error (outside : ¬ label.Within left) :
    label.inl left right = .error (.outOfRange label left) := by
  rw [inl, fits, check_of_not_within outside]
  rfl

theorem inr_eq_error (outside : ¬ label.Within right) :
    label.inr left right = .error (.outOfRange label right) := by
  rw [inr, fits, check_of_not_within outside]
  rfl

theorem split_eq_error (outside : ¬ label.Within total) :
    label.split left right = .error (.outOfRange label total) := by
  rw [split, fits, ok_bind, check_of_not_within outside]
  rfl

theorem guardedBy_inl : label.GuardedBy left (label.inl left right) :=
  .of_cases (fun inside => ⟨label, inl_eq_ok fits inside⟩) (inl_eq_error fits)

theorem guardedBy_inr : label.GuardedBy right (label.inr left right) :=
  .of_cases (fun inside => ⟨label.shift left.count, inr_eq_ok fits inside⟩) (inr_eq_error fits)

theorem guardedBy_split : label.GuardedBy total (label.split left right) := by
  refine .of_cases (fun inside => ?_) (split_eq_error fits)
  rcases within_sum_cases fits inside with front | ⟨behind, behindInside, rfl⟩
  · exact ⟨.inl label, split_of_within fits front⟩
  · exact ⟨.inr behind, split_shift fits behindInside⟩

end Fits

/-- The label is in neither summand, and the sum is too large. The size is decided first. -/
example : (Label.mk 1).inr ⟨Size.limit - 1, by decide⟩ 1 = .error .overflow := by
  rfl

variable {label inner : Label}

/-- A label that has been split is given back by the injection of the side that it was found on. -/
theorem inject_of_split {place : Label ⊕ Label} (found : label.split left right = .ok place) :
    place.elim (·.inl left right) (·.inr left right) = .ok label := by
  obtain ⟨total, fits⟩ := exists_sum_of_bind found
  have inside := (guardedBy_split fits).accepts.mp ⟨place, found⟩
  rcases within_sum_cases fits inside with front | ⟨behind, behindInside, rfl⟩
  · rw [split_of_within fits front] at found
    cases found
    exact inl_eq_ok fits front
  · rw [split_shift fits behindInside] at found
    cases found
    exact inr_eq_ok fits behindInside

/-- A label of the left summand that has been injected is found there again. -/
theorem split_of_inl (placed : inner.inl left right = .ok label) :
    label.split left right = .ok (.inl inner) := by
  obtain ⟨total, fits⟩ := exists_sum_of_bind placed
  have inside := (guardedBy_inl fits).accepts.mp ⟨label, placed⟩
  rw [inl_eq_ok fits inside] at placed
  cases placed
  exact split_of_within fits inside

/-- So is one of the right summand. -/
theorem split_of_inr (placed : inner.inr left right = .ok label) :
    label.split left right = .ok (.inr inner) := by
  obtain ⟨total, fits⟩ := exists_sum_of_bind placed
  have inside := (guardedBy_inr fits).accepts.mp ⟨label, placed⟩
  rw [inr_eq_ok fits inside] at placed
  cases placed
  exact split_shift fits inside

end Sum

end Label

namespace Renaming

/-- On the labels that `enter` places in its domain, a renaming does what `part` does: each goes to the
place that `leave` gives to its image. A label that `part` refuses is refused in the same way. -/
structure ActsAs (whole part : Renaming) (enter leave : Label → Except LabelError Label) : Prop where
  commutes : ∀ label, (enter label >>= whole.lookup) = (part.lookup label >>= leave)
  sends : ∀ label : Label, label.Within part.domain → ∃ placed image sent,
    enter label = .ok placed ∧ part.apply label = .ok image ∧ leave image = .ok sent ∧
      whole.apply placed = .ok sent

theorem lookup_eq_ok (table : Renaming) {label : Label} (inside : label.Within table.domain) :
    table.lookup label = .ok (table.image label) := by
  rw [lookup, Label.check_of_within inside]
  rfl

theorem lookup_eq_error (table : Renaming) {label : Label} (outside : ¬ label.Within table.domain) :
    table.lookup label = .error (.outOfRange label table.domain) := by
  rw [lookup, Label.check_of_not_within outside]
  rfl

/-- It is enough to follow the labels of the domain. -/
theorem ActsAs.of_image {whole part : Renaming} {enter leave : Label → Except LabelError Label}
    {place settle : Label → Label}
    (enters : ∀ {label : Label}, label.Within part.domain → enter label = .ok (place label))
    (refuses : ∀ {label : Label}, ¬ label.Within part.domain →
      enter label = .error (.outOfRange label part.domain))
    (placed : ∀ {label : Label}, label.Within part.domain → (place label).Within whole.domain)
    (leaves : ∀ {image : Label}, image.Within part.codomain → leave image = .ok (settle image))
    (images : ∀ {label : Label}, label.Within part.domain →
      whole.image (place label) = settle (part.image label)) :
    whole.ActsAs part enter leave where
  commutes label := by
    by_cases inside : label.Within part.domain
    · rw [enters inside, ok_bind, whole.lookup_eq_ok (placed inside), part.lookup_eq_ok inside, ok_bind,
        leaves (part.image_within inside), images inside]
    · rw [refuses inside, part.lookup_eq_error inside]
      rfl
  sends label inside := by
    have sent := whole.apply_eq_ok (placed inside)
    rw [images inside] at sent
    exact ⟨_, _, _, enters inside, part.apply_eq_ok inside, leaves (part.image_within inside), sent⟩

section Sum

variable {table other total : Renaming} (made : table.sum other = .ok total)

include made

/-- The spaces of a sum of renamings are sums. -/
theorem sum_domain_eq_ok : table.domain.sum other.domain = .ok total.domain :=
  Size.sum_eq_ok_iff.mpr (count_domain_sum made)

theorem sum_codomain_eq_ok : table.codomain.sum other.codomain = .ok total.codomain :=
  Size.sum_eq_ok_iff.mpr (count_codomain_sum made)

/-- A sum of renamings does on the left what its left part does. -/
theorem sum_actsAs_left :
    total.ActsAs table (·.inl table.domain other.domain) (·.inl table.codomain other.codomain) := by
  have domains := sum_domain_eq_ok made
  have codomains := sum_codomain_eq_ok made
  refine .of_image (Label.inl_eq_ok domains) (Label.inl_eq_error domains) (fun inside => ?_)
    (Label.inl_eq_ok codomains) (image_sum_left made)
  rw [Label.Within, count_domain_sum made]
  exact Nat.lt_add_right _ inside

/-- And on the right what its right part does. -/
theorem sum_actsAs_right :
    total.ActsAs other (·.inr table.domain other.domain) (·.inr table.codomain other.codomain) := by
  have domains := sum_domain_eq_ok made
  have codomains := sum_codomain_eq_ok made
  refine .of_image (Label.inr_eq_ok domains) (Label.inr_eq_error domains) (fun inside => ?_)
    (Label.inr_eq_ok codomains) (image_sum_right made)
  rw [Label.Within, Label.index_shift, count_domain_sum made]
  exact Nat.add_lt_add_left inside _

end Sum

end Renaming

/-- Splitting and injecting, on exactly the labels of a sum.
* If the sum has no size, all three operations fail for that reason, whatever the label.
* If it has one, each of them comes out exactly for the labels of one space, the left summand, the right
  one or the sum, and refuses any other label for not being in that space.
* A label is split into a side and a label there exactly when the injection of that side gives it back.
* A sum of renamings does on each side what the renaming there does. -/
theorem Label.summands_exact (left right : Size) :
    (Size.limit ≤ left.count + right.count → ∀ label : Label,
      label.split left right = .error .overflow ∧ label.inl left right = .error .overflow ∧
        label.inr left right = .error .overflow) ∧
    (left.count + right.count < Size.limit → ∃ total : Size, total.count = left.count + right.count ∧
      ∀ label : Label, label.GuardedBy left (label.inl left right) ∧
        label.GuardedBy right (label.inr left right) ∧
        label.GuardedBy total (label.split left right)) ∧
    (∀ label inner : Label,
      (label.split left right = .ok (.inl inner) ↔ inner.inl left right = .ok label) ∧
        (label.split left right = .ok (.inr inner) ↔ inner.inr left right = .ok label)) ∧
    ∀ table other total : Renaming, table.sum other = .ok total →
      total.ActsAs table (·.inl table.domain other.domain) (·.inl table.codomain other.codomain) ∧
        total.ActsAs other (·.inr table.domain other.domain)
          (·.inr table.codomain other.codomain) := by
  refine ⟨fun wide label => ?_, fun narrow => ?_, fun label inner => ?_, fun table other total made => ?_⟩
  · exact ⟨sum_bind_of_wide wide _, sum_bind_of_wide wide _, sum_bind_of_wide wide _⟩
  · have fits : left.sum right = .ok ⟨left.count + right.count, narrow⟩ := Size.sum_eq_ok_iff.mpr rfl
    exact ⟨_, rfl, fun label => ⟨guardedBy_inl fits, guardedBy_inr fits, guardedBy_split fits⟩⟩
  · exact ⟨⟨inject_of_split, split_of_inl⟩, ⟨inject_of_split, split_of_inr⟩⟩
  · exact ⟨Renaming.sum_actsAs_left made, Renaming.sum_actsAs_right made⟩

end Flowgraph
