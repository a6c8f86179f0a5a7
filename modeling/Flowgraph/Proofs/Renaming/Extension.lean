import Flowgraph.Proofs.Renaming.Image

/-!
# Renamings continued to all labels

`Renaming.extend` continues a renaming to the labels behind its domain, which are moved along. The
renamings that rearrange a sum have no other effect on it than on its summands, so what they do to a
label can be said without asking whether it lies in their domain: a summand that stays at the end is
not seen at all, one that stays in front is a border, and one renaming after another is one function
after another.
-/

namespace Flowgraph.Renaming

variable {table other next total : Renaming} {label : Label}

/-- Where domain and codomain are of one size, the labels behind them stay where they are. -/
theorem extend_of_le (square : table.domain = table.codomain)
    (behind : table.domain.count ≤ label.index) : table.extend label = label := by
  obtain ⟨outer, rfl⟩ := Label.exists_eq_shift_of_le behind
  rw [extend_shift, square]

/-- So no label leaves an initial segment that contains them. -/
theorem extend_lt (square : table.domain = table.codomain) {bound : Nat}
    (wide : table.domain.count ≤ bound) (below : label.index < bound) :
    (table.extend label).index < bound := by
  by_cases inside : label.Within table.domain
  · rw [extend_of_within inside]
    have image : (table.image label).index < table.domain.count :=
      square ▸ table.image_within inside
    exact Nat.lt_of_lt_of_le image wide
  · rw [extend_of_le square (Nat.not_lt.mp inside)]
    exact below

section Border

variable {hidden : Nat}

/-- Behind a border, too, labels of the domain are renamed. -/
theorem mapVisible_extend_of_lt (inside : label.index < hidden + table.domain.count) :
    label.mapVisible hidden table.extend = label.mapVisible hidden table.image := by
  apply Label.mapVisible_congr
  rintro visible rfl
  rw [Label.index_shift] at inside
  exact extend_of_within (Nat.lt_of_add_lt_add_left inside)

/-- They go among the labels of the codomain. -/
theorem mapVisible_extend_lt (inside : label.index < hidden + table.domain.count) :
    (label.mapVisible hidden table.extend).index < hidden + table.codomain.count := by
  by_cases before : label.index < hidden
  · rw [Label.mapVisible_of_lt before]
    exact Nat.lt_add_right _ before
  · obtain ⟨visible, rfl⟩ := Label.exists_eq_shift_of_le (Nat.not_lt.mp before)
    rw [Label.index_shift] at inside
    have visibleInside : visible.Within table.domain := Nat.lt_of_add_lt_add_left inside
    rw [Label.mapVisible_shift, Label.index_shift, extend_of_within visibleInside]
    exact Nat.add_lt_add_left (table.image_within visibleInside) _

variable (table) (hidden) (label)

/-- And the labels behind the domain are moved along. -/
theorem mapVisible_extend_shift :
    (label.shift (hidden + table.domain.count)).mapVisible hidden table.extend =
      label.shift (hidden + table.codomain.count) := by
  rw [← Label.shift_shift, Label.mapVisible_shift, extend_shift, Label.shift_shift]

/-- So room that is made for the domain becomes room for the codomain. -/
theorem mapVisible_extend_makeRoom :
    (label.makeRoom hidden table.domain.count).mapVisible hidden table.extend =
      label.makeRoom hidden table.codomain.count := by
  by_cases before : label.index < hidden
  · rw [Label.makeRoom_of_lt before, Label.makeRoom_of_lt before, Label.mapVisible_of_lt before]
  · obtain ⟨visible, rfl⟩ := Label.exists_eq_shift_of_le (Nat.not_lt.mp before)
    rw [Label.makeRoom_shift, Label.makeRoom_shift, mapVisible_extend_shift]

end Border

/-- A composite does one after the other. -/
theorem extend_andThen (made : table.andThen next = .ok total) (label : Label) :
    total.extend label = next.extend (table.extend label) := by
  obtain ⟨agree, codomain, -⟩ := andThen_eq_ok_iff.mp made
  have domain := domain_andThen made
  by_cases inside : label.Within table.domain
  · have middle : (table.image label).Within next.domain := agree ▸ table.image_within inside
    rw [extend_of_within inside, extend_of_within middle, extend_of_within (domain ▸ inside),
      image_andThen made inside]
  · obtain ⟨outer, rfl⟩ := Label.exists_eq_shift_of_le (Nat.not_lt.mp inside)
    rw [extend_shift, agree, extend_shift, ← domain, extend_shift, codomain]

/-- A summand that stays at the end is not seen. -/
theorem extend_sum_identity {rest : Size} (made : table.sum (identity rest) = .ok total)
    (label : Label) : total.extend label = table.extend label := by
  have domain := count_domain_sum made
  have codomain := count_codomain_sum made
  rw [domain_identity] at domain
  rw [codomain_identity] at codomain
  by_cases inside : label.Within total.domain
  · rw [extend_of_within inside, image_sum_identity made inside]
  · obtain ⟨outer, rfl⟩ := Label.exists_eq_shift_of_le (Nat.not_lt.mp inside)
    rw [extend_shift, domain, codomain, ← Label.shift_shift, ← Label.shift_shift, extend_shift]

/-- A summand that stays in front is a border, behind which the other one is renamed. -/
theorem extend_identity_sum {kept : Size} (made : (identity kept).sum table = .ok total)
    (label : Label) : total.extend label = label.mapVisible kept.count table.extend := by
  have domain := count_domain_sum made
  have codomain := count_codomain_sum made
  rw [domain_identity] at domain
  rw [codomain_identity] at codomain
  by_cases inside : label.Within total.domain
  · rw [extend_of_within inside, image_identity_sum made inside]
    rw [Label.Within, domain] at inside
    exact (mapVisible_extend_of_lt inside).symm
  · obtain ⟨outer, rfl⟩ := Label.exists_eq_shift_of_le (Nat.not_lt.mp inside)
    rw [extend_shift, domain, codomain, mapVisible_extend_shift]

/-- Two summands that are exchanged trade places. -/
theorem extend_swap {a b : Size} (made : swap a b = .ok table) (label : Label) :
    table.extend label = label.exchange 0 a.count b.count := by
  have domain := count_domain_swap made
  have codomain := count_codomain_swap made
  rcases Nat.lt_or_ge label.index table.domain.count with inside | behind
  · rw [extend_of_within inside]
    rcases Nat.lt_or_ge label.index a.count with left | right
    · rw [image_swap_left made left]
      ext
      grind
    · obtain ⟨last, rfl⟩ := Label.exists_eq_shift_of_le right
      rw [domain, Label.index_shift] at inside
      rw [image_swap_right made (Nat.lt_of_add_lt_add_left inside)]
      ext
      grind
  · rw [extend_of_le (Size.ext (domain.trans codomain.symm)) behind]
    ext
    grind

end Flowgraph.Renaming
