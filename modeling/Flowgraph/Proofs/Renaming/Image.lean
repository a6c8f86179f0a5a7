import Flowgraph.Renaming.Rearrange
import Flowgraph.Proofs.Except
import Flowgraph.Proofs.Label

/-!
# What renamings do to labels

A renaming is known by its two spaces and by the images of the labels of its domain. For each way
to make a renaming from others, the statements here say when it comes out and give the images, so
that nothing later has to look into a table.
-/

namespace Flowgraph.Renaming

/-- On its domain, a renaming looks the image up in its table. -/
theorem image_eq_getElem (table : Renaming) {label : Label}
    (inside : label.index < table.images.size) :
    table.image label = table.images[label.index] := by
  rw [image, dif_pos inside]

/-- The image of a label is what its slot of the table holds. -/
theorem image_of_getElem? {table : Renaming} {label image : Label}
    (found : table.images[label.index]? = some image) : table.image label = image := by
  obtain ⟨inside, value⟩ := Array.getElem?_eq_some_iff.mp found
  rw [image_eq_getElem table inside, value]

/-- A renaming can be applied to every label of its domain. -/
theorem apply_eq_ok (table : Renaming) {label : Label} (inside : label.Within table.domain) :
    table.apply label = .ok (table.image label) := by
  rw [apply, if_pos inside]

/-- Renamings between the same spaces are equal as soon as they agree on the domain. -/
theorem ext_image {left right : Renaming} (domains : left.domain = right.domain)
    (codomains : left.codomain = right.codomain)
    (images : ∀ label : Label, label.Within left.domain → left.image label = right.image label) :
    left = right := by
  have sizes : left.images.size = right.images.size := congrArg Size.count domains
  refine Renaming.ext codomains (Array.ext sizes fun index leftInside rightInside => ?_)
  have equal := images ⟨index⟩ leftInside
  rwa [image_eq_getElem left leftInside, image_eq_getElem right rightInside] at equal

section Identity

@[simp] theorem domain_identity (size : Size) : (identity size).domain = size := by
  simp [domain, identity]

@[simp] theorem codomain_identity (size : Size) : (identity size).codomain = size := rfl

/-- The identity leaves every label where it is. -/
@[simp] theorem image_identity (size : Size) (label : Label) :
    (identity size).image label = label := by
  unfold image
  split
  · simp [identity]
  · rfl

end Identity

section Extension

variable {table : Renaming} {label : Label}

/-- A renaming continued to all labels: those behind its domain are moved along, and lie behind its
codomain in the same order. -/
def extend (table : Renaming) (label : Label) : Label :=
  if label.Within table.domain then table.image label
  else Label.shift ⟨label.index - table.domain.count⟩ table.codomain.count

theorem extend_of_within (inside : label.Within table.domain) :
    table.extend label = table.image label := by
  rw [extend, if_pos inside]

theorem extend_shift (table : Renaming) (label : Label) :
    table.extend (label.shift table.domain.count) = label.shift table.codomain.count := by
  have behind : ¬ (label.shift table.domain.count).Within table.domain := by
    simp only [Label.Within, Label.index_shift]
    omega
  rw [extend, if_neg behind]
  simp

end Extension

section Composition

variable {table next composite : Renaming}

/-- Two renamings can be composed exactly when they meet in one space, and the composite has the
images of the first under the second. -/
theorem andThen_eq_ok_iff :
    table.andThen next = .ok composite ↔
      table.codomain = next.domain ∧ composite.codomain = next.codomain ∧
        composite.images = table.images.map next.image := by
  unfold andThen
  split
  · rename_i agree
    simp [agree, Renaming.ext_iff, eq_comm]
  · rename_i differ
    simp [differ]

/-- So two renamings that meet in one space have a composite. -/
theorem exists_andThen (agree : table.codomain = next.domain) :
    ∃ composite, table.andThen next = .ok composite := by
  rw [andThen, dif_pos agree]
  exact ⟨_, rfl⟩

/-- A composite has the domain of the renaming that comes first. -/
theorem domain_andThen (made : table.andThen next = .ok composite) :
    composite.domain = table.domain := by
  have images := (andThen_eq_ok_iff.mp made).2.2
  simp [Size.ext_iff, images]

/-- A composite takes a label to its image under the first renaming and on from there. -/
theorem image_andThen (made : table.andThen next = .ok composite) {label : Label}
    (inside : label.Within table.domain) :
    composite.image label = next.image (table.image label) := by
  have images := (andThen_eq_ok_iff.mp made).2.2
  refine image_of_getElem? ?_
  rw [images, Array.getElem?_map, Array.getElem?_eq_getElem inside, image_eq_getElem table inside]
  rfl

/-- Two renamings that meet compose to any renaming between their outer spaces that takes each label where
the two take it one after the other. -/
theorem andThen_eq_ok (meet : table.codomain = next.domain)
    (domain : composite.domain = table.domain) (codomain : composite.codomain = next.codomain)
    (images : ∀ label : Label, label.Within table.domain →
      composite.image label = next.image (table.image label)) :
    table.andThen next = .ok composite := by
  obtain ⟨whole, made⟩ := exists_andThen meet
  have domains : whole.domain = composite.domain := (domain_andThen made).trans domain.symm
  have codomains : whole.codomain = composite.codomain :=
    (andThen_eq_ok_iff.mp made).2.1.trans codomain.symm
  rw [made, ext_image domains codomains fun label inside => ?_]
  rw [domain_andThen made] at inside
  rw [image_andThen made inside, images label inside]

/-- So two ways from one space to another come to the same when they take each label to the same place. -/
theorem andThen_eq_andThen {other last : Renaming} (meet : table.codomain = next.domain)
    (otherMeet : other.codomain = last.domain) (domains : table.domain = other.domain)
    (codomains : next.codomain = last.codomain)
    (images : ∀ label : Label, label.Within table.domain →
      next.image (table.image label) = last.image (other.image label)) :
    table.andThen next = other.andThen last := by
  obtain ⟨whole, made⟩ := exists_andThen meet
  have domain := domain_andThen made
  have codomain := (andThen_eq_ok_iff.mp made).2.1
  rw [made, andThen_eq_ok otherMeet (domain.trans domains) (codomain.trans codomains)]
  intro label inside
  rw [← domains] at inside
  rw [image_andThen made inside, images label inside]

/-- Composing with an identity asks for its size to agree, and changes nothing. -/
theorem andThen_identity_eq_ok_iff {size : Size} :
    table.andThen (identity size) = .ok composite ↔ table.codomain = size ∧ composite = table := by
  rw [andThen_eq_ok_iff, domain_identity, codomain_identity]
  constructor
  · rintro ⟨agree, codomain, images⟩
    refine ⟨agree, Renaming.ext (codomain.trans agree.symm) ?_⟩
    rw [images]
    exact Array.ext (by simp) fun index _ _ => by simp
  · rintro ⟨agree, rfl⟩
    exact ⟨agree, agree, Array.ext (by simp) fun index _ _ => by simp⟩

/-- Composing an identity with a renaming asks for its size to agree, and changes nothing. -/
theorem identity_andThen_eq_ok_iff {size : Size} :
    (identity size).andThen table = .ok composite ↔ size = table.domain ∧ composite = table := by
  have images (agree : size = table.domain) :
      (identity size).images.map table.image = table.images := by
    refine Array.ext (by simp [agree, identity]) fun index _ inside => ?_
    simp [identity, image_eq_getElem table inside]
  rw [andThen_eq_ok_iff, codomain_identity]
  constructor
  · rintro ⟨agree, codomain, found⟩
    exact ⟨agree, Renaming.ext codomain (found.trans (images agree))⟩
  · rintro ⟨agree, rfl⟩
    exact ⟨agree, rfl, (images agree).symm⟩

end Composition

section Sum

variable {table other total : Renaming}

/-- Renamings can be put side by side exactly when the codomains have a sum and the tables fit, and
the images on the right are those of the second, moved behind the first codomain. -/
theorem sum_eq_ok_iff :
    table.sum other = .ok total ↔
      total.codomain.count = table.codomain.count + other.codomain.count ∧
        total.images =
          table.images ++ other.images.map (·.shift table.codomain.count) := by
  unfold sum
  split
  · rename_i error codomainFound
    have wide := (Size.sum_eq_error_iff.mp codomainFound).1
    have fits := total.codomain.fits
    simp only [reduceCtorEq, false_iff, not_and]
    omega
  · rename_i codomain codomainFound
    rw [Size.sum_eq_ok_iff] at codomainFound
    split
    · rename_i error domainFound
      have wide := (Size.sum_eq_error_iff.mp domainFound).1
      simp only [reduceCtorEq, false_iff, not_and]
      intro _ images
      have fits := total.domain_fits
      simp only [images, Array.size_append, Array.size_map, count_domain] at fits wide
      omega
    · simp [Renaming.ext_iff, Size.ext_iff, codomainFound, eq_comm]

/-- Renamings cannot be put side by side exactly when a sum of their spaces is too large. -/
theorem sum_eq_error_iff {error : LabelError} :
    table.sum other = .error error ↔
      (Size.limit ≤ table.codomain.count + other.codomain.count ∨
        Size.limit ≤ table.domain.count + other.domain.count) ∧ error = .overflow := by
  unfold sum
  split
  · rename_i reported codomainFound
    obtain ⟨wide, rfl⟩ := Size.sum_eq_error_iff.mp codomainFound
    simp [wide, eq_comm]
  · rename_i codomain codomainFound
    have narrow : table.codomain.count + other.codomain.count < Size.limit :=
      Size.sum_eq_ok_iff.mp codomainFound ▸ codomain.fits
    split
    · rename_i reported domainFound
      obtain ⟨wide, rfl⟩ := Size.sum_eq_error_iff.mp domainFound
      simp only [Except.error.injEq, wide, or_true, true_and, eq_comm]
    · rename_i domain domainFound
      have narrowDomain : table.domain.count + other.domain.count < Size.limit :=
        Size.sum_eq_ok_iff.mp domainFound ▸ domain.fits
      simp only [reduceCtorEq, false_iff]
      omega

/-- Renamings whose spaces have sums can be put side by side. -/
theorem exists_sum (table other : Renaming)
    (codomains : table.codomain.count + other.codomain.count < Size.limit)
    (domains : table.domain.count + other.domain.count < Size.limit) :
    ∃ total, table.sum other = .ok total := by
  refine exists_ok_of_ne_error fun error failed => ?_
  have wide := (sum_eq_error_iff.mp failed).1
  omega

/-- The domain of a sum is the sum of the domains. -/
theorem count_domain_sum (made : table.sum other = .ok total) :
    total.domain.count = table.domain.count + other.domain.count := by
  simp [(sum_eq_ok_iff.mp made).2]

/-- The codomain of a sum is the sum of the codomains. -/
theorem count_codomain_sum (made : table.sum other = .ok total) :
    total.codomain.count = table.codomain.count + other.codomain.count :=
  (sum_eq_ok_iff.mp made).1

/-- On the left summand, a sum does what its left part does. -/
theorem image_sum_left (made : table.sum other = .ok total) {label : Label}
    (inside : label.Within table.domain) : total.image label = table.image label := by
  refine image_of_getElem? ?_
  rw [(sum_eq_ok_iff.mp made).2, Array.getElem?_append_left inside,
    Array.getElem?_eq_getElem inside, image_eq_getElem table inside]

/-- On the right summand, a sum does what its right part does, behind the left codomain. -/
theorem image_sum_right (made : table.sum other = .ok total) {label : Label}
    (inside : label.Within other.domain) :
    total.image (label.shift table.domain.count) =
      (other.image label).shift table.codomain.count := by
  refine image_of_getElem? ?_
  rw [(sum_eq_ok_iff.mp made).2, Array.getElem?_append_right (by simp)]
  simp [Array.getElem?_eq_getElem inside, image_eq_getElem other inside]

/-- A renaming can be put before an identity as soon as both sums have a size. -/
theorem exists_sum_identity (table : Renaming) (rest : Size)
    (codomains : table.codomain.count + rest.count < Size.limit)
    (domains : table.domain.count + rest.count < Size.limit) :
    ∃ total, table.sum (identity rest) = .ok total ∧
      total.codomain.count = table.codomain.count + rest.count ∧
        total.domain.count = table.domain.count + rest.count := by
  obtain ⟨total, made⟩ := exists_sum table (identity rest)
    (by rwa [codomain_identity]) (by rwa [domain_identity])
  have codomain := count_codomain_sum made
  have domain := count_domain_sum made
  rw [codomain_identity] at codomain
  rw [domain_identity] at domain
  exact ⟨total, made, codomain, domain⟩

/-- It can be put behind one under the same condition. -/
theorem exists_identity_sum (hidden : Size) (table : Renaming)
    (codomains : hidden.count + table.codomain.count < Size.limit)
    (domains : hidden.count + table.domain.count < Size.limit) :
    ∃ total, (identity hidden).sum table = .ok total ∧
      total.codomain.count = hidden.count + table.codomain.count ∧
        total.domain.count = hidden.count + table.domain.count := by
  obtain ⟨total, made⟩ := exists_sum (identity hidden) table
    (by rwa [codomain_identity]) (by rwa [domain_identity])
  have codomain := count_codomain_sum made
  have domain := count_domain_sum made
  rw [codomain_identity] at codomain
  rw [domain_identity] at domain
  exact ⟨total, made, codomain, domain⟩

/-- Put behind an identity, a renaming acts on the labels behind the hidden ones. -/
theorem image_identity_sum {hidden : Size} (made : (identity hidden).sum table = .ok total)
    {label : Label} (inside : label.Within total.domain) :
    total.image label = label.mapVisible hidden.count table.image := by
  rw [Label.Within, count_domain_sum made, domain_identity] at inside
  by_cases before : label.index < hidden.count
  · rw [Label.mapVisible_of_lt before,
      image_sum_left made (by simpa [Label.Within] using before), image_identity]
  · obtain ⟨visible, rfl⟩ := Label.exists_eq_shift_of_le (Nat.not_lt.mp before)
    rw [Label.index_shift] at inside
    have image := image_sum_right made (show visible.Within table.domain from
      Nat.lt_of_add_lt_add_left inside)
    rw [domain_identity, codomain_identity] at image
    rw [image, Label.mapVisible_shift]

/-- Put before an identity, a renaming acts on the labels in front, and moves the others along. -/
theorem image_sum_identity {rest : Size} (made : table.sum (identity rest) = .ok total)
    {label : Label} (inside : label.Within total.domain) :
    total.image label = table.extend label := by
  rw [Label.Within, count_domain_sum made, domain_identity] at inside
  by_cases front : label.Within table.domain
  · rw [image_sum_left made front, extend_of_within front]
  · obtain ⟨behind, rfl⟩ := Label.exists_eq_shift_of_le (Nat.not_lt.mp front)
    rw [Label.index_shift] at inside
    have image := image_sum_right made (show behind.Within (identity rest).domain by
      rw [domain_identity]
      exact Nat.lt_of_add_lt_add_left inside)
    rw [image, image_identity, extend_shift]

/-- At an interface that lies side by side with another one, a sum renames the left labels as its left
part does, behind the hidden labels of both. -/
theorem mapVisible_sum_left (made : table.sum other = .ok total) {label : Label} {hidden room : Nat}
    (inside : label.index < hidden + table.domain.count) :
    (label.makeRoom hidden room).mapVisible (hidden + room) total.image =
      (label.mapVisible hidden table.image).makeRoom hidden room := by
  rw [Label.mapVisible_makeRoom]
  refine congrArg (·.makeRoom hidden room) (Label.mapVisible_congr fun visible behind => ?_)
  rw [behind, Label.index_shift] at inside
  exact image_sum_left made (Nat.lt_of_add_lt_add_left inside)

/-- And the right labels as its right part does, behind the interface on the left as well. -/
theorem mapVisible_sum_right (made : table.sum other = .ok total) {label : Label} {kept hidden : Nat}
    (inside : label.index < hidden + other.domain.count) :
    ((label.makeRoom hidden table.domain.count).shift kept).mapVisible (kept + hidden) total.image =
      ((label.mapVisible hidden other.image).makeRoom hidden table.codomain.count).shift kept := by
  rw [Label.mapVisible_shift_add]
  refine congrArg (·.shift kept) (Label.mapVisible_makeRoom_of_shift fun visible behind => ?_)
  rw [behind, Label.index_shift] at inside
  exact image_sum_right made (Nat.lt_of_add_lt_add_left inside)

/-- Identities side by side are the identity of the sum. -/
theorem identity_sum_identity_eq_ok_iff {left right : Size} :
    (identity left).sum (identity right) = .ok total ↔
      ∃ size : Size, size.count = left.count + right.count ∧ total = identity size := by
  constructor
  · intro made
    have codomains := count_codomain_sum made
    have domains := count_domain_sum made
    simp only [domain_identity, codomain_identity] at codomains domains
    refine ⟨total.codomain, codomains, ext_image ?_ rfl fun label inside => ?_⟩
    · rw [domain_identity, Size.ext_iff, domains, codomains]
    · rw [image_identity_sum made inside, Label.mapVisible_id (image_identity right),
        image_identity]
  · rintro ⟨size, count, rfl⟩
    rw [sum_eq_ok_iff]
    refine ⟨count, Array.ext ?_ fun index _ _ => ?_⟩
    · simp [identity, count]
    · by_cases leftInside : index < left.count
      · simp [identity, leftInside]
      · simp [identity, Array.getElem_append, leftInside, Label.shift]
        omega

/-- Three renamings are side by side in the same way in whichever order they are put there. -/
theorem sum_sum_eq_ok_iff {first second third left right : Renaming}
    (leftMade : first.sum second = .ok left) (rightMade : second.sum third = .ok right) :
    left.sum third = .ok total ↔ first.sum right = .ok total := by
  obtain ⟨leftCodomain, leftImages⟩ := sum_eq_ok_iff.mp leftMade
  obtain ⟨rightCodomain, rightImages⟩ := sum_eq_ok_iff.mp rightMade
  have moved : (fun image : Label => (image.shift second.codomain.count).shift first.codomain.count) =
      (·.shift left.codomain.count) :=
    funext fun image => by rw [Label.shift_shift, leftCodomain]
  rw [sum_eq_ok_iff, sum_eq_ok_iff, leftImages, rightImages, rightCodomain, Array.map_append,
    Array.map_map, Array.append_assoc, Function.comp_def, moved, leftCodomain, Nat.add_assoc]

section Composites

variable {first second third fourth left right : Renaming} (leftMade : first.sum second = .ok left)
  (rightMade : third.sum fourth = .ok right)

include leftMade rightMade

/-- A label is sent by two sums, one after the other, where its part of the first sum and then that of
the second send it. -/
theorem image_image_sum {composite other total : Renaming} (agree : first.codomain = third.domain)
    (otherAgree : second.codomain = fourth.domain) (made : first.andThen third = .ok composite)
    (otherMade : second.andThen fourth = .ok other) (totalMade : composite.sum other = .ok total)
    {label : Label} (inside : label.Within left.domain) :
    right.image (left.image label) = total.image label := by
  have domain := domain_andThen made
  have codomain := (andThen_eq_ok_iff.mp made).2.1
  rw [Label.Within, count_domain_sum leftMade] at inside
  by_cases front : label.Within first.domain
  · rw [image_sum_left leftMade front, image_sum_left rightMade (agree ▸ first.image_within front),
      image_sum_left totalMade (domain ▸ front), image_andThen made front]
  · obtain ⟨behind, rfl⟩ := Label.exists_eq_shift_of_le (Nat.not_lt.mp front)
    rw [Label.index_shift] at inside
    have source : behind.Within second.domain := Nat.lt_of_add_lt_add_left inside
    have image := image_sum_right totalMade (domain_andThen otherMade ▸ source)
    rw [domain, codomain, image_andThen otherMade source] at image
    rw [image_sum_right leftMade source, agree,
      image_sum_right rightMade (otherAgree ▸ second.image_within source), image]

/-- Composites side by side are the composite of what is side by side. -/
theorem sum_andThen_sum {composite other : Renaming} (made : first.andThen third = .ok composite)
    (otherMade : second.andThen fourth = .ok other) :
    left.andThen right = composite.sum other := by
  obtain ⟨agree, codomain, -⟩ := andThen_eq_ok_iff.mp made
  obtain ⟨otherAgree, otherCodomain, -⟩ := andThen_eq_ok_iff.mp otherMade
  have domain := domain_andThen made
  have otherDomain := domain_andThen otherMade
  have leftDomain := count_domain_sum leftMade
  have leftCodomain := count_codomain_sum leftMade
  have rightDomain := count_domain_sum rightMade
  have rightCodomain := count_codomain_sum rightMade
  have domainFits := left.domain.fits
  have codomainFits := right.codomain.fits
  obtain ⟨total, totalMade⟩ := exists_sum composite other
    (by rw [codomain, otherCodomain]; omega) (by rw [domain, otherDomain]; omega)
  have totalDomain := count_domain_sum totalMade
  have totalCodomain := count_codomain_sum totalMade
  rw [totalMade]
  refine andThen_eq_ok (Size.ext ?_) (Size.ext ?_) (Size.ext ?_) fun label inside => ?_
  · rw [leftCodomain, rightDomain, agree, otherAgree]
  · rw [totalDomain, leftDomain, domain, otherDomain]
  · rw [totalCodomain, rightCodomain, codomain, otherCodomain]
  · exact (image_image_sum leftMade rightMade agree otherAgree made otherMade totalMade inside).symm

end Composites

/-- Renamings behind the same labels are composed behind them. -/
theorem identity_sum_andThen {hidden : Size} {table next composite before after : Renaming}
    (beforeMade : (identity hidden).sum table = .ok before)
    (afterMade : (identity hidden).sum next = .ok after)
    (made : table.andThen next = .ok composite) :
    before.andThen after = (identity hidden).sum composite := by
  have still : (identity hidden).andThen (identity hidden) = .ok (identity hidden) :=
    identity_andThen_eq_ok_iff.mpr ⟨(domain_identity hidden).symm, rfl⟩
  exact sum_andThen_sum beforeMade afterMade still made

end Sum

section Swap

variable {a b : Size} {exchange : Renaming}

/-- Two summands can be exchanged exactly when their sum has a size. -/
theorem swap_eq_ok_iff :
    swap a b = .ok exchange ↔
      exchange.codomain.count = a.count + b.count ∧
        exchange.images = Array.ofFn fun label : Fin (a.count + b.count) =>
          (⟨if label < a.count then b.count + label else label - a.count⟩ : Label) := by
  unfold swap
  split
  · rename_i error found
    have wide := (Size.sum_eq_error_iff.mp found).1
    have fits := exchange.codomain.fits
    simp only [reduceCtorEq, false_iff, not_and]
    omega
  · rename_i size found
    rw [Size.sum_eq_ok_iff] at found
    obtain ⟨count, fits⟩ := size
    obtain rfl : count = a.count + b.count := found
    simp [Renaming.ext_iff, Size.ext_iff, eq_comm]

/-- Two summands cannot be exchanged exactly when their sum is too large. -/
theorem swap_eq_error_iff {error : LabelError} :
    swap a b = .error error ↔ Size.limit ≤ a.count + b.count ∧ error = .overflow := by
  rw [← Size.sum_eq_error_iff]
  unfold swap
  split
  · rename_i reported found
    simp only [found, Except.error.injEq]
  · rename_i size found
    simp only [found, reduceCtorEq]

/-- Two summands with a sum can be exchanged. -/
theorem exists_swap (a b : Size) (fits : a.count + b.count < Size.limit) :
    ∃ exchange, swap a b = .ok exchange := by
  refine exists_ok_of_ne_error fun error failed => ?_
  have wide := (swap_eq_error_iff.mp failed).1
  omega

theorem count_codomain_swap (made : swap a b = .ok exchange) :
    exchange.codomain.count = a.count + b.count :=
  (swap_eq_ok_iff.mp made).1

theorem count_domain_swap (made : swap a b = .ok exchange) :
    exchange.domain.count = a.count + b.count := by
  simp [(swap_eq_ok_iff.mp made).2]

/-- An exchange moves the labels of the left summand behind those of the right. -/
theorem image_swap_left (made : swap a b = .ok exchange) {label : Label} (inside : label.Within a) :
    exchange.image label = label.shift b.count := by
  have bound : label.index < a.count + b.count := Nat.lt_add_right _ inside
  refine image_of_getElem? ?_
  rw [(swap_eq_ok_iff.mp made).2, Array.getElem?_ofFn, dif_pos bound]
  simp only [Label.Within] at inside
  simp [inside, Label.shift]

/-- An exchange moves the labels of the right summand to the front. -/
theorem image_swap_right (made : swap a b = .ok exchange) {label : Label}
    (inside : label.Within b) : exchange.image (label.shift a.count) = label := by
  have bound : (label.shift a.count).index < a.count + b.count := Nat.add_lt_add_left inside _
  refine image_of_getElem? ?_
  have behind : ¬ a.count + label.index < a.count := by omega
  rw [(swap_eq_ok_iff.mp made).2, Array.getElem?_ofFn, dif_pos bound]
  simp [behind]

end Swap

end Flowgraph.Renaming
