import Mathlib.Data.List.Nodup
import Flowgraph.Proofs.Raw.Renaming
import Flowgraph.Proofs.Renaming.Bijection

/-!
# One pass finds the inverse

Without proofs, the inverse of a renaming is found in one pass over its table: each label is entered into
the slot of its image, and the first image that is taken ends the matter. What comes through the pass has to
be complete, or else the slots that are left open are reported in the end.

`Free` is what carries the pass. It says of the pairs that are still to come that each of them has an empty
slot of its own, and by `free_cons_iff` this is what it takes to enter the first of them and to go on.
At the beginning it says that no two labels have the same image, and the pigeonhole principle does the
rest: with equal sizes such a renaming leaves no slot open, so that the report in the end is never made.
-/

namespace Flowgraph

open Unguarded

/-- What stands in the way of an inverse. All of this is reported as one and the same error. -/
inductive Renaming.Obstacle where
  /-- The two spaces differ in size. -/
  | sizes (domain codomain : Size)
  /-- A label is sent where an earlier one has been sent already. -/
  | taken (label image : Label)
  /-- No label is sent to one of the slots. -/
  | unfilled
  deriving DecidableEq, Repr

namespace Renaming.Raw

/-- The labels of the domain with their images, in domain order. -/
def pairs (table : Raw) : List (Label × Label) :=
  table.images.toList.zipIdx.map fun (image, index) => (⟨index⟩, image)

/-- Enter labels into the slots of their images, which are trusted to be there. The slots are the table of a
renaming that is defined on `codomain`. -/
def enter (codomain : Size) :
    List (Label × Label) → Array (Option Label) → Unguarded Obstacle (Array (Option Label))
  | [], slots => ordinary (.ok slots)
  | (label, image) :: rest, slots =>
    match slots[image.index]? with
    | none => trusting (.error (.outsideDomain ⟨image, codomain⟩))
    | some (some _) => ordinary (.error (.taken label image))
    | some none => enter codomain rest (slots.setIfInBounds image.index (some label))

/-- The renaming back, or what stands in its way. -/
def seekInverse (table : Raw) : Unguarded Obstacle Raw := do
  let domain ← trusting table.domain
  if domain = table.codomain then
    let slots ← enter table.codomain table.pairs (Array.replicate table.codomain.count none)
    match slots.mapM id with
    | some images => ordinary (.ok ⟨table.codomain, images⟩)
    | none => ordinary (.error .unfilled)
  else
    ordinary (.error (.sizes domain table.codomain))

/-- The renaming back, for a renaming that permutes one label space. -/
def inverse (table : Raw) : Unguarded LabelError Raw :=
  table.seekInverse.adapt fun _ => .notBijective

end Renaming.Raw

namespace Renaming

section Entering

/-- Each of the images has a slot, which is empty and of which it is the only image. -/
structure Free (pairs : List (Label × Label)) (slots : Array (Option Label)) : Prop where
  empty : ∀ pair ∈ pairs, slots[pair.2.index]? = some none
  distinct : (pairs.map Prod.snd).Nodup

variable {codomain : Size} {label image : Label} {rest pairs : List (Label × Label)}
  {slots : Array (Option Label)}

/-- There is a slot for each of several images exactly if there is one for the first, and one for each of
the others when the first slot has been filled. -/
theorem free_cons_iff :
    Free ((label, image) :: rest) slots ↔
      slots[image.index]? = some none ∧
        Free rest (slots.setIfInBounds image.index (some label)) := by
  constructor
  · rintro ⟨empty, distinct⟩
    rw [List.map_cons, List.nodup_cons] at distinct
    refine ⟨empty _ (.head _), fun pair member => ?_, distinct.2⟩
    have other : image.index ≠ pair.2.index := fun same =>
      distinct.1 (List.mem_map.mpr ⟨pair, member, (Label.ext same).symm⟩)
    rw [Array.getElem?_setIfInBounds_ne other]
    exact empty pair (.tail _ member)
  · rintro ⟨first, empty, distinct⟩
    have other (pair : Label × Label) (member : pair ∈ rest) : image.index ≠ pair.2.index := by
      intro same
      have filled := empty pair member
      obtain ⟨placed, -⟩ := Array.getElem?_eq_some_iff.mp first
      rw [← same, Array.getElem?_setIfInBounds_self_of_lt placed] at filled
      cases filled
    refine ⟨fun pair member => ?_, ?_⟩
    · rcases List.mem_cons.mp member with rfl | later
      · exact first
      · rw [← empty pair later, Array.getElem?_setIfInBounds_ne (other pair later)]
    · rw [List.map_cons, List.nodup_cons]
      refine ⟨fun member => ?_, distinct⟩
      obtain ⟨pair, later, same⟩ := List.mem_map.mp member
      exact other pair later (congrArg Label.index same).symm

/-- Where there is a slot for each image, all labels are entered. -/
theorem enter_of_free (free : Free pairs slots) :
    Raw.enter codomain pairs slots = ordinary (.ok (pairs.foldl
      (fun slots (label, image) => slots.setIfInBounds image.index (some label)) slots)) := by
  induction pairs generalizing slots with
  | nil => rfl
  | cons pair rest inductionHypothesis =>
    obtain ⟨label, image⟩ := pair
    obtain ⟨empty, later⟩ := free_cons_iff.mp free
    rw [Raw.enter, empty]
    exact inductionHypothesis later

/-- Elsewhere an image is found taken, provided that all slots are there. -/
theorem enter_of_not_free (placed : ∀ pair ∈ pairs, pair.2.index < slots.size)
    (clash : ¬ Free pairs slots) :
    ∃ label image, Raw.enter codomain pairs slots = ordinary (.error (.taken label image)) := by
  induction pairs generalizing slots with
  | nil => exact absurd ⟨by simp, by simp⟩ clash
  | cons pair rest inductionHypothesis =>
    obtain ⟨label, image⟩ := pair
    cases found : slots[image.index]? with
    | none => exact absurd (placed _ (.head _)) (Nat.not_lt.mpr (Array.getElem?_eq_none_iff.mp found))
    | some slot =>
      rw [Raw.enter, found]
      cases slot with
      | some earlier => exact ⟨label, image, rfl⟩
      | none =>
        exact inductionHypothesis (fun pair member => by simpa using placed pair (.tail _ member))
          fun later => clash (free_cons_iff.mpr ⟨found, later⟩)

end Entering

section Seeking

variable {table : Renaming}

@[simp] theorem pairs_raw : table.raw.pairs = table.pairs := rfl

/-- There is a slot for the image of every pair of a renaming. -/
theorem placed_pairs : ∀ pair ∈ table.pairs,
    pair.2.index < (Array.replicate table.codomain.count (none : Option Label)).size := by
  rintro ⟨label, image⟩ member
  obtain ⟨inside, rfl⟩ := mem_pairs_iff.mp member
  rw [Array.size_replicate]
  exact table.image_within inside

/-- In the beginning the slots are free exactly for a renaming that gives no image twice. -/
theorem free_pairs_iff :
    Free table.pairs (Array.replicate table.codomain.count none) ↔
      ∀ left right : Label, left.Within table.domain → right.Within table.domain →
        table.image left = table.image right → left = right := by
  have images : table.pairs.map Prod.snd = table.images.toList := by
    rw [pairs, List.map_map]
    exact List.zipIdx_map_fst 0 table.images.toList
  constructor
  · rintro ⟨-, distinct⟩ left right leftInside rightInside same
    rw [images] at distinct
    rw [image_eq_getElem table leftInside, image_eq_getElem table rightInside] at same
    exact Label.ext ((distinct.getElem_inj_iff).mp same)
  · intro injective
    refine ⟨fun pair member => ?_, ?_⟩
    · have placed := placed_pairs pair member
      rw [Array.getElem?_eq_getElem placed, Array.getElem_replicate]
    · rw [images, List.nodup_iff_injective_getElem]
      intro left right same
      have leftInside : Label.Within ⟨left⟩ table.domain := left.isLt
      have rightInside : Label.Within ⟨right⟩ table.domain := right.isLt
      have labels : (⟨left⟩ : Label) = ⟨right⟩ := injective _ _ leftInside rightInside (by
        rw [image_eq_getElem table leftInside, image_eq_getElem table rightInside]
        exact same)
      exact Fin.ext (congrArg Label.index labels)

/-- Where a renaming can be undone, the slots are in the end the table of the renaming back. -/
theorem Inverts.preimages_mapM {back : Renaming} (inverts : Inverts back table) :
    table.preimages.mapM id = some back.images := by
  rw [inverts.preimages_eq_map, Array.mapM_map]
  exact (Array.mapM_pure (f := id)).trans (by simp)

/-- Where there is an inverse, the pass finds it. -/
theorem seekInverse_of_ok {back : Renaming} (made : table.inverse = .ok back) :
    table.raw.seekInverse = ordinary (.ok back.raw) := by
  have inverts := inverse_eq_ok_iff.mp made
  have free := free_pairs_iff.mpr inverts.bijective.injective
  rw [Raw.seekInverse, domain_raw, trusting_ok_bind, codomain_raw, if_pos inverts.square, pairs_raw,
    enter_of_free free, ordinary_ok_bind]
  have slots := inverts.preimages_mapM
  unfold preimages at slots
  rw [slots, raw, inverts.codomain_eq, inverts.square]

/-- Where there is none, the sizes differ or an image is found taken, before it can be seen that a slot is
left open. -/
theorem seekInverse_of_error {error : LabelError} (refused : table.inverse = .error error) :
    ∃ obstacle, table.raw.seekInverse = ordinary (.error obstacle) ∧ obstacle ≠ .unfilled := by
  have other : ¬ table.Bijective := (inverse_eq_error_iff.mp refused).1
  rw [Raw.seekInverse, domain_raw, trusting_ok_bind, codomain_raw, pairs_raw]
  by_cases square : table.domain = table.codomain
  · have clash : ¬ Free table.pairs (Array.replicate table.codomain.count none) := fun free =>
      other ⟨square, free_pairs_iff.mp free⟩
    obtain ⟨label, image, taken⟩ := enter_of_not_free placed_pairs clash
    rw [if_pos square, taken]
    exact ⟨.taken label image, rfl, by simp⟩
  · rw [if_neg square]
    exact ⟨.sizes table.domain table.codomain, rfl, by simp⟩

/-- So the slots are never found incomplete, and no slot is ever missed. -/
theorem seekInverse_ne_unfilled (table : Renaming) :
    table.raw.seekInverse ≠ ordinary (.error .unfilled) := by
  cases made : table.inverse with
  | ok back =>
    rw [seekInverse_of_ok made]
    rintro ⟨⟩
  | error error =>
    obtain ⟨obstacle, found, other⟩ := seekInverse_of_error made
    rw [found]
    rintro ⟨⟩
    exact other rfl

theorem agrees_inverse (table : Renaming) : Agrees table.raw.inverse raw table.inverse := by
  cases made : table.inverse with
  | ok back =>
    rw [Raw.inverse, seekInverse_of_ok made]
    rfl
  | error error =>
    obtain ⟨-, rfl⟩ := inverse_eq_error_iff.mp made
    obtain ⟨obstacle, found, -⟩ := seekInverse_of_error made
    rw [Raw.inverse, found]
    rfl

end Seeking

/-- The inverse is exact. It is there exactly for the bijections, which are exactly the permutations, and
all others are refused for the one reason that they are none. It is what composes to identities with the
renaming, on either side; it has the renaming for its own inverse; and two bijections that meet are undone
in the opposite order. It is found in one pass without proofs, and what comes through this pass has no slot
left open. -/
theorem inverse_exact (table next : Renaming) :
    (((∃ back, table.inverse = .ok back) ↔ table.Bijective) ∧
        (table.isPermutation = true ↔ table.Bijective) ∧
        ∀ error, table.inverse = .error error ↔ ¬ table.Bijective ∧ error = .notBijective) ∧
      (∀ back, table.inverse = .ok back ↔
        table.andThen back = .ok (identity table.domain) ∧
          back.andThen table = .ok (identity table.codomain)) ∧
      (∀ back, table.inverse = .ok back ↔ back.inverse = .ok table) ∧
      ((∀ back, inversesAndThen table next = .ok back ↔
          (table.Bijective ∧ next.Bijective) ∧ (table.andThen next >>= inverse) = .ok back) ∧
        ((∃ back, inversesAndThen table next = .ok back) ↔
          table.Bijective ∧ next.Bijective ∧ table.codomain = next.domain)) ∧
      table.raw.inverse = ordinary (table.inverse.map raw) ∧
        table.raw.seekInverse ≠ ordinary (.error .unfilled) :=
  ⟨⟨exists_inverse_iff, isPermutation_iff, fun _ => inverse_eq_error_iff⟩,
    fun _ => inverse_eq_ok_iff.trans Inverts.iff_andThen, fun _ => inverse_eq_ok_comm,
    ⟨fun _ => inversesAndThen_eq_ok_iff, exists_inversesAndThen_iff⟩, agrees_inverse table,
    seekInverse_ne_unfilled table⟩

end Renaming

end Flowgraph
