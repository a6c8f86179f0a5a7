import Flowgraph.Proofs.Raw.Inverse

/-!
# Every renaming is total on its domain

Only a renaming that is made by a function has its images checked. Here it is shown that nobody else has to:
a plan is a finite tree of the ways to make a renaming, and `Renaming.Plan.agrees_build` says, with one case
for each way, that it can be built without proofs and comes to the same as with them. So what a plan builds
is `Sound`, its images lie in its codomain, and a sound table is `Dependable`: it answers for the labels of
its domain, and for no others, whichever way it is asked, and it can be composed with any other and undone
without a lookup that misses.

Conversely every sound table is built by a plan. What is said of all renamings is therefore said of exactly
those that can be made.
-/

namespace Flowgraph

open Unguarded

/-- A way to make a renaming. A function that is asked for the images may keep a memory of what it has been
asked before. -/
inductive Renaming.Plan : Type 1 where
  | ofFn {Memory : Type} (domain codomain : Size) (f : Label → StateM Memory Label) (memory : Memory)
  | ofArray (codomain : Size) (images : Array Label)
  | identity (size : Size)
  | swap (a b : Size)
  | regroupRight (a b c : Size)
  | regroupLeft (a b c : Size)
  | interchange (a b c d : Size)
  | andThen (first second : Plan)
  | sum (left right : Plan)
  | inverse (table : Plan)

namespace Renaming.Plan

/-- The renaming of a plan. -/
def build : Plan → Except LabelError Renaming
  | .ofFn domain codomain f memory => ((ofFnM domain codomain f).run memory).1
  | .ofArray codomain images => Renaming.ofArray codomain images
  | .identity size => return Renaming.identity size
  | .swap a b => Renaming.swap a b
  | .regroupRight a b c => Renaming.regroupRight a b c
  | .regroupLeft a b c => Renaming.regroupLeft a b c
  | .interchange a b c d => Renaming.interchange a b c d
  | .andThen first second => do
    let first ← first.build
    let second ← second.build
    first.andThen second
  | .sum left right => do
    let left ← left.build
    let right ← right.build
    left.sum right
  | .inverse table => do
    let table ← table.build
    table.inverse

/-- The renaming of a plan, built without proofs. -/
def buildRaw : Plan → Unguarded LabelError Raw
  | .ofFn domain codomain f memory => ordinary ((Raw.ofFnM domain codomain f).run memory).1
  | .ofArray codomain images => Raw.ofArray codomain images
  | .identity size => return Raw.identity size
  | .swap a b => ordinary (Raw.swap a b)
  | .regroupRight a b c => ordinary (Raw.regroupRight a b c)
  | .regroupLeft a b c => ordinary (Raw.regroupLeft a b c)
  | .interchange a b c d => Raw.interchange a b c d
  | .andThen first second => do
    let first ← first.buildRaw
    let second ← second.buildRaw
    first.andThen second
  | .sum left right => do
    let left ← left.buildRaw
    let right ← right.buildRaw
    left.sum right
  | .inverse table => do
    let table ← table.buildRaw
    table.inverse

/-- A renaming can be built without proofs: nothing is missed on the way, and the outcome is the same. -/
theorem agrees_build (plan : Plan) : Agrees plan.buildRaw raw plan.build := by
  induction plan with
  | ofFn domain codomain f memory =>
    rw [Agrees, buildRaw, ofFnM_raw]
    rfl
  | ofArray codomain images => exact agrees_ofArray codomain images
  | identity size => exact congrArg (ordinary <| .ok ·) (raw_identity size).symm
  | swap a b => exact agrees_swap a b
  | regroupRight a b c => exact agrees_regroupRight a b c
  | regroupLeft a b c => exact agrees_regroupLeft a b c
  | interchange a b c d => exact agrees_interchange a b c d
  | andThen first second firstAgrees secondAgrees =>
    refine firstAgrees.bind fun first => ?_
    refine secondAgrees.bind fun second => ?_
    exact agrees_andThen first second
  | sum left right leftAgrees rightAgrees =>
    refine leftAgrees.bind fun left => ?_
    refine rightAgrees.bind fun right => ?_
    exact agrees_sum left right
  | inverse table tableAgrees =>
    refine tableAgrees.bind fun table => ?_
    exact agrees_inverse table

/-- There is a plan for every renaming, since its table passes the check. -/
theorem exists_build (table : Renaming) : ∃ plan : Plan, plan.build = .ok table := by
  refine ⟨.ofArray table.codomain table.images, ?_⟩
  rw [build, Renaming.ofArray, dif_pos table.domain_fits]
  split
  · rename_i image found
    have outside : ¬ image.Within table.codomain := by simpa using Array.find?_some found
    exact absurd (table.images_within image (Array.mem_of_find?_eq_some found)) outside
  · rfl

end Renaming.Plan

namespace Renaming.Raw

/-- The table can be counted, and all its images lie in the codomain. -/
structure Sound (table : Raw) : Prop where
  domain_fits : table.images.size < Size.limit
  images_within : ∀ image ∈ table.images, image.Within table.codomain

/-- Nobody who relies on a table is let down. Its domain is as large as it is long. Both ways to ask for an
image give the same one, in the codomain, for every label of the domain; for any other label one of them
breaks down, and the other refuses. It can be put before every table that its codomain is the domain of, and
then sends a label where the two send it one after the other. The search for its inverse misses no slot. -/
structure Dependable (table : Raw) : Prop where
  domain_eq : ∃ domain : Size, table.domain = .ok domain ∧ domain.count = table.images.size
  apply_of_lt : ∀ label : Label, label.index < table.images.size →
    ∃ image : Label, image.Within table.codomain ∧ table.apply label = .ok image ∧
      table.lookup label = ordinary (.ok image)
  apply_of_le : ∀ label : Label, table.images.size ≤ label.index →
    ∃ domain : Size, table.domain = .ok domain ∧
      table.apply label = .error (.outsideDomain ⟨label, domain⟩) ∧
        table.lookup label = ordinary (.error (.outOfRange label domain))
  andThen_of_eq : ∀ next : Raw, next.Sound → next.domain = .ok table.codomain →
    ∃ total : Raw, table.andThen next = ordinary (.ok total) ∧
      ∀ label : Label, total.apply label = (table.apply label >>= next.apply)
  andThen_of_ne : ∀ next : Raw, next.Sound → next.domain ≠ .ok table.codomain →
    ∃ domain : Size, next.domain = .ok domain ∧
      table.andThen next = ordinary (.error (.sizeMismatch table.codomain domain))
  inverse_total : ∃ outcome : Except LabelError Raw, table.inverse = ordinary outcome

/-- The proofs that a renaming carries say that what is left without them is sound. -/
theorem sound_raw (table : Renaming) : table.raw.Sound :=
  ⟨table.domain_fits, table.images_within⟩

/-- Soundness is all that a table needs to be given its proofs back. -/
theorem Sound.exists_raw_eq {unproved : Raw} (sound : unproved.Sound) :
    ∃ table : Renaming, table.raw = unproved :=
  ⟨⟨unproved.codomain, unproved.images, sound.domain_fits, sound.images_within⟩, rfl⟩

/-- A composite is asked for an image by asking the first table and then the second, also for a label that
neither has a place for. -/
theorem apply_raw_andThen {table next total : Renaming} (made : table.andThen next = .ok total)
    (label : Label) : total.raw.apply label = (table.raw.apply label >>= next.raw.apply) := by
  have domain := domain_andThen made
  by_cases inside : label.Within table.domain
  · have meet := (andThen_eq_ok_iff.mp made).1
    rw [apply_raw_of_within (domain ▸ inside), apply_raw_of_within inside, image_andThen made inside]
    exact (apply_raw_of_within (meet ▸ table.image_within inside)).symm
  · rw [apply_raw_of_not_within (domain ▸ inside), apply_raw_of_not_within inside, domain]
    rfl

/-- A sound table is dependable: it does what the renaming with the proofs does. -/
theorem Sound.dependable {unproved : Raw} (sound : unproved.Sound) : unproved.Dependable := by
  obtain ⟨table, rfl⟩ := sound.exists_raw_eq
  refine {
    domain_eq := ⟨table.domain, domain_raw table, rfl⟩
    apply_of_lt := fun label inside => ⟨table.image label, table.image_within inside,
      apply_raw_of_within inside, lookup_raw_of_within inside⟩
    apply_of_le := fun label outside => ⟨table.domain, domain_raw table,
      apply_raw_of_not_within (Nat.not_lt.mpr outside),
      lookup_raw_of_not_within (Nat.not_lt.mpr outside)⟩
    andThen_of_eq := fun next nextSound meets => ?_
    andThen_of_ne := fun next nextSound differs => ?_
    inverse_total := ⟨table.inverse.map raw, agrees_inverse table⟩ }
  · obtain ⟨next, rfl⟩ := nextSound.exists_raw_eq
    rw [domain_raw] at meets
    obtain ⟨total, made⟩ := exists_andThen (Except.ok.inj meets).symm
    exact ⟨total.raw, (agrees_andThen table next).eq_ok_iff.mpr ⟨total, made, rfl⟩,
      apply_raw_andThen made⟩
  · obtain ⟨next, rfl⟩ := nextSound.exists_raw_eq
    rw [domain_raw] at differs
    have refused : table.andThen next = .error (.sizeMismatch table.codomain next.domain) :=
      dif_neg fun same => differs (congrArg Except.ok same.symm)
    exact ⟨next.domain, domain_raw next, (agrees_andThen table next).eq_error_iff.mpr refused⟩

end Renaming.Raw

namespace Renaming.Plan

/-- The tables that are built without proofs are exactly the sound ones. -/
theorem exists_buildRaw_iff {unproved : Raw} :
    (∃ plan : Plan, plan.buildRaw = ordinary (.ok unproved)) ↔ unproved.Sound := by
  constructor
  · rintro ⟨plan, built⟩
    obtain ⟨table, -, rfl⟩ := plan.agrees_build.eq_ok_iff.mp built
    exact Raw.sound_raw table
  · intro sound
    obtain ⟨table, rfl⟩ := sound.exists_raw_eq
    obtain ⟨plan, made⟩ := exists_build table
    exact ⟨plan, plan.agrees_build.eq_ok_iff.mpr ⟨table, made, rfl⟩⟩

/-- A renaming is total on its domain, however it was made. Built without proofs, no plan breaks down, and it
comes to the same as with them; and every table that comes out is sound, and so dependable. -/
theorem buildRaw_total (plan : Plan) :
    (∀ breach, plan.buildRaw ≠ .mk (.error breach)) ∧
      plan.buildRaw = ordinary (plan.build.map raw) ∧
        ∀ unproved, plan.buildRaw = ordinary (.ok unproved) →
          unproved.Sound ∧ unproved.Dependable := by
  refine ⟨plan.agrees_build.ne_breach, plan.agrees_build, fun unproved built => ?_⟩
  have sound := exists_buildRaw_iff.mp ⟨plan, built⟩
  exact ⟨sound, sound.dependable⟩

/-- Three labels are sent round, by a function that gives its answers in turn, and then back. -/
def roundAndBack : Plan :=
  andThen (ofFn 3 3 (fun _ answer => (answer, ⟨(answer.index + 1) % 3⟩)) ⟨1⟩)
    (inverse (ofArray 3 #[⟨1⟩, ⟨2⟩, ⟨0⟩]))

/-- Sent round and back, the labels are where they were. The table that does nothing is sound. -/
theorem buildRaw_roundAndBack_total :
    roundAndBack.buildRaw = ordinary (.ok (Raw.identity 3)) ∧
      (Raw.identity 3).Sound ∧ (Raw.identity 3).Dependable := by
  have built : roundAndBack.build = .ok (Renaming.identity 3) := by decide +kernel
  have made : roundAndBack.buildRaw = ordinary (.ok (Raw.identity 3)) :=
    roundAndBack.agrees_build.eq_ok_iff.mpr ⟨.identity 3, built, raw_identity 3⟩
  exact ⟨made, (buildRaw_total roundAndBack).2.2 _ made⟩

end Renaming.Plan

end Flowgraph
