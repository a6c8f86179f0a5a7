import Flowgraph.Renaming.Rearrange
import Flowgraph.Proofs.Raw.Agreement
import Flowgraph.Proofs.Renaming.Image

/-!
# Renamings without proofs

A renaming carries the proof that its images lie in its codomain, and that its table can be counted. Here
it is taken without them, as a size and a table. Only a renaming that is made by a function has its images
checked; all others are put together from tables that are trusted, and composing looks images up in the
second table that nobody has checked against it.

Each operation agrees with the operation on renamings. A lookup in a table, be it to apply a renaming or
to read a table that a renaming is made of, breaks down where there is no such place, and composing is
where that has to be excluded: once the sizes have been compared, every image has its place in the next
table.
-/

namespace Flowgraph

open Unguarded

/-- A renaming without its proofs. -/
structure Renaming.Raw where
  codomain : Size
  images : Array Label
  deriving DecidableEq

/-- What is left of a renaming when its proofs are forgotten. -/
def Renaming.raw (table : Renaming) : Renaming.Raw := ⟨table.codomain, table.images⟩

namespace Renaming.Raw

/-- The size of the domain, which is the length of the table. -/
def domain (table : Raw) : Except Breach Size :=
  match Size.ofNat? table.images.size with
  | some size => .ok size
  | none => .error (.uncountable table.images.size)

/-- The image of a label, which is trusted to have a place in the table. -/
def apply (table : Raw) (label : Label) : Except Breach Label :=
  match table.images[label.index]? with
  | some image => .ok image
  | none => do
    let domain ← table.domain
    .error (.outsideDomain ⟨label, domain⟩)

/-- The image of a label, after a check that it lies in the domain. -/
def lookup (table : Raw) (label : Label) : Unguarded LabelError Label := do
  let domain ← trusting table.domain
  let label ← ordinary (label.check domain)
  trusting (table.apply label)

section OfFunction

variable {m : Type → Type} [Monad m]

/-- Continue a table by `missing` images, each of which is checked when `f` has given it. -/
def fillM (codomain : Size) (f : Label → m Label) : (missing : Nat) → (images : Array Label) →
    m (Except LabelError (Array Label))
  | 0, images => return .ok images
  | missing + 1, images => do
    let image ← f ⟨images.size⟩
    match image.check codomain with
    | .ok image => fillM codomain f missing (images.push image)
    | .error error => return .error error

/-- The renaming that sends every label to the answer of `f`. -/
def ofFnM (domain codomain : Size) (f : Label → m Label) : m (Except LabelError Raw) := do
  let images ← fillM codomain f domain.count #[]
  return images.map (Raw.mk codomain)

end OfFunction

/-- The renaming with a given table, whose places are looked up and checked one after the other. -/
def ofArray (codomain : Size) (images : Array Label) : Unguarded LabelError Raw :=
  match Size.ofNat? images.size with
  | some domain => .mk (ofFnM domain codomain (Raw.mk codomain images).apply)
  | none => ordinary (.error .overflow)

/-- The renaming that changes nothing. -/
def identity (size : Size) : Raw := ⟨size, (Array.range size.count).map Label.mk⟩

/-- Exchange the summands. -/
def swap (a b : Size) : Except LabelError Raw := do
  let total ← a.sum b
  return ⟨total, (Array.range total.count).map fun index =>
    ⟨if index < a.count then b.count + index else index - a.count⟩⟩

/-- Regroup to the right. -/
def regroupRight (a b c : Size) : Except LabelError Raw := do
  let left ← a.sum b
  return identity (← left.sum c)

/-- Regroup to the left. -/
def regroupLeft (a b c : Size) : Except LabelError Raw := do
  let right ← b.sum c
  return identity (← a.sum right)

/-- First `table`, then `next`: look each image of the first up in the second. -/
def andThen (table next : Raw) : Unguarded LabelError Raw := do
  let domain ← trusting next.domain
  if table.codomain = domain then
    trusting do
      let images ← table.images.mapM next.apply
      return ⟨next.codomain, images⟩
  else
    ordinary (.error (.sizeMismatch table.codomain domain))

/-- Act on both summands of a sum. The sizes are added, and no image is looked at. -/
def sum (table other : Raw) : Unguarded LabelError Raw := do
  let codomain ← ordinary (table.codomain.sum other.codomain)
  let left ← trusting table.domain
  let right ← trusting other.domain
  let _ ← ordinary (left.sum right)
  return ⟨codomain, table.images ++ other.images.map (·.shift table.codomain.count)⟩

/-- Exchange the middle summands of two sums. -/
def interchange (a b c d : Size) : Unguarded LabelError Raw := do
  let regrouped ← ordinary (regroupRight a b (← ordinary (c.sum d)))
  let paired ← regrouped.andThen (← (identity a).sum (← ordinary (regroupLeft b c d)))
  let swapped ← paired.andThen (← (identity a).sum (← (← ordinary (swap b c)).sum (identity d)))
  let unpaired ← swapped.andThen (← (identity a).sum (← ordinary (regroupRight c b d)))
  unpaired.andThen (← ordinary (regroupLeft a c (← ordinary (b.sum d))))

end Renaming.Raw

namespace Renaming

section Lookup

variable (table : Renaming)

@[simp] theorem codomain_raw : table.raw.codomain = table.codomain := rfl

@[simp] theorem images_raw : table.raw.images = table.images := rfl

/-- The table of a renaming can be counted. -/
@[simp] theorem domain_raw : table.raw.domain = .ok table.domain := by
  have counted : Size.ofNat? table.images.size = some table.domain :=
    Size.ofNat?_eq_some_iff.mpr rfl
  rw [Raw.domain, images_raw, counted]

variable {table} {label : Label}

/-- Every label of the domain has its place in the table. -/
theorem apply_raw_of_within (inside : label.Within table.domain) :
    table.raw.apply label = .ok (table.image label) := by
  have found : table.images[label.index]? = some (table.image label) := by
    rw [image_eq_getElem table inside]
    exact Array.getElem?_eq_getElem inside
  rw [Raw.apply, images_raw, found]

/-- No other label has one. -/
theorem apply_raw_of_not_within (outside : ¬ label.Within table.domain) :
    table.raw.apply label = .error (.outsideDomain ⟨label, table.domain⟩) := by
  have missing : table.images[label.index]? = none :=
    Array.getElem?_eq_none (Nat.not_lt.mp outside)
  rw [Raw.apply, images_raw, missing, domain_raw]
  rfl

/-- A label that has been checked is found. -/
theorem lookup_raw_of_within (inside : label.Within table.domain) :
    table.raw.lookup label = ordinary (.ok (table.image label)) := by
  rw [Raw.lookup, domain_raw, trusting_ok_bind, Label.check_of_within inside, ordinary_ok_bind,
    apply_raw_of_within inside]
  rfl

/-- A label outside the domain is refused by the check. -/
theorem lookup_raw_of_not_within (outside : ¬ label.Within table.domain) :
    table.raw.lookup label = ordinary (.error (.outOfRange label table.domain)) := by
  rw [Raw.lookup, domain_raw, trusting_ok_bind, Label.check_of_not_within outside]
  rfl

end Lookup

section OfFunction

variable {m : Type → Type} [Monad m] [LawfulMonad m]

/-- From any table on, the same images are asked for, checked and stored. -/
theorem fillM_raw (f : Label → m Label) (missing : Nat) (table : Renaming)
    (room : table.images.size + missing < Size.limit) :
    Except.map (Raw.mk table.codomain) <$> Raw.fillM table.codomain f missing table.images =
      Except.map raw <$> extendM f missing table room := by
  induction missing generalizing table with
  | zero => simp only [Raw.fillM, extendM, map_pure, Except.map, raw]
  | succ missing inductionHypothesis =>
    simp only [Raw.fillM, extendM, map_bind]
    refine congrArg _ (funext fun image => ?_)
    by_cases within : image.Within table.codomain
    · simp only [Label.check_of_within within, dif_pos within]
      exact inductionHypothesis (table.push image within (by omega)) _
    · simp only [Label.check_of_not_within within, dif_neg within, map_pure, Except.map]

theorem ofFnM_raw (domain codomain : Size) (f : Label → m Label) :
    Raw.ofFnM domain codomain f = Except.map raw <$> ofFnM domain codomain f := by
  rw [ofFnM, ← fillM_raw, Raw.ofFnM, map_eq_pure_bind]
  rfl

end OfFunction

section OfArray

variable {codomain : Size} {images : Array Label}

/-- Reading a table goes through its remaining places in order, up to the first image outside the
codomain. Each place is there when it is read. -/
theorem fillM_apply {missing : Nat} {read : Array Label} (left : read.size + missing = images.size)
    (same : read.toList = images.toList.take read.size) :
    Raw.fillM codomain (Raw.mk codomain images).apply missing read =
      .ok (match (images.toList.drop read.size).find? fun image => ¬ image.Within codomain with
        | some image => .error (.outOfRange image codomain)
        | none => .ok images) := by
  induction missing generalizing read with
  | zero =>
    have whole : read = images := by
      refine Array.toList_inj.mp (same.trans ?_)
      rw [List.take_of_length_le (by simp only [Array.length_toList]; omega)]
    have rest : images.toList.drop read.size = [] :=
      List.drop_eq_nil_of_le (by simp only [Array.length_toList]; omega)
    rw [rest, whole]
    rfl
  | succ missing inductionHypothesis =>
    have placed : read.size < images.size := by omega
    have found : (Raw.mk codomain images).apply ⟨read.size⟩ = .ok images[read.size] := by
      rw [Raw.apply, Array.getElem?_eq_getElem placed]
    have rest : images.toList.drop read.size =
        images[read.size] :: images.toList.drop (read.size + 1) :=
      List.drop_eq_getElem_cons (by simpa using placed)
    rw [Raw.fillM, found, rest]
    simp only [bind, Except.bind]
    by_cases within : images[read.size].Within codomain
    · have pushed : (read.push images[read.size]).toList =
          images.toList.take (read.push images[read.size]).size := by
        rw [Array.toList_push, same, Array.size_push,
          List.take_succ_eq_append_getElem (by simpa using placed), Array.getElem_toList]
      rw [Label.check_of_within within, List.find?_cons_of_neg (by simpa using within)]
      have continued := inductionHypothesis (by rw [Array.size_push]; omega) pushed
      rwa [Array.size_push] at continued
    · rw [Label.check_of_not_within within, List.find?_cons_of_pos (by simpa using within)]
      rfl

/-- A renaming with a given table is that table, unless it has an image outside the codomain. -/
theorem map_raw_ofArray (fits : images.size < Size.limit) :
    (ofArray codomain images).map raw =
      match images.find? fun image => ¬ image.Within codomain with
      | some image => .error (.outOfRange image codomain)
      | none => .ok ⟨codomain, images⟩ := by
  rw [ofArray, dif_pos fits]
  split
  · rename_i image found
    simp only [found, Except.map]
  · rename_i found
    simp only [found, Except.map, raw]

end OfArray

theorem agrees_ofArray (codomain : Size) (images : Array Label) :
    Agrees (Raw.ofArray codomain images) raw (ofArray codomain images) := by
  unfold Raw.ofArray
  split
  · rename_i domain counted
    have count := Size.ofNat?_eq_some_iff.mp counted
    have read : Raw.fillM codomain (Raw.mk codomain images).apply domain.count #[] =
        .ok (match images.toList.find? fun image => ¬ image.Within codomain with
          | some image => .error (.outOfRange image codomain)
          | none => .ok images) := fillM_apply (by simp [count]) rfl
    rw [Agrees, map_raw_ofArray (count ▸ domain.fits), Raw.ofFnM, read, Array.find?_toList]
    cases images.find? fun image => ¬ image.Within codomain with
    | some image => rfl
    | none => rfl
  · rename_i uncounted
    have refused : ofArray codomain images = .error .overflow :=
      dif_neg (Nat.not_lt.mpr (Size.ofNat?_eq_none_iff.mp uncounted))
    rw [refused]
    exact agrees_error raw _

theorem raw_identity (size : Size) : (identity size).raw = Raw.identity size := by
  have images : (identity size).images = (Array.range size.count).map Label.mk :=
    Array.ext (by simp [identity]) fun index _ _ => by simp [identity]
  rw [raw, images]
  rfl

theorem agrees_swap (a b : Size) : Agrees (ordinary (Raw.swap a b)) raw (swap a b) := by
  refine congrArg ordinary ?_
  cases made : swap a b with
  | ok table =>
    obtain ⟨codomain, images⟩ := swap_eq_ok_iff.mp made
    have total : a.sum b = .ok table.codomain := Size.sum_eq_ok_iff.mpr codomain
    have places : table.images = (Array.range table.codomain.count).map fun index =>
        ⟨if index < a.count then b.count + index else index - a.count⟩ := by
      rw [images, codomain]
      exact Array.ext (by simp) fun index _ _ => by simp
    rw [Raw.swap, total, Except.map, raw, places]
    rfl
  | error error =>
    rw [Raw.swap, Size.sum_eq_error_iff.mpr (swap_eq_error_iff.mp made)]
    rfl

theorem agrees_regroupRight (a b c : Size) :
    Agrees (ordinary (Raw.regroupRight a b c)) raw (regroupRight a b c) := by
  rw [Raw.regroupRight, regroupRight]
  cases a.sum b with
  | error error => rfl
  | ok left =>
    rw [ok_bind, ok_bind]
    cases left.sum c with
    | error error => rfl
    | ok total => exact congrArg ordinary (congrArg Except.ok (raw_identity total).symm)

theorem agrees_regroupLeft (a b c : Size) :
    Agrees (ordinary (Raw.regroupLeft a b c)) raw (regroupLeft a b c) := by
  rw [Raw.regroupLeft, regroupLeft]
  cases b.sum c with
  | error error => rfl
  | ok right =>
    rw [ok_bind, ok_bind]
    cases a.sum right with
    | error error => rfl
    | ok total => exact congrArg ordinary (congrArg Except.ok (raw_identity total).symm)

/-- Composing finds every image that it looks up, as soon as the sizes have been compared. -/
theorem agrees_andThen (table next : Renaming) :
    Agrees (table.raw.andThen next.raw) raw (table.andThen next) := by
  unfold Raw.andThen andThen
  rw [domain_raw, trusting_ok_bind]
  refine agrees_dite (fun agree => ?_) fun _ => agrees_error raw _
  refine agrees_trusting ?_
  have traversed : table.images.mapM next.raw.apply = .ok (table.images.map next.image) := by
    refine mapM_array_eq_ok (by simp) fun index inside placed => ?_
    rw [Array.getElem_map]
    exact apply_raw_of_within (agree ▸ table.images_within _ (Array.getElem_mem inside))
  rw [images_raw, traversed]
  rfl

theorem agrees_sum (table other : Renaming) :
    Agrees (table.raw.sum other.raw) raw (table.sum other) := by
  rw [Raw.sum, codomain_raw, codomain_raw, domain_raw, domain_raw]
  cases made : table.sum other with
  | ok total =>
    have codomain := Size.sum_eq_ok_iff.mpr (count_codomain_sum made)
    have domain := Size.sum_eq_ok_iff.mpr (count_domain_sum made)
    rw [codomain, ordinary_ok_bind, trusting_ok_bind, trusting_ok_bind, domain, ordinary_ok_bind,
      images_raw, images_raw, ← (sum_eq_ok_iff.mp made).2]
    rfl
  | error error =>
    obtain ⟨wide, rfl⟩ := sum_eq_error_iff.mp made
    cases found : table.codomain.sum other.codomain with
    | error error =>
      obtain ⟨-, rfl⟩ := Size.sum_eq_error_iff.mp found
      rfl
    | ok codomain =>
      have narrow := Size.sum_eq_ok_iff.mp found ▸ codomain.fits
      have refused : table.domain.sum other.domain = .error .overflow :=
        Size.sum_eq_error_iff.mpr ⟨by omega, rfl⟩
      rw [ordinary_ok_bind, trusting_ok_bind, trusting_ok_bind, refused]
      rfl

theorem agrees_interchange (a b c d : Size) :
    Agrees (Raw.interchange a b c d) raw (interchange a b c d) := by
  unfold Raw.interchange interchange
  rw [← raw_identity, ← raw_identity]
  refine (Unguarded.agrees_ordinary _).bind fun right => ?_
  refine (agrees_regroupRight a b right).bind fun regrouped => ?_
  refine (agrees_regroupLeft b c d).bind fun regroup => ?_
  refine (agrees_sum (identity a) regroup).bind fun pairing => ?_
  refine (agrees_andThen regrouped pairing).bind fun paired => ?_
  refine (agrees_swap b c).bind fun exchange => ?_
  refine (agrees_sum exchange (identity d)).bind fun tail => ?_
  refine (agrees_sum (identity a) tail).bind fun swapping => ?_
  refine (agrees_andThen paired swapping).bind fun swapped => ?_
  refine (agrees_regroupRight c b d).bind fun regroup => ?_
  refine (agrees_sum (identity a) regroup).bind fun unpairing => ?_
  refine (agrees_andThen swapped unpairing).bind fun unpaired => ?_
  refine (Unguarded.agrees_ordinary _).bind fun right => ?_
  refine (agrees_regroupLeft a c right).bind fun regroup => ?_
  exact agrees_andThen unpaired regroup

end Renaming

end Flowgraph
