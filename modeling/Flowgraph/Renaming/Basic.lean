import Flowgraph.Label.Sum

/-!
# Renamings

A renaming is a total function from one label space to another, held as the table of its images.
The table is authoritative, and it is checked when the renaming is made: a renaming that exists
sends every label of its domain into its codomain. `Renaming.image` is the function itself;
`Renaming.apply` and `Renaming.lookup` are the two ways to ask for it that notice a label from
outside the domain.
-/

namespace Flowgraph

/-- A total function from the label space of size `images.size` to that of size `codomain`. -/
structure Renaming where
  codomain : Size
  images : Array Label
  domain_fits : images.size < Size.limit
  images_within : ∀ image ∈ images, image.Within codomain
  deriving DecidableEq

/-- A label from outside its domain was put to a renaming. No renaming says anything about such a
label, so this is a mistake of the caller. -/
structure OutsideDomain where
  label : Label
  domain : Size
  deriving DecidableEq, Repr

/-- What a label outside the domain is reported as. -/
def OutsideDomain.message (outside : OutsideDomain) : String :=
  s!"label {outside.label.index} applied to a renaming with domain of size {outside.domain}"

namespace Renaming

/-- Renamings are equal as soon as codomain and table are; the bounds carry no identity. -/
@[ext] theorem ext {left right : Renaming} (codomains : left.codomain = right.codomain)
    (tables : left.images = right.images) : left = right := by
  cases left
  cases right
  cases codomains
  cases tables
  rfl

/-- The size of the space that a renaming is defined on. -/
def domain (table : Renaming) : Size := ⟨table.images.size, table.domain_fits⟩

@[simp] theorem count_domain (table : Renaming) :
    table.domain.count = table.images.size := rfl

/-- The image of a label. Labels outside the domain are left alone, which makes this a function on
all labels; only on the domain does it mean anything. -/
def image (table : Renaming) (label : Label) : Label :=
  if inside : label.index < table.images.size then table.images[label.index] else label

/-- The image of a label of the domain lies in the codomain. -/
theorem image_within (table : Renaming) {label : Label} (inside : label.Within table.domain) :
    (table.image label).Within table.codomain := by
  unfold image
  split
  · exact table.images_within _ (Array.getElem_mem _)
  · exact absurd inside ‹_›

/-- The image of a label of the domain; a label outside is reported as the caller's mistake. -/
def apply (table : Renaming) (label : Label) : Except OutsideDomain Label :=
  if label.Within table.domain then
    .ok (table.image label)
  else
    .error ⟨label, table.domain⟩

/-- The image of a label, after a check that it lies in the domain. -/
def lookup (table : Renaming) (label : Label) : Except LabelError Label := do
  let label ← label.check table.domain
  return table.image label

/-- The labels of the domain with their images, in domain order. -/
def pairs (table : Renaming) : List (Label × Label) :=
  table.images.toList.zipIdx.map fun (image, index) => (⟨index⟩, image)

/-- The renaming of the empty space into a given one. -/
def empty (codomain : Size) : Renaming where
  codomain := codomain
  images := #[]
  domain_fits := by decide
  images_within := by simp

/-- Extend the domain by one label, with a given image. -/
def push (table : Renaming) (image : Label) (within : image.Within table.codomain)
    (room : table.images.size + 1 < Size.limit) : Renaming where
  codomain := table.codomain
  images := table.images.push image
  domain_fits := by simpa using room
  images_within := by
    intro candidate member
    rcases Array.mem_push.mp member with earlier | rfl
    · exact table.images_within _ earlier
    · exact within

section OfFunction

variable {m : Type → Type} [Monad m]

/-- Extend the domain by `missing` labels, whose images come from `f` one after the other. The
first image outside the codomain ends the matter: `f` is not asked again. -/
def extendM (f : Label → m Label) : (missing : Nat) → (table : Renaming) →
    table.images.size + missing < Size.limit → m (Except LabelError Renaming)
  | 0, table, _ => pure (.ok table)
  | missing + 1, table, room => do
    let image ← f ⟨table.images.size⟩
    if within : image.Within table.codomain then
      extendM f missing (table.push image within (by omega))
        (by simp only [push, Array.size_push]; omega)
    else
      return .error (.outOfRange image table.codomain)

/-- The renaming that sends every label to the answer of `f`, which is asked for each label of the
domain in order and may have effects. -/
def ofFnM (domain codomain : Size) (f : Label → m Label) : m (Except LabelError Renaming) :=
  extendM f domain.count (empty codomain) (by simpa [empty] using domain.fits)

end OfFunction

/-- The renaming that sends every label of the domain to its value under `f`. -/
def ofFn (domain codomain : Size) (f : Label → Label) : Except LabelError Renaming :=
  Id.run (ofFnM domain codomain fun label => pure (f label))

/-- The renaming with a given table. The first image outside the codomain is reported. -/
def ofArray (codomain : Size) (images : Array Label) : Except LabelError Renaming :=
  if fits : images.size < Size.limit then
    match found : images.find? fun image => ¬ image.Within codomain with
    | some image => .error (.outOfRange image codomain)
    | none => .ok ⟨codomain, images, fits, by simpa using found⟩
  else
    .error .overflow

/-- The renaming that changes nothing. -/
def identity (size : Size) : Renaming where
  codomain := size
  images := Array.ofFn fun label : Fin size.count => ⟨label⟩
  domain_fits := by simpa using size.fits
  images_within := by
    intro image member
    obtain ⟨index, rfl⟩ := Array.mem_ofFn.mp member
    exact index.isLt

end Renaming

end Flowgraph
