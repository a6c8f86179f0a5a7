import Flowgraph.BlockMap.Basic

/-!
# Fragments of control flow graphs

A fragment is a block map whose label spaces are split into a hidden and a visible part. Its entry
space is `internal + inputs` and its exit space is `internal + outputs`: the first `internal` labels
on either side are the fragment's own, and the others are its interface. Control that goes to a
hidden label stays inside, and control that goes to any other label leaves through an exit.
-/

namespace Flowgraph

/-- A block map with an interface of `inputs` entries and `outputs` exits, and with `internal`
labels of its own. -/
structure Fragment (Inst Cond : Type) where
  internal : Size
  inputs : Size
  outputs : Size
  code : BlockMap Inst Cond
  entries_eq : code.entries.count = internal.count + inputs.count
  exits_eq : code.exits.count = internal.count + outputs.count
  deriving DecidableEq

/-- The ways in which fragments cannot be made or combined. -/
inductive FragmentError where
  /-- A label space does not have the size that the interface asks for. -/
  | sizeMismatch (what : String) (expected actual : Size)
  /-- More labels were to be hidden than the interface has. -/
  | linkTooWide (linked inputs outputs : Size)
  /-- The code could not be made or reindexed. -/
  | blockMap (error : BlockMapError)
  /-- Label arithmetic failed. -/
  | label (error : LabelError)
  deriving DecidableEq, Repr

namespace FragmentError

/-- What a failure is reported as. -/
def message : FragmentError → String
  | sizeMismatch what expected actual => s!"{what}: expected size {expected}, got {actual}"
  | linkTooWide linked inputs outputs =>
    s!"can't link {linked} labels of a unit with {inputs} inputs and {outputs} outputs"
  | blockMap error => s!"block map error: {error.message}"
  | label error => s!"label space error: {error.message}"

/-- The reports of the failures that led to this one, nearest first. -/
def causes : FragmentError → List String
  | blockMap error => error.message :: error.causes
  | label error => [error.message]
  | _ => []

end FragmentError

namespace Fragment

variable {Inst Cond : Type}

/-- Fragments are equal as soon as their interfaces and their code are. -/
@[ext] theorem ext {left right : Fragment Inst Cond} (internal : left.internal = right.internal)
    (inputs : left.inputs = right.inputs) (outputs : left.outputs = right.outputs)
    (code : left.code = right.code) : left = right := by
  cases left
  cases right
  cases internal
  cases inputs
  cases outputs
  cases code
  rfl

/-- The fragment with the given code and interface, whose sizes have to agree: first on the side of
the entries, then on the side of the exits. -/
def ofCode (internal inputs outputs : Size) (code : BlockMap Inst Cond) :
    Except FragmentError (Fragment Inst Cond) :=
  match entriesFound : internal.sum inputs with
  | .error error => .error (.label error)
  | .ok entries =>
    if entriesAgree : code.entries = entries then
      match exitsFound : internal.sum outputs with
      | .error error => .error (.label error)
      | .ok exits =>
        if exitsAgree : code.exits = exits then
          .ok {
            internal := internal
            inputs := inputs
            outputs := outputs
            code := code
            entries_eq := entriesAgree ▸ Size.sum_eq_ok_iff.mp entriesFound
            exits_eq := exitsAgree ▸ Size.sum_eq_ok_iff.mp exitsFound }
        else
          .error (.sizeMismatch "exit space" exits code.exits)
    else
      .error (.sizeMismatch "entry space" entries code.entries)

/-- A block map as a fragment without hidden labels. -/
def ofBlockMap (code : BlockMap Inst Cond) : Fragment Inst Cond where
  internal := .zero
  inputs := code.entries
  outputs := code.exits
  code := code
  entries_eq := by simp
  exits_eq := by simp

/-- A single block as a fragment with one entry. -/
def ofBlock (block : Block Inst Cond Label) (outputs : Size) :
    Except FragmentError (Fragment Inst Cond) := do
  let code ← (BlockMap.ofBlocks outputs #[block]).mapError .blockMap
  return ofBlockMap code

/-- A renaming as a fragment: each entry goes straight to the exit that is its image. -/
def ofRenaming (table : Renaming) : Fragment Inst Cond := ofBlockMap (.ofRenaming table)

/-- The fragment that passes each entry on to the exit with the same label. -/
def identity (size : Size) : Fragment Inst Cond := ofRenaming (.identity size)

@[simp] theorem internal_ofRenaming (table : Renaming) :
    (ofRenaming table : Fragment Inst Cond).internal = .zero := rfl

@[simp] theorem inputs_ofRenaming (table : Renaming) :
    (ofRenaming table : Fragment Inst Cond).inputs = table.domain := by
  simp [ofRenaming, ofBlockMap, BlockMap.ofRenaming, BlockMap.entries, Renaming.domain]

@[simp] theorem outputs_ofRenaming (table : Renaming) :
    (ofRenaming table : Fragment Inst Cond).outputs = table.codomain := rfl

/-- The fragment that exchanges two groups of labels. -/
def swap (a b : Size) : Except FragmentError (Fragment Inst Cond) := do
  let table ← (Renaming.swap a b).mapError .label
  return ofRenaming table

/-- A label at which the code of a fragment has a block. -/
abbrev CodeLabel (fragment : Fragment Inst Cond) : Type :=
  { label : Label // label.Within fragment.code.entries }

/-- A hidden label has a block. -/
theorem within_entries_of_hidden (fragment : Fragment Inst Cond) {label : Label}
    (hidden : label.Within fragment.internal) : label.Within fragment.code.entries := by
  have := fragment.entries_eq
  simp only [Label.Within] at hidden ⊢
  omega

/-- A label of the entry interface, placed behind the hidden labels, has a block. -/
theorem shift_within_entries (fragment : Fragment Inst Cond) {entry : Label}
    (inside : entry.Within fragment.inputs) :
    (entry.shift fragment.internal.count).Within fragment.code.entries := by
  have := fragment.entries_eq
  simp only [Label.Within, Label.index_shift] at inside ⊢
  omega

/-- Where an entry of the interface lies in the code. -/
def codeLabel (fragment : Fragment Inst Cond) (entry : Label) :
    Except FragmentError fragment.CodeLabel :=
  if inside : entry.Within fragment.inputs then
    .ok ⟨entry.shift fragment.internal.count, fragment.shift_within_entries inside⟩
  else
    .error (.label (.outOfRange entry fragment.inputs))

/-- The block that a label of the code stands for. -/
def blockAt (fragment : Fragment Inst Cond) (label : fragment.CodeLabel) :
    Block Inst Cond Label :=
  fragment.code.block label.val label.property

/-- The block behind an entry of the interface. -/
def entryBlock (fragment : Fragment Inst Cond) (entry : Label) :
    Except FragmentError (Block Inst Cond Label) := do
  let label ← fragment.codeLabel entry
  return fragment.blockAt label

end Fragment

end Flowgraph
