import Flowgraph.Fragment.Basic
import Flowgraph.Text.Quoted

/-!
# Drafts of fragments

A draft is a fragment in the making, whose labels have names instead of numbers. Names are declared
as hidden labels, entries or exits, and hidden labels and entries are then given their blocks. The
three kinds are numbered separately, each in the order of its declarations, and no name is declared
twice. An operation that fails makes no new draft, so the old one stands.
-/

namespace Flowgraph

/-- The ways in which a draft cannot be continued or finished. -/
inductive DraftError where
  /-- A name was declared twice. -/
  | duplicateLabel (name : String)
  /-- A name that is not declared in the right way was used. -/
  | unknownLabel (name : String)
  /-- A hidden label or an entry has no block. -/
  | missingBlock (name : String)
  /-- A hidden label or an entry was given a second block. -/
  | duplicateBlock (name : String)
  /-- The finished code is no block map. -/
  | blockMap (error : BlockMapError)
  /-- The finished code does not make a fragment. -/
  | fragment (error : FragmentError)
  deriving DecidableEq, Repr

namespace DraftError

/-- What a failure is reported as. -/
def message : DraftError → String
  | duplicateLabel name => s!"label {Text.quote name} is declared more than once"
  | unknownLabel name => s!"unknown label {Text.quote name}"
  | missingBlock name => s!"no block for label {Text.quote name}"
  | duplicateBlock name => s!"label {Text.quote name} already has a block"
  | blockMap error => s!"invalid block map: {error.message}"
  | fragment error => s!"invalid unit: {error.message}"

/-- The reports of the failures that led to this one, nearest first. -/
def causes : DraftError → List String
  | blockMap error => error.message :: error.causes
  | fragment error => error.message :: error.causes
  | _ => []

end DraftError

/-- A declared hidden label or entry, and its block if it has one by now. -/
structure Declaration (Inst Cond : Type) where
  name : String
  block? : Option (Block Inst Cond String)
  deriving DecidableEq, Repr

/-- Give a declared name its block, unless it has one already. -/
def Declaration.attach {Inst Cond : Type} (declaration : Declaration Inst Cond)
    (block : Block Inst Cond String) : Except DraftError (Declaration Inst Cond) :=
  match declaration.block? with
  | some _ => .error (.duplicateBlock declaration.name)
  | none => .ok { declaration with block? := some block }

/-- A fragment in the making: what is declared so far, each kind in the order of declaration. -/
structure Draft (Inst Cond : Type) where
  hidden : List (Declaration Inst Cond)
  entries : List (Declaration Inst Cond)
  exits : List String
  deriving DecidableEq, Repr

namespace Draft

variable {Inst Cond : Type}

/-- The draft in which nothing is declared. -/
def empty : Draft Inst Cond := ⟨[], [], []⟩

/-- The names of the hidden labels, in order. -/
def hiddenNames (draft : Draft Inst Cond) : List String := draft.hidden.map Declaration.name

/-- The names of the entries, in order. -/
def entryNames (draft : Draft Inst Cond) : List String := draft.entries.map Declaration.name

/-- Whether a name is declared, as whatever kind. -/
def Declares (draft : Draft Inst Cond) (name : String) : Prop :=
  name ∈ draft.hiddenNames ∨ name ∈ draft.entryNames ∨ name ∈ draft.exits

instance (draft : Draft Inst Cond) (name : String) : Decidable (draft.Declares name) :=
  inferInstanceAs (Decidable (_ ∨ _ ∨ _))

/-- Declare a hidden label. -/
def declareHidden (draft : Draft Inst Cond) (name : String) :
    Except DraftError (Draft Inst Cond) :=
  if draft.Declares name then
    .error (.duplicateLabel name)
  else
    .ok { draft with hidden := draft.hidden ++ [⟨name, none⟩] }

/-- Declare an entry. -/
def declareEntry (draft : Draft Inst Cond) (name : String) :
    Except DraftError (Draft Inst Cond) :=
  if draft.Declares name then
    .error (.duplicateLabel name)
  else
    .ok { draft with entries := draft.entries ++ [⟨name, none⟩] }

/-- Declare an exit. -/
def declareExit (draft : Draft Inst Cond) (name : String) :
    Except DraftError (Draft Inst Cond) :=
  if draft.Declares name then
    .error (.duplicateLabel name)
  else
    .ok { draft with exits := draft.exits ++ [name] }

/-- Give the declaration of a name in a list its block; the other declarations stay as they are. A
name that is not in the list is unknown. -/
def attachIn (name : String) (block : Block Inst Cond String) :
    List (Declaration Inst Cond) → Except DraftError (List (Declaration Inst Cond))
  | [] => .error (.unknownLabel name)
  | declaration :: rest =>
    if declaration.name = name then do
      let attached ← declaration.attach block
      return attached :: rest
    else do
      let attached ← attachIn name block rest
      return declaration :: attached

/-- Give a hidden label or an entry its block. -/
def attach (draft : Draft Inst Cond) (name : String) (block : Block Inst Cond String) :
    Except DraftError (Draft Inst Cond) :=
  if name ∈ draft.hiddenNames then do
    return { draft with hidden := ← attachIn name block draft.hidden }
  else do
    return { draft with entries := ← attachIn name block draft.entries }

end Draft

end Flowgraph
