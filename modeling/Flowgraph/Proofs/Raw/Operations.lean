import Flowgraph.Error
import Flowgraph.Fragment.Combine
import Flowgraph.Fragment.Run

/-!
# The same operations on data without proofs

Block maps and fragments carry the proof of their own bounds, so that a lookup in them cannot miss.
Here they are taken without these proofs, as bare sizes and tables. Every lookup asks the table, and
every table that is put together is trusted to be in order; where such a trust is misplaced, the
operation breaks down with a `Breach`, which is something else than to refuse with an error.

Nothing here decides anything for the library. The operations are the measure of what its proofs are
worth: agreement with them says that no check has been lost on the way.
-/

namespace Flowgraph

/-- A trust that was misplaced: what a lookup or an assertion takes for granted does not hold. -/
inductive Breach where
  /-- There is no block at the label. -/
  | missingBlock (label : Label)
  /-- A renaming was applied outside of its domain. -/
  | outsideDomain (outside : OutsideDomain)
  /-- A table that was taken as it is branches out of its exit space. -/
  | danglingTarget (entry target : Label) (exits : Size)
  /-- A table has more blocks than a size can count. -/
  | uncountable (blocks : Nat)
  deriving DecidableEq, Repr

/-- A computation on data without proofs: it can break down, and if it does not, it returns a value
or refuses with an error. -/
abbrev Unguarded (E A : Type) : Type := ExceptT E (Except Breach) A

namespace Unguarded

variable {E A : Type}

/-- A step that cannot break down. -/
def ordinary (outcome : Except E A) : Unguarded E A := ExceptT.mk (.ok outcome)

/-- A step that cannot refuse. -/
def trusting (step : Except Breach A) : Unguarded E A := ExceptT.lift step

end Unguarded

open Unguarded

variable {Inst Cond State Fault : Type}

/-- A block map without its proofs. -/
structure BlockMap.Raw (Inst Cond : Type) where
  exits : Size
  blocks : Array (Block Inst Cond Label)
  deriving DecidableEq

/-- What is left of a block map when its proofs are forgotten. -/
def BlockMap.raw (code : BlockMap Inst Cond) : BlockMap.Raw Inst Cond := ⟨code.exits, code.blocks⟩

namespace BlockMap.Raw

/-- The size of the entry space. -/
def entries (code : Raw Inst Cond) : Except Breach Size :=
  match Size.ofNat? code.blocks.size with
  | some size => .ok size
  | none => .error (.uncountable code.blocks.size)

/-- The block at a label, which is trusted to be an entry. -/
def fetch (code : Raw Inst Cond) (entry : Label) : Except Breach (Block Inst Cond Label) :=
  match code.blocks[entry.index]? with
  | some block => .ok block
  | none => .error (.missingBlock entry)

/-- The block map with the given parts, which are trusted to fit together. -/
def ofParts (exits : Size) (blocks : Array (Block Inst Cond Label)) :
    Except Breach (Raw Inst Cond) :=
  match dangling exits blocks with
  | (entry, target) :: _ => .error (.danglingTarget entry target exits)
  | [] => .ok ⟨exits, blocks⟩

/-- The block map with the given blocks. The first branch out of the exit space is reported. -/
def ofBlocks (exits : Size) (blocks : Array (Block Inst Cond Label)) :
    Unguarded BlockMapError (Raw Inst Cond) :=
  match dangling exits blocks with
  | (entry, target) :: _ => ordinary (.error (.danglingTarget entry target exits))
  | [] =>
    if blocks.size < Size.limit then
      trusting (ofParts exits blocks)
    else
      ordinary (.error (.label .overflow))

/-- The block map whose block at each entry is the value of `f` there. -/
def ofFn (entries exits : Size) (f : Label → Block Inst Cond Label) :
    Unguarded BlockMapError (Raw Inst Cond) :=
  ofBlocks exits (Array.ofFn fun entry : Fin entries.count => f ⟨entry⟩)

/-- Reindex on both sides: look the block of each image of `f` up, and apply `g` to its targets. -/
def relabel (code : Raw Inst Cond) (f g : Renaming) : Unguarded BlockMapError (Raw Inst Cond) := do
  let entries ← trusting code.entries
  if f.codomain = entries then
    if g.domain = code.exits then
      trusting do
        let blocks ← f.images.mapM fun source => do
          let block ← code.fetch source
          block.mapLabelsM fun target => (g.apply target).mapError .outsideDomain
        ofParts g.codomain blocks
    else
      ordinary (.error (.sizeMismatch "exit renaming" code.exits g.domain))
  else
    ordinary (.error (.sizeMismatch "entry renaming" entries f.codomain))

/-- Blocks with their targets placed elsewhere, unless there is a target without a place. -/
def placeTargets (place : Label → Except LabelError Label)
    (blocks : Array (Block Inst Cond Label)) :
    Except BlockMapError (Array (Block Inst Cond Label)) :=
  (blocks.mapM (Block.mapLabelsM place)).mapError .label

/-- Place two block maps side by side. Each target is checked as it is placed in the sum. -/
def append (code other : Raw Inst Cond) : Unguarded BlockMapError (Raw Inst Cond) := do
  let exits ← ordinary ((code.exits.sum other.exits).mapError .label)
  let left ← trusting code.entries
  let right ← trusting other.entries
  let _ ← ordinary ((left.sum right).mapError .label)
  let first ← ordinary (placeTargets (·.inl code.exits other.exits) code.blocks)
  let second ← ordinary (placeTargets (·.inr code.exits other.exits) other.blocks)
  trusting (ofParts exits (first ++ second))

end BlockMap.Raw

/-- A fragment without its proofs. -/
structure Fragment.Raw (Inst Cond : Type) where
  internal : Size
  inputs : Size
  outputs : Size
  code : BlockMap.Raw Inst Cond
  deriving DecidableEq

/-- What is left of a fragment when its proofs are forgotten. -/
def Fragment.raw (fragment : Fragment Inst Cond) : Fragment.Raw Inst Cond :=
  ⟨fragment.internal, fragment.inputs, fragment.outputs, fragment.code.raw⟩

namespace Fragment.Raw

/-- The fragment with the given code and interface, whose sizes are compared. -/
def ofCode (internal inputs outputs : Size) (code : BlockMap.Raw Inst Cond) :
    Unguarded FragmentError (Raw Inst Cond) := do
  let entries ← ordinary ((internal.sum inputs).mapError .label)
  let found ← trusting code.entries
  if found = entries then do
    let exits ← ordinary ((internal.sum outputs).mapError .label)
    if code.exits = exits then
      return ⟨internal, inputs, outputs, code⟩
    else
      ordinary (.error (.sizeMismatch "exit space" exits code.exits))
  else
    ordinary (.error (.sizeMismatch "entry space" entries found))

/-- A block map as a fragment without hidden labels. -/
def ofBlockMap (code : BlockMap.Raw Inst Cond) : Except Breach (Raw Inst Cond) := do
  let entries ← code.entries
  return ⟨.zero, entries, code.exits, code⟩

/-- A single block as a fragment with one entry. -/
def ofBlock (block : Block Inst Cond Label) (outputs : Size) :
    Unguarded FragmentError (Raw Inst Cond) := do
  let code ← (BlockMap.Raw.ofBlocks outputs #[block]).adapt .blockMap
  trusting (ofBlockMap code)

/-- A renaming as a fragment. The images are trusted to be exits. -/
def ofRenaming (table : Renaming) : Except Breach (Raw Inst Cond) := do
  let code ← BlockMap.Raw.ofParts table.codomain (table.images.map Block.jump)
  ofBlockMap code

/-- The fragment that passes each entry on to the exit with the same label. -/
def identity (size : Size) : Except Breach (Raw Inst Cond) := ofRenaming (.identity size)

/-- The fragment that exchanges two groups of labels. -/
def swap (a b : Size) : Unguarded FragmentError (Raw Inst Cond) := do
  let table ← ordinary ((Renaming.swap a b).mapError .label)
  trusting (ofRenaming table)

/-- Place two fragments side by side. -/
def append (fragment other : Raw Inst Cond) : Unguarded FragmentError (Raw Inst Cond) := do
  let entries ← ordinary ((Renaming.interchange fragment.internal other.internal
    fragment.inputs other.inputs).mapError .label)
  let exits ← ordinary ((Renaming.interchange fragment.internal fragment.outputs
    other.internal other.outputs).mapError .label)
  let joined ← (fragment.code.append other.code).adapt .blockMap
  let code ← (joined.relabel entries exits).adapt .blockMap
  let internal ← ordinary ((fragment.internal.sum other.internal).mapError .label)
  let inputs ← ordinary ((fragment.inputs.sum other.inputs).mapError .label)
  let outputs ← ordinary ((fragment.outputs.sum other.outputs).mapError .label)
  ofCode internal inputs outputs code

/-- Rename the interface. -/
def relabel (fragment : Raw Inst Cond) (f g : Renaming) :
    Unguarded FragmentError (Raw Inst Cond) :=
  if f.codomain ≠ fragment.inputs then
    ordinary (.error (.sizeMismatch "input renaming" fragment.inputs f.codomain))
  else if g.domain ≠ fragment.outputs then
    ordinary (.error (.sizeMismatch "output renaming" fragment.outputs g.domain))
  else do
    let hidden := Renaming.identity fragment.internal
    let entries ← ordinary ((hidden.sum f).mapError .label)
    let exits ← ordinary ((hidden.sum g).mapError .label)
    let code ← (fragment.code.relabel entries exits).adapt .blockMap
    ofCode fragment.internal f.domain g.codomain code

/-- Hide the first `linked` entries and exits: both sides are regrouped, the code is reindexed by
that, and the sizes are compared again. -/
def link (fragment : Raw Inst Cond) (linked : Size) : Unguarded FragmentError (Raw Inst Cond) :=
  if linked.count ≤ fragment.inputs.count ∧ linked.count ≤ fragment.outputs.count then do
    let inputs := fragment.inputs.diff linked
    let outputs := fragment.outputs.diff linked
    let entries ← ordinary ((Renaming.regroupRight fragment.internal linked inputs).mapError .label)
    let exits ← ordinary ((Renaming.regroupLeft fragment.internal linked outputs).mapError .label)
    let code ← (fragment.code.relabel entries exits).adapt .blockMap
    let internal ← ordinary ((fragment.internal.sum linked).mapError .label)
    ofCode internal inputs outputs code
  else
    ordinary (.error (.linkTooWide linked fragment.inputs fragment.outputs))

/-- First `fragment`, then `next`. -/
def seq (fragment next : Raw Inst Cond) : Unguarded FragmentError (Raw Inst Cond) :=
  if fragment.outputs ≠ next.inputs then
    ordinary (.error (.sizeMismatch "sequenced interface" fragment.outputs next.inputs))
  else do
    let joined ← fragment.append next
    let entries ← ordinary ((Renaming.swap next.inputs fragment.inputs).mapError .label)
    let turned ← joined.relabel entries (.identity joined.outputs)
    turned.link next.inputs

/-- Finish a draft. -/
def ofDraft (draft : Draft Inst Cond) : Unguarded DraftError (Raw Inst Cond) := do
  let blocks ← ordinary ((draft.hidden ++ draft.entries).mapM draft.resolveBlock)
  let internal ← ordinary (Draft.fittingSize draft.hidden.length)
  let inputs ← ordinary (Draft.fittingSize draft.entries.length)
  let outputs ← ordinary (Draft.fittingSize draft.exits.length)
  let exits ← ordinary (Draft.fittingSize (draft.hidden.length + draft.exits.length))
  let code ← (BlockMap.Raw.ofBlocks exits blocks.toArray).adapt .blockMap
  (ofCode internal inputs outputs code).adapt .fragment

/-- Where an entry of the interface lies in the code. -/
def codeLabel (fragment : Raw Inst Cond) (entry : Label) : Except FragmentError Label := do
  let entry ← (entry.check fragment.inputs).mapError .label
  return entry.shift fragment.internal.count

/-- The block behind an entry of the interface. After the check of the entry it is still asked
whether there is a block, and that there is none has an error of its own. -/
def entryBlock (fragment : Raw Inst Cond) (entry : Label) :
    Unguarded FragmentError (Block Inst Cond Label) := do
  let label ← ordinary (fragment.codeLabel entry)
  match fragment.code.blocks[label.index]? with
  | some block => return block
  | none => do
    let entries ← trusting fragment.code.entries
    ordinary (.error (.label (.outOfRange label entries)))

/-- Go on with a run at a label of the code, after the blocks in `visited`. -/
def runFrom (fragment : Raw Inst Cond) (machine : Machine Inst Cond State Fault) :
    (fuel : Nat) → (label : Label) → (visited : Array Label) → (state : State) →
    Except Breach (Run State Fault)
  | 0, _, visited, state => return ⟨.error (.outOfFuel visited.size), visited, state⟩
  | fuel + 1, label, visited, state => do
    let visited := visited.push label
    let block ← fragment.code.fetch label
    match (block.exec machine).run state with
    | .error fault state => return ⟨.error (.machine fault), visited, state⟩
    | .ok none state => return ⟨.ok .halt, visited, state⟩
    | .ok (some target) state =>
      if target.Within fragment.internal then
        fragment.runFrom machine fuel target visited state
      else
        return ⟨.ok (.label ⟨target.index - fragment.internal.count⟩), visited, state⟩

/-- Run a fragment from an entry of its interface, for at most `fuel` blocks. -/
def run (fragment : Raw Inst Cond) (machine : Machine Inst Cond State Fault) (entry : Label)
    (fuel : Nat) (state : State) : Except Breach (Run State Fault) :=
  match fragment.codeLabel entry with
  | .error error => return ⟨.error (.badEntry error), #[], state⟩
  | .ok label => fragment.runFrom machine fuel label #[] state

end Fragment.Raw

end Flowgraph
