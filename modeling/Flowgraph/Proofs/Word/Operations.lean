import Flowgraph.Fragment.Combine
import Flowgraph.Fragment.Printer
import Flowgraph.Fragment.Reachable
import Flowgraph.Fragment.Run

/-!
# The same operations in machine words

A size can be held by one machine word, but the library computes with labels and sizes as natural numbers,
whose sums never wrap around. In machine words they might, and `Size.sum` is the only operation that looks
whether its result fits. All others add and subtract without looking, and rely on what has been checked
before.

Here they are taken with the arithmetic of words. `Word.add` and `Word.sub` break down where a sum is too
large for a word, or a difference would be negative; breaking down is something else than to refuse with
an error. Renamings are taken as their two parts, and a run looks its blocks up by their labels alone, so
that nothing is left of the proofs by which the arithmetic is known to be sound.
-/

namespace Flowgraph

/-- What can go wrong where nothing is checked. -/
inductive Breakdown where
  /-- A sum is too large for a machine word. -/
  | sum (left right : Nat)
  /-- A difference is negative. -/
  | difference (whole part : Nat)
  /-- There is no block at a label that is run. -/
  | missingBlock (label : Label)
  deriving DecidableEq, Repr

variable {Inst Cond State Fault : Type}

/-- What a renaming consists of: the size of its codomain, and its table. -/
def Renaming.parts (table : Renaming) : Size × Array Label := (table.codomain, table.images)

namespace Word

/-- The sum of two words, if a word can hold it. -/
def add (left right : Nat) : Except Breakdown Nat :=
  if left + right < Size.limit then .ok (left + right) else .error (.sum left right)

/-- The difference of two words, if a word can hold it. -/
def sub (whole part : Nat) : Except Breakdown Nat :=
  if part ≤ whole then .ok (whole - part) else .error (.difference whole part)

/-- The label `offset` places further on. -/
def forward (label : Label) (offset : Nat) : Except Breakdown Label := do
  return ⟨← add offset label.index⟩

/-- The label `offset` places further back. -/
def back (label : Label) (offset : Nat) : Except Breakdown Label := do
  return ⟨← sub label.index offset⟩

/-- Find the summand that a label of a sum belongs to, and its index there. -/
def split (label : Label) (left right : Size) :
    Except Breakdown (Except LabelError (Label ⊕ Label)) :=
  match left.sum right >>= label.check with
  | .error error => return .error error
  | .ok label =>
    if label.Within left then
      return .ok (.inl label)
    else
      return .ok (.inr (← back label left.count))

/-- Place a label of the right summand in the sum. -/
def inr (label : Label) (left right : Size) : Except Breakdown (Except LabelError Label) :=
  match left.sum right >>= fun _ => label.check right with
  | .error error => return .error error
  | .ok label => return .ok (← forward label left.count)

/-- Exchange two summands. -/
def swap (a b : Size) : Except Breakdown (Except LabelError (Size × Array Label)) :=
  match a.sum b with
  | .error error => return .error error
  | .ok total => do
    let images ← (Array.range total.count).mapM fun index =>
      if index < a.count then forward ⟨index⟩ b.count else back ⟨index⟩ a.count
    return .ok (total, images)

/-- Put two renamings side by side. -/
def sum (table other : Renaming) : Except Breakdown (Except LabelError (Size × Array Label)) :=
  match table.codomain.sum other.codomain with
  | .error error => return .error error
  | .ok codomain =>
    match table.domain.sum other.domain with
    | .error error => return .error error
    | .ok _ => do
      let moved ← other.images.mapM (forward · table.codomain.count)
      return .ok (codomain, table.images ++ moved)

/-- Where an entry of the interface lies in the code. -/
def codeLabel (fragment : Fragment Inst Cond) (entry : Label) :
    Except Breakdown (Except FragmentError Label) :=
  match entry.check fragment.inputs with
  | .error error => return .error (.label error)
  | .ok entry => return .ok (← forward entry fragment.internal.count)

/-- The labels that control can reach from the interface, in ascending order. The search starts at the
labels from the hidden ones on, up to where the entries end. -/
def reachable (fragment : Fragment Inst Cond) : Except Breakdown (List Label) := do
  let behind ← add fragment.internal.count fragment.inputs.count
  let starts := (Label.range behind).drop fragment.internal.count
  let marks := fragment.explore starts (Array.replicate fragment.code.entries.count false)
  return (Label.range fragment.code.entries.count).filter fun label =>
    marks[label.index]? == some true

/-- The size that is left when `part` labels are taken out of `whole`. -/
def diff (whole part : Size) : Except Breakdown Size := do
  let _ ← sub whole.count part.count
  return whole.diff part

/-- Hide the first `linked` entries and exits: both sides of the code are regrouped, with what is left of
the interface at the end. -/
def link (fragment : Fragment Inst Cond) (linked : Size) :
    Except Breakdown (Except FragmentError (Fragment Inst Cond)) :=
  if linked.count ≤ fragment.inputs.count ∧ linked.count ≤ fragment.outputs.count then do
    let inputs ← diff fragment.inputs linked
    let outputs ← diff fragment.outputs linked
    return do
      let entries ← (Renaming.regroupRight fragment.internal linked inputs).mapError .label
      let exits ← (Renaming.regroupLeft fragment.internal linked outputs).mapError .label
      let code ← (fragment.code.relabel entries exits).mapError .blockMap
      let internal ← (fragment.internal.sum linked).mapError .label
      Fragment.ofCode internal inputs outputs code
  else
    return .error (.linkTooWide linked fragment.inputs fragment.outputs)

/-- Go on with a run at a label, after the blocks in `visited`. -/
def runFrom (fragment : Fragment Inst Cond) (machine : Machine Inst Cond State Fault) :
    (fuel : Nat) → (label : Label) → (visited : Array Label) → (state : State) →
    Except Breakdown (Run State Fault)
  | 0, _, visited, state => return ⟨.error (.outOfFuel visited.size), visited, state⟩
  | fuel + 1, label, visited, state =>
    let visited := visited.push label
    match fragment.code.get? label with
    | none => .error (.missingBlock label)
    | some block =>
      match (block.exec machine).run state with
      | .error fault state => return ⟨.error (.machine fault), visited, state⟩
      | .ok none state => return ⟨.ok .halt, visited, state⟩
      | .ok (some target) state =>
        if target.Within fragment.internal then
          runFrom fragment machine fuel target visited state
        else do
          let exit ← back target fragment.internal.count
          return ⟨.ok (.label exit), visited, state⟩

/-- Run a fragment from an entry of its interface, for at most `fuel` blocks. -/
def run (fragment : Fragment Inst Cond) (machine : Machine Inst Cond State Fault) (entry : Label)
    (fuel : Nat) (state : State) : Except Breakdown (Run State Fault) := do
  match ← codeLabel fragment entry with
  | .error error => return ⟨.error (.badEntry error), #[], state⟩
  | .ok label => runFrom fragment machine fuel label #[] state

/-- The place of a label, if `visible` makes the places of those that are not hidden. -/
def place (fragment : Fragment Inst Cond) (visible : Nat → Place) (label : Label) :
    Except Breakdown Place :=
  if label.Within fragment.internal then
    return .hidden label.index
  else do
    let outside ← sub label.index fragment.internal.count
    return visible outside

/-- The line of a fragment's text for one of its blocks. -/
def blockLine (spelling : Spelling Inst Cond) (fragment : Fragment Inst Cond) (label : Label)
    (block : Block Inst Cond Label) : Except Breakdown String := do
  let places ← block.mapLabelsM (place fragment .exit)
  let entry ← place fragment .entry label
  return s!"  {entry.text}: {places.render spelling Place.text}"

/-- The lines of a fragment's text. -/
def lines (spelling : Spelling Inst Cond) (fragment : Fragment Inst Cond) :
    Except Breakdown (List String) := do
  let blocks ← fragment.code.blocks.toList.zipIdx.mapM fun entry =>
    blockLine spelling fragment ⟨entry.2⟩ entry.1
  return fragment.header :: blocks ++ ["\x7d"]

end Word

end Flowgraph
