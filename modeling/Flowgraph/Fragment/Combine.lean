import Flowgraph.Fragment.Basic

/-!
# Combining fragments

Fragments are placed side by side, renamed at their interface, linked to themselves and put in
sequence. `Fragment.append` and `Fragment.relabel` reindex the code of their operands, and the
renamings that they use come from the calculus of renamings. `Fragment.link` moves the border
between hidden and visible labels and touches no block: in the flat layout, the labels that it
hides lie next to those that were hidden before. `Fragment.seq` is made of the other three.
-/

namespace Flowgraph.Fragment

variable {Inst Cond : Type}

/-- Place two fragments side by side. The hidden labels of `fragment` come first, then those of
`other`, and likewise for entries and exits; neither operand can reach a label of the other. -/
def append (fragment other : Fragment Inst Cond) : Except FragmentError (Fragment Inst Cond) := do
  let entries ← (Renaming.interchange fragment.internal other.internal
    fragment.inputs other.inputs).mapError .label
  let exits ← (Renaming.interchange fragment.internal fragment.outputs
    other.internal other.outputs).mapError .label
  let joined ← (fragment.code.append other.code).mapError .blockMap
  let code ← (joined.relabel entries exits).mapError .blockMap
  let internal ← (fragment.internal.sum other.internal).mapError .label
  let inputs ← (fragment.inputs.sum other.inputs).mapError .label
  let outputs ← (fragment.outputs.sum other.outputs).mapError .label
  ofCode internal inputs outputs code

/-- Rename the interface: the new entry `a` behaves like the old entry `f a`, and control that left
through the old exit `c` leaves through `g c`. Hidden labels stay as they are. -/
def relabel (fragment : Fragment Inst Cond) (f g : Renaming) :
    Except FragmentError (Fragment Inst Cond) :=
  if f.codomain ≠ fragment.inputs then
    .error (.sizeMismatch "input renaming" fragment.inputs f.codomain)
  else if g.domain ≠ fragment.outputs then
    .error (.sizeMismatch "output renaming" fragment.outputs g.domain)
  else do
    let hidden := Renaming.identity fragment.internal
    let entries ← (hidden.sum f).mapError .label
    let exits ← (hidden.sum g).mapError .label
    let code ← (fragment.code.relabel entries exits).mapError .blockMap
    ofCode fragment.internal f.domain g.codomain code

/-- Hide the first `linked` entries and exits. Control that left through one of these exits goes
on at the entry with the same label, which is how loops are made. -/
def link (fragment : Fragment Inst Cond) (linked : Size) :
    Except FragmentError (Fragment Inst Cond) :=
  if fitting : linked.count ≤ fragment.inputs.count ∧ linked.count ≤ fragment.outputs.count then
    .ok {
      internal := ⟨fragment.internal.count + linked.count, by
        have := fragment.entries_eq
        have := fragment.code.entries.fits
        omega⟩
      inputs := fragment.inputs.diff linked
      outputs := fragment.outputs.diff linked
      code := fragment.code
      entries_eq := by
        have := fragment.entries_eq
        simp only [Size.count_diff]
        omega
      exits_eq := by
        have := fragment.exits_eq
        simp only [Size.count_diff]
        omega }
  else
    .error (.linkTooWide linked fragment.inputs fragment.outputs)

/-- First `fragment`, then `next`: each exit of the first feeds the entry of the second with the
same label. The two are placed side by side, the entries of `next` are brought to the front, and
then they are linked away. -/
def seq (fragment next : Fragment Inst Cond) : Except FragmentError (Fragment Inst Cond) :=
  if fragment.outputs ≠ next.inputs then
    .error (.sizeMismatch "sequenced interface" fragment.outputs next.inputs)
  else do
    let joined ← fragment.append next
    let entries ← (Renaming.swap next.inputs fragment.inputs).mapError .label
    let turned ← joined.relabel entries (.identity joined.outputs)
    turned.link next.inputs

end Flowgraph.Fragment
