/-!
# Classes of characters as code ranges

A class of characters is held as the ascending list of its maximal ranges of code points, each by
its first and its last member.
-/

namespace Flowgraph.Text

/-- Ranges of code points, each by its first and its last member. -/
abbrev CodeRanges : Type := Array (Nat × Nat)

/-- Whether a character lies in one of the ranges. -/
def CodeRanges.contains (ranges : CodeRanges) (char : Char) : Bool :=
  ranges.any fun (first, last) => first ≤ char.toNat && char.toNat ≤ last

end Flowgraph.Text
