/-!
# `Chip8.Text.CharSet` — sets of characters given by their edges

A property of characters holds on a few hundred stretches of code points. Such a set is kept as the
increasing list of the code points at which membership changes, the first of them a member.

## Contents
- **Membership.** `CharSet.contains`: a code point is inside when an odd number of edges lie at or
  below it.
-/

namespace Chip8.Text

/-- A set of code points, as the places where membership changes, in increasing order. -/
structure CharSet where
  edges : Array Nat

/-- Whether `c` belongs to the set: each edge up to `c` flips the answer, which starts as no. -/
def CharSet.contains (s : CharSet) (c : Char) : Bool :=
  s.edges.countP (· ≤ c.toNat) % 2 == 1

end Chip8.Text
