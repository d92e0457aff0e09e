/-!
# Ranges of code points

Sets of characters as tables of closed ranges.
-/

namespace ConwayTx.Text

/-- First and last code point of each range. -/
abbrev Ranges := List (Nat × Nat)

namespace Ranges

def contains (ranges : Ranges) (c : Char) : Bool :=
  ranges.any fun (first, last) => first ≤ c.toNat && c.toNat ≤ last

/-- Neighbours are apart and in order. -/
def isAscending : Ranges → Bool
  | [] => true
  | [(first, last)] => first ≤ last
  | (first, last) :: next :: rest =>
    first ≤ last && last + 1 < next.1 && isAscending (next :: rest)

/-- The number of code points. -/
def size : Ranges → Nat
  | [] => 0
  | (first, last) :: rest => last + 1 - first + size rest

end Ranges

end ConwayTx.Text
