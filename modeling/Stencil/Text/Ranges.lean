/-!
# Ranges of code points

A property of characters is given by the ranges of the code points that have it, in
ascending order and with both ends included.
-/

namespace Stencil.Text

/-- Whether the code point lies in one of the ranges, which are in ascending order. -/
def inRanges (code : Nat) : List (Nat × Nat) → Bool
  | [] => false
  | (first, last) :: rest =>
      if code < first then false else decide (code ≤ last) || inRanges code rest

end Stencil.Text
