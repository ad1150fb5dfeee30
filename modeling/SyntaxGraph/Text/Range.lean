/-!
# Ranges of code points

A class of characters is given by the ranges of its code points.
-/

set_option autoImplicit false

namespace SyntaxGraph.Text

/-- Whether a character lies in one of the ranges, each from its first to its last
code point. -/
def inRanges (ranges : Array (Nat × Nat)) (c : Char) : Bool :=
  ranges.any fun (first, last) => first ≤ c.toNat && c.toNat ≤ last

end SyntaxGraph.Text
