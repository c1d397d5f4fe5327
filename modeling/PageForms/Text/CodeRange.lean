/-!
# Ranges of code points

Properties of characters are given as lists of closed ranges of code points.
-/

namespace PageForms.Text

abbrev CodeRanges := List (Nat × Nat)

def CodeRanges.contains (ranges : CodeRanges) (c : Char) : Bool :=
  ranges.any fun range => range.1 ≤ c.toNat && c.toNat ≤ range.2

end PageForms.Text
