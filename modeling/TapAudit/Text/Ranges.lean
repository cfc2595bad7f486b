/-!
# Ranges of code points

A class of characters is given by the closed ranges of its code points.
-/

namespace TapAudit.Text

/-- A code point lies in one of the closed ranges. -/
def inRanges (ranges : List (Nat × Nat)) (n : Nat) : Bool :=
  ranges.any fun (first, last) => first ≤ n && n ≤ last

end TapAudit.Text
