/-!
# Ranges of code points
-/

namespace Prebake

/-- Whether a code point lies in one of some ranges, which include both their ends. -/
def inRanges (ranges : List (Nat × Nat)) (n : Nat) : Bool :=
  ranges.any fun (low, high) => low ≤ n && n ≤ high

end Prebake
