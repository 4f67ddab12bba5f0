/-!
# Classes of characters given by ranges

A class of characters that a standard defines by enumeration is kept as a list of closed ranges of
code points, and membership is one pass over the list.
-/

namespace ShapeFault.Text

/-- Whether `n` lies in one of the closed ranges `ranges`. -/
def inRanges (ranges : List (Nat × Nat)) (n : Nat) : Bool :=
  ranges.any fun r => r.1 ≤ n && n ≤ r.2

end ShapeFault.Text
