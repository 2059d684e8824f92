/-! Sets of code points given as lists of closed ranges in ascending order. -/

namespace Reshape.Text

/-- Membership in a set of closed ranges. -/
def inRanges (ranges : List (Nat × Nat)) (n : Nat) : Bool :=
  ranges.any fun (a, b) => a ≤ n && n ≤ b

end Reshape.Text
