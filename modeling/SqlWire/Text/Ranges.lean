import SqlWire.Text.Basic

/-! Sets of characters written as ascending, separate ranges of code points. -/
namespace SqlWire.Text

/-- Whether a code point lies in one of the ranges. The ranges ascend, so the
first one that ends at or after the code point decides. -/
def inRanges : List (Nat × Nat) → Nat → Bool
  | [], _ => false
  | (first, last) :: ranges, n => if n ≤ last then first ≤ n else inRanges ranges n

end SqlWire.Text
