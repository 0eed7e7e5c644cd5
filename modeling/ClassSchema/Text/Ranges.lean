/-
Membership in a property that is given by closed ranges of code points.
-/
namespace ClassSchema.Text

/-- Does one of the closed ranges hold the code point? -/
def inRanges (ranges : List (Nat × Nat)) (n : Nat) : Bool :=
  ranges.any fun r => r.1 ≤ n && n ≤ r.2

end ClassSchema.Text
