/-! Membership in a set of code points that is written as a list of closed ranges. -/

namespace CastLint
namespace Text

def inRanges (ranges : List (Nat × Nat)) (n : Nat) : Bool :=
  ranges.any fun r => r.1 ≤ n && n ≤ r.2

end Text
end CastLint
