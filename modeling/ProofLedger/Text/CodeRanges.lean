/-!
# Sets of code points given by ranges

Tables of Unicode properties are lists of closed ranges in increasing order. The tables leave
out ASCII, where each property has a short test of its own.
-/

namespace ProofLedger.Text

/-- Whether a code point lies in one of the ranges. -/
def inRanges (ranges : Array (Nat × Nat)) (n : Nat) : Bool :=
  ranges.any fun (lo, hi) => lo ≤ n && n ≤ hi

end ProofLedger.Text
