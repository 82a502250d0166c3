/-!
# Ranges of code points

Properties of characters are given as ranges of code points, each with its two ends, in increasing
order.
-/

namespace Polyglot

/-- Inclusive ranges of code points. -/
abbrev CodeRanges := List (Nat × Nat)

def CodeRanges.has (ranges : CodeRanges) (c : Char) : Bool :=
  ranges.any (fun r => r.1 ≤ c.toNat && c.toNat ≤ r.2)

end Polyglot
