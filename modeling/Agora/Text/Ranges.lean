/-!
Sets of characters as ranges of code points: both ends are included, and the ranges stand in
increasing order.
-/

namespace Agora.Text

/-- Whether a character lies in one of some ranges. -/
def within (ranges : List (Nat × Nat)) (c : Char) : Bool :=
  ranges.any fun r => r.1 ≤ c.toNat && c.toNat ≤ r.2

end Agora.Text
