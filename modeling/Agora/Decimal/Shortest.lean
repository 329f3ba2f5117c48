import Agora.Decimal.Binary
import Agora.Decimal.Digits

/-!
The shortest decimal that reads back as a given double. The reals that round to a double form an
interval around it, whose ends belong to it when the significand is even. Among the decimals with
one digit, then two digits, and so on, only the two neighbours of the double can lie in the
interval with the fewest digits; the first number of digits with a neighbour inside is taken, and
of two such neighbours the nearer one.
-/

namespace Agora.Decimal

/-- A decimal `± coefficient · 10 ^ exponent`. -/
structure Scaled where
  negative : Bool
  coefficient : Nat
  exponent : Int
  deriving DecidableEq, Repr

/-- The interval of reals that round to a double, in units that make every bound a natural
number: the double is `middle / unit`, and the ends are `low / unit` and `high / unit`. -/
structure Interval where
  low : Nat
  middle : Nat
  high : Nat
  unit : Nat
  closed : Bool

/-- The rounding interval of positive parts. Just above a power of two the lower gap is half as
wide, except at the bottom of the range. -/
def Parts.interval (p : Parts) : Interval :=
  let lowGap := if p.significand = 0x10000000000000 ∧ p.exponent > -1074 then 1 else 2
  let scale := Nat.pow 2 (p.exponent - 2).toNat
  { low := (4 * p.significand - lowGap) * scale
    middle := 4 * p.significand * scale
    high := (4 * p.significand + 2) * scale
    unit := Nat.pow 2 (2 - p.exponent).toNat
    closed := p.significand % 2 = 0 }

/-- The least `k` with `num · 10 ^ k ≥ den`, searched upward from `k`. -/
def lift (num den : Nat) : Nat → Nat → Nat
  | 0, k => k
  | fuel + 1, k => if den ≤ num * Nat.pow 10 k then k else lift num den fuel (k + 1)

/-- The exponent of the leading decimal digit of `num / den`. -/
def leadingExponent (num den : Nat) : Int :=
  if den ≤ num then ((digits (num / den)).length : Int) - 1 else -(lift num den 400 1 : Int)

/-- The neighbour of the interval's middle on the grid `10 ^ k` that lies in the interval; of two,
the nearer one, and the even one when both are equally near. -/
def Interval.neighbour? (i : Interval) (k : Int) : Option Nat :=
  let up := Nat.pow 10 (-k).toNat
  let step := i.unit * Nat.pow 10 k.toNat
  let below := i.middle * up / step
  let inside := fun c : Nat =>
    if i.closed then i.low * up ≤ c * step ∧ c * step ≤ i.high * up
    else i.low * up < c * step ∧ c * step < i.high * up
  let gapBelow := i.middle * up - below * step
  let gapAbove := (below + 1) * step - i.middle * up
  let lower := decide (inside below) && 0 < below
  let upper := decide (inside (below + 1))
  if lower && upper then
    if gapBelow < gapAbove then some below
    else if gapAbove < gapBelow then some (below + 1)
    else some (if below % 2 = 0 then below else below + 1)
  else if lower then some below
  else if upper then some (below + 1)
  else none

/-- The first grid, from coarse to fine, with a neighbour in the interval. -/
def Interval.search (i : Interval) : Nat → Int → Nat × Int
  | 0, k => (i.middle / i.unit, k)
  | fuel + 1, k =>
    match i.neighbour? k with
    | some c => (c, k)
    | none => i.search fuel (k - 1)

/-- The coefficient without trailing zeros, and the exponent that keeps the value. -/
def dropZeros : Nat → Nat → Int → Nat × Int
  | 0, c, k => (c, k)
  | fuel + 1, c, k => if c ≠ 0 ∧ c % 10 = 0 then dropZeros fuel (c / 10) (k + 1) else (c, k)

/-- The shortest decimal that reads back as the given finite double. -/
def shortest (x : Float) : Scaled :=
  let p := parts x
  if p.significand = 0 then ⟨p.negative, 0, 0⟩
  else
    let i := p.interval
    let found := i.search 20 (leadingExponent i.middle i.unit)
    let trimmed := dropZeros 400 found.1 found.2
    ⟨p.negative, trimmed.1, trimmed.2⟩

end Agora.Decimal
