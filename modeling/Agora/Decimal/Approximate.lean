import Agora.Decimal.Shortest

/-!
Decimal digits of a double by arithmetic on 64-bit significands. The digits are those of the upper
end of the rounding interval, cut as soon as what is left of them is smaller than the interval, and
then lowered towards the double itself. The lowering knows the distance to the double only while
fewer than nine digits stand behind the point of the scaled number; after that the digits of the
upper end stay. The result reads back as the double, and is nearly always as short as possible.
-/

namespace Agora.Decimal

/-- A positive number `significand · 2 ^ exponent` with at most 64 bits in the significand. -/
structure Wide where
  significand : Nat
  exponent : Int
  deriving DecidableEq, Repr

/-- The product, with the lower half of its bits rounded away. -/
def Wide.mul (a b : Wide) : Wide :=
  ⟨(a.significand * b.significand + 0x8000000000000000) / 0x10000000000000000,
    a.exponent + b.exponent + 64⟩

/-- The same number with its leading bit at position 63. -/
def Wide.normalize (a : Wide) : Wide :=
  let shift : Nat := 63 - a.significand.log2
  ⟨a.significand * Nat.pow 2 shift, a.exponent - shift⟩

/-- The power `10 ^ k` rounded to 64 bits. -/
def powerOfTen (k : Int) : Wide :=
  let p : Nat := Nat.pow 10 k.natAbs
  let size : Nat := p.log2 + 1
  if k < 0 then ⟨(Nat.pow 2 (63 + size) + p / 2) / p, -63 - (size : Int)⟩
  else if size ≤ 64 then ⟨p * Nat.pow 2 (64 - size), (size : Int) - 64⟩
  else ⟨(p + Nat.pow 2 (size - 65)) / Nat.pow 2 (size - 64), (size : Int) - 64⟩

/-- The power of ten, a multiple of eight steps from `10 ^ -348`, that brings a number with the
given binary exponent into the range in which digits are cut off. -/
def scaleExponent (e : Int) : Int :=
  let k := -((-((-61 - e) * 30102999566398114)) / 100000000000000000) + 347
  8 * (k / 8 + 1) - 348

/-- What a step of digit generation has gathered: the digits so far and the power of ten by which
the last of them counts. -/
structure Cut where
  coefficient : Nat
  exponent : Int

/-- Lowers the last digit while that brings the number nearer to the double, `target` below the
upper end, and keeps it in the interval of width `width`; `unit` is the weight of the digit. -/
def lowered (width unit target : Nat) : Nat → Nat → Nat → Nat
  | 0, coefficient, _ => coefficient
  | fuel + 1, coefficient, rest =>
    if rest < target ∧ unit ≤ width - rest ∧
        (rest + unit < target ∨ rest + unit - target < target - rest) then
      lowered width unit target fuel (coefficient - 1) (rest + unit)
    else coefficient

/-- Digits behind the point: ten times the remainder, one digit off, until it is below the width. -/
def cutFraction (one distance : Nat) : Nat → Nat → Nat → Nat → Nat → Cut
  | 0, coefficient, _, _, places => ⟨coefficient, -(places : Int)⟩
  | fuel + 1, coefficient, rest, width, places =>
    let rest := rest * 10
    let width := width * 10
    let coefficient := coefficient * 10 + rest / one
    let rest := rest % one
    let places := places + 1
    if rest < width then
      let target :=
        if places < 9 then distance * Nat.pow 10 places % 0x10000000000000000 else 0
      ⟨lowered width one target 10 coefficient rest, -(places : Int)⟩
    else cutFraction one distance fuel coefficient rest width places

/-- Digits before the point, from the most significant one. -/
def cutWhole (one distance width fraction : Nat) : Nat → Nat → Nat → Cut
  | 0, coefficient, _ => cutFraction one distance 20 coefficient fraction width 0
  | left + 1, coefficient, whole =>
    let coefficient := coefficient * 10 + whole / Nat.pow 10 left
    let whole := whole % Nat.pow 10 left
    let rest := whole * one + fraction
    if rest ≤ width then
      ⟨lowered width (Nat.pow 10 left * one) distance 10 coefficient rest, left⟩
    else cutWhole one distance width fraction left coefficient whole

/-- The decimal of a finite double by 64-bit arithmetic. -/
def approximate (x : Float) : Scaled :=
  let p := parts x
  if p.significand = 0 then ⟨p.negative, 0, 0⟩
  else
    let high := Wide.normalize ⟨2 * p.significand + 1, p.exponent - 1⟩
    let low : Wide :=
      if p.significand = 0x10000000000000 then ⟨4 * p.significand - 1, p.exponent - 2⟩
      else ⟨2 * p.significand - 1, p.exponent - 1⟩
    let low : Wide :=
      ⟨low.significand * Nat.pow 2 (low.exponent - high.exponent).toNat, high.exponent⟩
    let k := scaleExponent high.exponent
    let scale := powerOfTen k
    let middle := (Wide.normalize ⟨p.significand, p.exponent⟩).mul scale
    let top := (high.mul scale).significand - 1
    let bottom := (low.mul scale).significand + 1
    let one := Nat.pow 2 (-(high.mul scale).exponent).toNat
    let whole := top / one
    let cut := cutWhole one (top - middle.significand) (top - bottom) (top % one)
      (digits whole).length 0 whole
    ⟨p.negative, cut.coefficient, cut.exponent - k⟩

end Agora.Decimal
