import Agora.Decimal.Digits
import Agora.Json.Basic

/-!
The value of a JSON numeral. A whole number without point and exponent is an integer if it fits
64 bits, signed below zero and unsigned above; minus zero and everything else is a double. The
double is found from the first digits that fit 64 bits by one multiplication or division with a
power of ten, which for long numerals may miss the nearest double by a unit.
-/

namespace Agora.Json

open Agora.Decimal

/-- A numeral: its sign, the digits before and after the point, and the exponent with its sign. -/
structure Numeral where
  negative : Bool
  whole : List Char
  fraction : Option (List Char)
  exponent : Option (Bool × List Char)

/-- Digits gathered into 64 bits, and the number of digits that did not fit. -/
def gather (digits : List Char) : Nat × Nat :=
  digits.foldl
    (fun s d =>
      if s.2 = 0 ∧ 10 * s.1 + digitValue d < 0x10000000000000000 then (10 * s.1 + digitValue d, 0)
      else (s.1, s.2 + 1))
    (0, 0)

/-- Fraction digits appended to a coefficient as long as they fit 64 bits; also their number. -/
def appendFraction (coefficient : Nat) (digits : List Char) : Nat × Nat :=
  let r := digits.foldl
    (fun (s : Nat × Nat × Bool) d =>
      if s.2.2 && 10 * s.1 + digitValue d < 0x10000000000000000 then
        (10 * s.1 + digitValue d, s.2.1 + 1, true)
      else (s.1, s.2.1, false))
    (coefficient, 0, true)
  (r.1, r.2.1)

/-- `x · 10 ^ e`, by steps of at most `10 ^ 308`; nothing if it is too large for a double. -/
def scale : Nat → Float → Int → Option Float
  | 0, x, _ => some x
  | fuel + 1, x, e =>
    if e.natAbs ≤ 308 then
      let power := Float.ofScientific 1 false e.natAbs
      if e < 0 then some (x / power)
      else if (x * power).isInf then none
      else some (x * power)
    else if x == 0.0 then some x
    else if 0 < e then none
    else scale fuel (x / Float.ofScientific 1 false 308) (e + 308)

/-- An integer held between the bounds of 32 bits. -/
def clamp32 (i : Int) : Int := max (-0x80000000) (min 0x7fffffff i)

/-- The magnitude of a numeral with a point or an exponent, or of a whole number too long for
64 bits; nothing if it is too large for a double. -/
def Numeral.magnitude (n : Numeral) : Option Float :=
  let whole := gather n.whole
  let (coefficient, taken) := appendFraction whole.1 (n.fraction.getD [])
  let x := coefficient.toUInt64.toFloat
  let base := (whole.2 : Int) - taken
  match n.exponent with
  | none => scale 8 x base
  | some (negative, ds) =>
    let e := ofDigits ds
    if 0x80000000 ≤ e then if coefficient = 0 || negative then some 0.0 else none
    else scale 8 x (clamp32 (if negative then base - e else base + e))

/-- The value of a numeral; nothing if it is too large for a double. -/
def Numeral.value (n : Numeral) : Option Number :=
  let whole := ofDigits n.whole
  let limit := if n.negative then 0x8000000000000000 else 0xffffffffffffffff
  if n.fraction.isNone && n.exponent.isNone && whole ≤ limit && !(n.negative && whole == 0) then
    some (.int (if n.negative then -(whole : Int) else whole))
  else n.magnitude.map fun x => .real (if n.negative then -x else x)

end Agora.Json
