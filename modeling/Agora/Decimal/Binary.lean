/-!
Double-precision numbers as their parts. A finite double is `± significand · 2 ^ exponent` with a
significand below `2 ^ 53`; the bit pattern says which. The total order of doubles is the order of
their bit patterns read as sign and magnitude.
-/

namespace Agora.Decimal

/-- The parts of a finite double: its value is `± significand · 2 ^ exponent`. -/
structure Parts where
  negative : Bool
  significand : Nat
  exponent : Int
  deriving DecidableEq, Repr

/-- The parts that a bit pattern holds: the stored exponent zero marks a number without the
hidden leading bit. -/
def Parts.ofBits (bits : Nat) : Parts :=
  let stored : Nat := bits / 0x10000000000000 % 2048
  let fraction : Nat := bits % 0x10000000000000
  if stored = 0 then ⟨0x8000000000000000 ≤ bits, fraction, -1074⟩
  else ⟨0x8000000000000000 ≤ bits, 0x10000000000000 + fraction, (stored : Int) - 1075⟩

/-- The parts of a double. -/
def parts (x : Float) : Parts := Parts.ofBits x.toBits.toNat

/-- The natural number nearest to the value of parts without their sign, the greater one of two that
are equally near. -/
def Parts.rounded (p : Parts) : Nat :=
  let unit := Nat.pow 2 (-p.exponent).toNat
  (2 * p.significand * Nat.pow 2 p.exponent.toNat + unit) / (2 * unit)

/-- A double as a count of 64 bits: rounded, a half away from zero, and brought into range. What is
not a number counts nothing. -/
def countOf (x : Float) : UInt64 :=
  if x.isNaN || (parts x).negative then 0 else UInt64.ofNatClamp (parts x).rounded

/-- Where a number stands in the total order: negative numbers below positive ones, `-0.0` just
below `0.0`. The value of `0 / 0` stands below everything. -/
def orderKey (x : Float) : Int :=
  if x.isNaN then -0x8000000000000000
  else
    let bits : Nat := x.toBits.toNat
    if bits < 0x8000000000000000 then bits else 0x7fffffffffffffff - (bits : Int)

end Agora.Decimal
