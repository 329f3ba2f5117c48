import Agora.Decimal.Digits

/-!
Reading decimal numbers. A literal has an optional sign, digits with an optional point (at least
one digit on one side of it) and an optional exponent; the names of infinity and of "not a number"
are read in any case. The value is the double nearest to the decimal. Whole numbers are read with
an optional sign and nothing but digits.
-/

namespace Agora.Decimal

/-- A sign in front of a text, and the rest. -/
def takeSign : List Char → Bool × List Char
  | '-' :: cs => (true, cs)
  | '+' :: cs => (false, cs)
  | cs => (false, cs)

/-- The double nearest to `coefficient · 10 ^ exponent`. Values beyond the range of exponents are
infinite or zero without being computed. -/
def nearest (coefficient : Nat) (exponent : Int) : Float :=
  let size := ((digits coefficient).length : Int) + exponent
  if coefficient = 0 || size < -400 then 0.0
  else if 400 < size then 1.0 / 0.0
  else Float.ofScientific coefficient (exponent < 0) exponent.natAbs

/-- The exponent part of a literal: nothing, or an `e` with a signed whole number. -/
def readExponent : List Char → Option Int
  | [] => some 0
  | c :: cs =>
    if c = 'e' || c = 'E' then
      match takeSign cs with
      | (negative, ds) =>
        if ds.isEmpty || !ds.all isDigit then none
        else some (if negative then -(ofDigits ds : Int) else ofDigits ds)
    else none

/-- An unsigned literal. -/
def readUnsigned (cs : List Char) : Option Float :=
  let name := cs.map Char.toLower
  if name = "inf".toList || name = "infinity".toList then some (1.0 / 0.0)
  else if name = "nan".toList then some (0.0 / 0.0)
  else
    let whole := cs.takeWhile isDigit
    let rest := cs.dropWhile isDigit
    let (fraction, rest) := match rest with
      | '.' :: r => (r.takeWhile isDigit, r.dropWhile isDigit)
      | r => ([], r)
    if whole.isEmpty && fraction.isEmpty then none
    else
      (readExponent rest).map fun e =>
        nearest (ofDigits (whole ++ fraction)) (e - fraction.length)

/-- The double that a text spells. -/
def readFloat (s : String) : Option Float :=
  match takeSign s.toList with
  | (negative, cs) => (readUnsigned cs).map fun x => if negative then -x else x

/-- The integer that a text spells, with any number of leading zeros. -/
def readInt (s : String) : Option Int :=
  match takeSign s.toList with
  | (negative, ds) =>
    if ds.isEmpty || !ds.all isDigit then none
    else some (if negative then -(ofDigits ds : Int) else ofDigits ds)

/-- The signed 64-bit integer that a text spells. -/
def readInt64 (s : String) : Option Int :=
  (readInt s).bind fun i =>
    if -0x8000000000000000 ≤ i ∧ i < 0x8000000000000000 then some i else none

/-- The unsigned 64-bit integer that a text spells; a minus sign is not read. -/
def readUInt64 (s : String) : Option UInt64 :=
  match s.toList with
  | '-' :: _ => none
  | _ => (readInt s).bind fun i => if i < 0x10000000000000000 then some i.toNat.toUInt64 else none

end Agora.Decimal
