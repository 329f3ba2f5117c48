import Agora.Decimal.Digits
import Agora.Decimal.Shortest

/-!
Writing a decimal number. A layout says for which positions of the point a number is written in
full, what follows a whole number, and how a positive exponent is marked; digits and value come
from elsewhere.
-/

namespace Agora.Decimal

/-- How decimals are written. `inFull p` tells whether a number whose point stands after its `p`th
digit is written without an exponent. -/
structure Layout where
  inFull : Int → Bool
  wholeTail : String
  exponentMark : String

/-- Digits without an exponent; the point stands after the `point`th digit. -/
def Layout.full (l : Layout) (ds : List Char) (point : Int) : List Char :=
  if ds.length ≤ point then
    ds ++ List.replicate (point.toNat - ds.length) '0' ++ l.wholeTail.toList
  else if 0 < point then ds.take point.toNat ++ '.' :: ds.drop point.toNat
  else '0' :: '.' :: (List.replicate (-point).toNat '0' ++ ds)

/-- Digits with an exponent: one digit before the point. -/
def Layout.scientific (l : Layout) (ds : List Char) (point : Int) : List Char :=
  let tail := match ds.drop 1 with
    | [] => []
    | rest => '.' :: rest
  let exponent := point - 1
  let mark := if exponent < 0 then [] else l.exponentMark.toList
  ds.take 1 ++ tail ++ 'e' :: (mark ++ signedDigits exponent)

/-- The text of a decimal. -/
def Layout.write (l : Layout) (d : Scaled) : String :=
  let ds := digits d.coefficient
  let point := (ds.length : Int) + d.exponent
  let body := if l.inFull point then l.full ds point else l.scientific ds point
  String.ofList (if d.negative then '-' :: body else body)

/-- A number without an exponent, whatever its size; whole numbers have no point. -/
def Layout.plain : Layout := ⟨fun _ => true, "", ""⟩

/-- A number without an exponent; whole numbers end in `.0`. -/
def Layout.pointed : Layout := ⟨fun _ => true, ".0", ""⟩

/-- From `1e-5` up to below `1e16` without an exponent, and a plus sign on larger exponents. -/
def Layout.exchange : Layout := ⟨fun p => -5 < p && p ≤ 16, ".0", "+"⟩

/-- From `1e-6` up to below `1e21` without an exponent, and no plus sign. -/
def Layout.measure : Layout := ⟨fun p => -6 < p && p ≤ 21, ".0", ""⟩

/-- The text of a double in a layout, by its shortest digits. -/
def Layout.writeFloat (l : Layout) (x : Float) : String :=
  if x.isNaN then "NaN"
  else if x.isInf then (if x < 0 then "-inf" else "inf")
  else l.write (shortest x)

end Agora.Decimal
