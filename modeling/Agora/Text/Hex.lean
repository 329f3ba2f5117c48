/-!
Hexadecimal digits, in the two directions the program needs: reading the digits of an escape and
writing a word with a fixed number of lower-case digits.
-/

namespace Agora.Text

/-- The value of a hexadecimal digit, upper or lower case. -/
def hexDigit? (c : Char) : Option Nat :=
  if '0' ≤ c && c ≤ '9' then some (c.toNat - '0'.toNat)
  else if 'a' ≤ c && c ≤ 'f' then some (c.toNat - 'a'.toNat + 10)
  else if 'A' ≤ c && c ≤ 'F' then some (c.toNat - 'A'.toNat + 10)
  else none

/-- The lower-case digit of a value below sixteen. -/
def hexChar (n : Nat) : Char := Char.ofNat (if n < 10 then '0'.toNat + n else 'a'.toNat + (n - 10))

/-- The last `places` hexadecimal digits of `n`, with leading zeros. -/
def hexPlaces : Nat → Nat → List Char
  | 0, _ => []
  | places + 1, n => hexPlaces places (n / 16) ++ [hexChar (n % 16)]

/-- The hexadecimal digits of `n` without leading zeros. -/
def hexDigits (n : Nat) : List Char :=
  match (hexPlaces 16 n).dropWhile (· == '0') with
  | [] => ['0']
  | ds => ds

end Agora.Text
