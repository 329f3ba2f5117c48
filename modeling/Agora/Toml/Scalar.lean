import Agora.Decimal.Read
import Agora.Text.Hex
import Agora.Timestamp.Civil
import Agora.Toml.Basic

/-!
Numbers, truth values, dates and times in TOML documents. Each is a run of characters without white
space, but for the blank that may stand between a date and a time; what a run stands for is decided
for the run as a whole.
-/

namespace Agora.Toml

open Decimal

/-! ### Numbers -/

/-- Whether digits of some kind are grouped well: underscores stand between digits only. -/
def groupedFrom (isKind : Char → Bool) : Bool → List Char → Bool
  | digit, [] => digit
  | digit, c :: cs =>
    if c = '_' then digit && groupedFrom isKind false cs
    else isKind c && groupedFrom isKind true cs

/-- Whether a run is made of well-grouped digits of some kind. -/
def grouped (isKind : Char → Bool) (cs : List Char) : Bool := groupedFrom isKind false cs

/-- A run without underscores. -/
def ungroup (cs : List Char) : List Char := cs.filter (· ≠ '_')

/-- Whether a run is a whole decimal number without leading zeros. -/
def isWhole (cs : List Char) : Bool :=
  grouped isDigit cs && (cs.length = 1 || cs.head? ≠ some '0')

/-- The value of digits in a base. -/
def inBase (base : Nat) (cs : List Char) : Nat :=
  cs.foldl (fun n c => base * n + (Text.hexDigit? c).getD 0) 0

/-- Digits in a base as an integer of 64 bits. -/
def readBased (base : Nat) (cs : List Char) : Option Toml :=
  let isKind := fun c => (Text.hexDigit? c).any (· < base)
  let n := inBase base (ungroup cs)
  if grouped isKind cs && n < 0x8000000000000000 then some (.int n) else none

/-- An integer of 64 bits. -/
def readInteger (negative : Bool) (cs : List Char) : Option Toml :=
  let n := ofDigits (ungroup cs)
  let i : Int := if negative then -(n : Int) else n
  if isWhole cs && -0x8000000000000000 ≤ i && i < 0x8000000000000000 then some (.int i)
  else none

/-- Whether a run is what may follow the whole part of a number: a fraction, an exponent or both. -/
def isTail (cs : List Char) : Bool :=
  let exponent (cs : List Char) := match cs with
    | [] => true
    | c :: cs => (c = 'e' || c = 'E') && grouped isDigit (takeSign cs).2
  match cs with
  | '.' :: cs =>
    let inside := fun c => isDigit c || c = '_'
    grouped isDigit (cs.takeWhile inside) && exponent (cs.dropWhile inside)
  | cs => !cs.isEmpty && exponent cs

/-- A number with a fraction or an exponent that is not too large for a double. -/
def readReal (negative : Bool) (cs : List Char) : Option Toml :=
  let inside := fun c => isDigit c || c = '_'
  if isWhole (cs.takeWhile inside) && isTail (cs.dropWhile inside) then do
    let x ← readUnsigned (ungroup cs)
    if x.isInf then none else some (.real (if negative then -x else x))
  else none

/-- A number. -/
def readNumber (cs : List Char) : Option Toml :=
  match cs with
  | '0' :: 'x' :: ds => readBased 16 ds
  | '0' :: 'o' :: ds => readBased 8 ds
  | '0' :: 'b' :: ds => readBased 2 ds
  | _ =>
    let (negative, ds) := takeSign cs
    if ds = "inf".toList then some (.real (if negative then -(1.0 / 0.0) else 1.0 / 0.0))
    else if ds = "nan".toList then some (.real (0.0 / 0.0))
    else (readInteger negative ds).or (readReal negative ds)

/-! ### Dates and times -/

/-- A number of a fixed count of digits between two bounds, and the rest. -/
def readField (count low high : Nat) (cs : List Char) : Option (Nat × List Char) :=
  let ds := cs.take count
  let n := ofDigits ds
  if ds.length = count && ds.all isDigit && low ≤ n && n ≤ high then some (n, cs.drop count)
  else none

/-- The rest after a given character. -/
def after (c : Char) : List Char → Option (List Char)
  | d :: cs => if d = c then some cs else none
  | [] => none

/-- A date, written as it is read, and the rest. -/
def readDate (cs : List Char) : Option (List Char × List Char) := do
  let ((y : Nat), cs) ← readField 4 0 9999 cs
  let (m, cs) ← readField 2 1 12 (← after '-' cs)
  let (d, cs) ← readField 2 1 31 (← after '-' cs)
  if Date.Exists ⟨y, m, d⟩ then
    some (places 4 y ++ '-' :: places 2 m ++ '-' :: places 2 d, cs)
  else none

/-- The fraction of a second, of which nine digits count, without zeros at its end but for a single
one; and the rest. -/
def readFraction : List Char → Option (List Char × List Char)
  | '.' :: cs =>
    let ds := cs.takeWhile isDigit
    let kept := ((ds.take 9).reverse.dropWhile (· = '0')).reverse
    if ds.isEmpty then none
    else some ('.' :: (if kept.isEmpty then ['0'] else kept), cs.dropWhile isDigit)
  | cs => some ([], cs)

/-- The seconds of a time of day with their fraction, if there are any, and the rest. -/
def readSeconds : List Char → Option (List Char × List Char)
  | ':' :: cs => do
    let (s, cs) ← readField 2 0 60 cs
    let (f, cs) ← readFraction cs
    some (':' :: places 2 s ++ f, cs)
  | cs => some ([], cs)

/-- A time of day, and the rest. -/
def readClock (cs : List Char) : Option (List Char × List Char) := do
  let (h, cs) ← readField 2 0 23 cs
  let (m, cs) ← readField 2 0 59 (← after ':' cs)
  let (s, cs) ← readSeconds cs
  some (places 2 h ++ ':' :: places 2 m ++ s, cs)

/-- An offset from UTC, which ends the run. -/
def readOffset : List Char → Option (List Char)
  | [] => some []
  | [c] => if c = 'Z' || c = 'z' then some ['Z'] else none
  | c :: cs => do
    let (h, cs) ← readField 2 0 23 cs
    let (m, cs) ← readField 2 0 59 (← after ':' cs)
    if cs.isEmpty && (c = '+' || c = '-') then
      let sign := if c = '-' && 0 < h + m then '-' else '+'
      some (sign :: places 2 h ++ ':' :: places 2 m)
    else none

/-- A date, a time, or both with an offset if there is one. -/
def readTime (cs : List Char) : Option Toml :=
  match readDate cs with
  | some (d, []) => some (.time (String.ofList d))
  | some (d, c :: rest) => do
    if c = 'T' || c = 't' || c = ' ' then
      let (t, rest) ← readClock rest
      let o ← readOffset rest
      some (.time (String.ofList (d ++ 'T' :: (t ++ o))))
    else none
  | none =>
    match readClock cs with
    | some (t, []) => some (.time (String.ofList t))
    | _ => none

/-! ### Runs -/

/-- Whether a character may stand in a run. -/
def inRun (c : Char) : Bool :=
  ('a' ≤ c && c ≤ 'z') || ('A' ≤ c && c ≤ 'Z') || isDigit c || c ∈ ['_', '+', '-', '.', ':']

/-- Whether a text begins like a time of day. -/
def beginsTime : List Char → Bool
  | a :: b :: c :: _ => isDigit a && isDigit b && c = ':'
  | _ => false

/-- The run at the start of a text, and the rest. A time after a date and a blank belongs to it. -/
def takeRun (cs : List Char) : List Char × List Char :=
  let run := cs.takeWhile inRun
  match cs.dropWhile inRun with
  | ' ' :: rest =>
    if (readDate run).any (·.2.isEmpty) && beginsTime rest then
      (run ++ ' ' :: rest.takeWhile inRun, rest.dropWhile inRun)
    else (run, ' ' :: rest)
  | rest => (run, rest)

/-- The value of a run. -/
def readScalar (run : List Char) : Option Toml :=
  if run = "true".toList then some (.bool true)
  else if run = "false".toList then some (.bool false)
  else (readTime run).or (readNumber run)

end Agora.Toml
