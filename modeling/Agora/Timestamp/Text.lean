import Agora.Decimal.Digits
import Agora.Text.Blank
import Agora.Text.Pieces
import Agora.Timestamp.Basic

/-!
Points in time as text, after RFC 3339. Written, a point has the fewest fraction digits in groups
of three that lose nothing, and ends in `Z`; years outside 0 to 9999 carry a sign. Reading is more
liberal: white space around numbers, any number of fraction digits, a blank or a small `t` between
date and time, and an offset from UTC. The first thing wrong in the text decides the error, then
the date, then the offset.
-/

namespace Agora.Timestamp

open Agora.Text Agora.Decimal

/-- Why a text is not a point in time. -/
inductive ReadError where
  | outOfRange | impossible | tooShort | invalid | tooLong
  deriving DecidableEq, Repr

/-- The words for an error. -/
def ReadError.message : ReadError → String
  | .outOfRange => "input is out of range"
  | .impossible => "no possible date and time matching input"
  | .tooShort => "premature end of input"
  | .invalid => "input contains invalid characters"
  | .tooLong => "trailing input"

/-! ### Writing -/

/-- The text of a year. -/
def yearText (y : Int) : List Char :=
  if 0 ≤ y ∧ y ≤ 9999 then padded 4 y.toNat
  else (if y < 0 then '-' else '+') :: padded 4 y.natAbs

/-- The fraction digits of a second: none, three, six or nine. -/
def fractionText (nano : Nat) : List Char :=
  if nano = 0 then []
  else if nano % 1000000 = 0 then '.' :: places 3 (nano / 1000000)
  else if nano % 1000 = 0 then '.' :: places 6 (nano / 1000)
  else '.' :: places 9 nano

/-- The text of a point in time. -/
def write (t : Timestamp) : List Char :=
  let d := Date.ofDay t.day
  let second := t.second % 60 + t.nano / 1000000000
  yearText d.year ++ '-' :: places 2 d.month ++ '-' :: places 2 d.day ++
    'T' :: places 2 (t.second / 3600) ++ ':' :: places 2 (t.second / 60 % 60) ++
    ':' :: places 2 second ++ fractionText (t.nano % 1000000000) ++ ['Z']

/-- The text of a point in time, as a string. -/
def toText (t : Timestamp) : String := String.ofList t.write

/-! ### Reading -/

/-- A whole number of at least one digit, and at most `width` of them when a width is given. It
must fit a signed 64-bit integer. -/
def number (width : Option Nat) (cs : List Char) : Except ReadError (Nat × List Char) :=
  let ds := match width with
    | some w => (cs.take w).takeWhile isDigit
    | none => cs.takeWhile isDigit
  match cs with
  | [] => .error .tooShort
  | _ =>
    if ds.isEmpty then .error .invalid
    else if 0x8000000000000000 ≤ ofDigits ds then .error .outOfRange
    else .ok (ofDigits ds, cs.drop ds.length)

/-- A number of one or two digits between two bounds, after white space. -/
def field (low high : Nat) (cs : List Char) : Except ReadError (Nat × List Char) := do
  let (n, rest) ← number (some 2) (trimStart cs)
  if low ≤ n ∧ n ≤ high then .ok (n, rest) else .error .outOfRange

/-- One given character. -/
def literal (c : Char) : List Char → Except ReadError (Unit × List Char)
  | [] => .error .tooShort
  | d :: rest => if d = c then .ok ((), rest) else .error .invalid

/-- A year: four digits at most, or any number of them after a sign. -/
def year (cs : List Char) : Except ReadError (Int × List Char) := do
  let (y, rest) ← match trimStart cs with
    | '-' :: ds => (number none ds).map fun r => (-(r.1 : Int), r.2)
    | '+' :: ds => (number none ds).map fun r => ((r.1 : Int), r.2)
    | ds => (number (some 4) ds).map fun r => ((r.1 : Int), r.2)
  if -0x80000000 ≤ y ∧ y < 0x80000000 then .ok (y, rest) else .error .outOfRange

/-- Year, month and day, with minus signs between them. -/
def date (cs : List Char) : Except ReadError (Date × List Char) := do
  let (y, cs) ← year cs
  let (_, cs) ← literal '-' (trimStart cs)
  let (m, cs) ← field 1 12 cs
  let (_, cs) ← literal '-' (trimStart cs)
  let (d, cs) ← field 1 31 cs
  .ok (⟨y, m, d⟩, cs)

/-- The character between date and time. -/
def separator : List Char → Except ReadError (Unit × List Char)
  | [] => .error .tooShort
  | c :: rest => if c = 'T' || c = 't' || c = ' ' then .ok ((), rest) else .error .invalid

/-- The fraction of a second in nanoseconds; digits after the ninth are passed over. -/
def fraction : List Char → Except ReadError (Nat × List Char)
  | '.' :: cs => do
    let (n, rest) ← number (some 9) cs
    let taken := cs.length - rest.length
    .ok (n * Nat.pow 10 (9 - taken), rest.dropWhile isDigit)
  | cs => .ok (0, cs)

/-- Hour, minute and second with colons between them, as the second of the day and nanoseconds.
The second 60 is the leap second. -/
def timeOfDay (cs : List Char) : Except ReadError ((Nat × Nat) × List Char) := do
  let (h, cs) ← field 0 23 cs
  let (_, cs) ← literal ':' (trimStart cs)
  let (m, cs) ← field 0 59 cs
  let (_, cs) ← literal ':' (trimStart cs)
  let (s, cs) ← field 0 60 cs
  let (n, cs) ← fraction cs
  let leap := if s = 60 then 1 else 0
  .ok ((h * 3600 + m * 60 + (s - leap), n + leap * 1000000000), trimStart cs)

/-- Two characters that must be digits. -/
def twoDigits : List Char → Except ReadError ((Char × Char) × List Char)
  | a :: b :: rest => if isDigit a && isDigit b then .ok ((a, b), rest) else .error .invalid
  | cs => .error (if 2 ≤ byteCount cs then .invalid else .tooShort)

/-- The offset from UTC in seconds, east positive. -/
def offset (cs : List Char) : Except ReadError (Int × List Char) := do
  if (cs.take 3).map Char.toUpper = "UTC".toList then .ok (0, cs.drop 3)
  else
    match cs with
    | [] => .error .tooShort
    | c :: cs =>
      if c = 'Z' || c = 'z' then .ok (0, cs)
      else if c = '+' || c = '-' || c = '\u2212' then
        let (h, cs) ← twoDigits cs
        let (m, cs) ← twoDigits (cs.dropWhile fun c => c = ':' || isWhite c)
        if '5' < m.1 then .error .outOfRange
        let seconds : Int := ofDigits [h.1, h.2] * 3600 + ofDigits [m.1, m.2] * 60
        .ok (if c = '+' then seconds else -seconds, cs)
      else .error .invalid

/-- The point in time with the given local date, time of day and offset. -/
def assemble (d : Date) (second nano : Nat) (offset : Int) : Except ReadError Timestamp :=
  if ¬ d.Exists ∨ d.year < -262143 ∨ 262142 < d.year then .error .outOfRange
  else if offset ≤ -86400 ∨ 86400 ≤ offset then .error .outOfRange
  else
    let utc := (second : Int) - offset
    match ofParts? (d.toDay + utc / 86400) (utc % 86400).toNat nano with
    | some t => .ok t
    | none => .error .impossible

/-- The point in time that a text stands for. -/
def read (cs : List Char) : Except ReadError Timestamp := do
  let (d, cs) ← date cs
  let (_, cs) ← separator cs
  let ((second, nano), cs) ← timeOfDay cs
  let (o, cs) ← offset cs
  if (trimStart cs).isEmpty then assemble d second nano o else .error .tooLong

end Agora.Timestamp
