import Agora.Json.Fault
import Agora.Json.Numeral
import Agora.Text.Pieces

/-!
The lexemes of a JSON text: signs, words, numerals and quoted texts, each with the numbers of bytes
before its start and its end. A quoted text is scanned one character at a time by an automaton
that knows whether it stands inside an escape. A lexeme may be well formed and yet stand for no
value (half of a surrogate pair, a numeral beyond the doubles); the first lexeme that is not well
formed is the last one.
-/

namespace Agora.Json

open Agora.Text Agora.Decimal

/-- The six signs. -/
inductive Sign where
  | openList | closeList | openObject | closeObject | colon | comma
  deriving DecidableEq, Repr

/-- What a lexeme is. The number with a fault is how many bytes had been read when it showed. -/
inductive Lexeme.Kind where
  | sign (s : Sign)
  | value (j : Json)
  | unusable (fault : Fault) (index : Nat)
  | bad (fault : Fault) (index : Nat)

/-- A lexeme and its place in the text. -/
structure Lexeme where
  kind : Lexeme.Kind
  quoted : Bool
  start : Nat
  stop : Nat

/-! ### Quoted texts -/

/-- Where the scan of a quoted text stands: between characters, after a backslash, or after some
digits of a hexadecimal escape. -/
inductive Within where
  | plain
  | escaped
  | hex (count value : Nat)

/-- The state of the scan: the text so far, newest character first; a leading surrogate that waits
for its partner; the first reason why the text has no value. -/
structure Scan where
  within : Within
  lead : Option Nat
  text : List Char
  index : Nat
  flaw : Option (Fault × Nat)

/-- What a character does to the scan. -/
inductive Scan.Outcome where
  | continues (s : Scan)
  | closes (s : Scan)
  | fails (fault : Fault) (index : Nat)

/-- Notes a flaw; the first one stays. -/
def Scan.flawed (s : Scan) (f : Fault) (index : Nat) : Scan :=
  { s with lead := none, flaw := s.flaw.or (some (f, index)) }

/-- Takes a character into the text. -/
def Scan.push (s : Scan) (c : Char) : Scan :=
  { s with within := .plain, lead := none, text := c :: s.text }

/-- The character of a one-letter escape. -/
def shortEscape? (c : Char) : Option Char :=
  if c = '"' || c = '\\' || c = '/' then some c
  else if c = 'b' then some '\x08'
  else if c = 'f' then some '\x0c'
  else if c = 'n' then some '\n'
  else if c = 'r' then some '\r'
  else if c = 't' then some '\t'
  else none

/-- The code point of a hexadecimal escape is complete. A trailing surrogate needs a leading one
before it, and a leading one waits for it. -/
def Scan.codePoint (s : Scan) (n : Nat) : Scan :=
  let s := { s with within := .plain }
  let trailing := 0xDC00 ≤ n && n ≤ 0xDFFF
  match s.lead with
  | some l =>
    if trailing then s.push (Char.ofNat ((l - 0xD800) * 0x400 + (n - 0xDC00) + 0x10000))
    else s.flawed .loneSurrogate s.index
  | none =>
    if trailing then s.flawed .loneSurrogate s.index
    else if 0xD800 ≤ n && n ≤ 0xDBFF then { s with lead := some n }
    else s.push (Char.ofNat n)

/-- A character between escapes. -/
def Scan.plain (s : Scan) (c : Char) : Scan.Outcome :=
  let next := { s with index := s.index + c.utf8Size }
  if c = '"' then .closes next
  else if c = '\\' then .continues { next with within := .escaped }
  else if c.toNat < 0x20 then .fails .controlCharacter (s.index + 1)
  else .continues (next.push c)

/-- A character after a backslash. -/
def Scan.escape (s : Scan) (c : Char) : Scan.Outcome :=
  let next := { s with index := s.index + c.utf8Size }
  if c = 'u' then .continues { next with within := .hex 0 0 }
  else
    match shortEscape? c with
    | some d => .continues (next.push d)
    | none => .fails .invalidEscape (s.index + 1)

/-- One step of the scan; `following` are the characters after `c`. An escape has four digits, and
their number is found wanting before their form is. -/
def Scan.step (s : Scan) (c : Char) (following : List Char) : Scan.Outcome :=
  match s.within with
  | .plain =>
    if s.lead.isSome && c ≠ '\\' then (s.flawed .hexEnd (s.index + 1)).plain c else s.plain c
  | .escaped =>
    if s.lead.isSome && c ≠ 'u' then (s.flawed .hexEnd (s.index + 1)).escape c else s.escape c
  | .hex count value =>
    match hexDigit? c with
    | some d =>
      let next := { s with index := s.index + 1 }
      if count = 3 then .continues (next.codePoint (16 * value + d))
      else .continues { next with within := .hex (count + 1) (16 * value + d) }
    | none =>
      let left := byteCount (c :: following.take 4)
      if 4 - count ≤ left then .fails .invalidEscape (s.index + (4 - count))
      else .fails .eofString (s.index + left)

/-- The rest of a quoted text after its opening quote: the lexeme, and what follows it. -/
def scanText (start : Nat) (s : Scan) : List Char → Lexeme × List Char
  | [] => (⟨.bad .eofString s.index, true, start, s.index⟩, [])
  | c :: cs =>
    match s.step c cs with
    | .continues s => scanText start s cs
    | .fails f i => (⟨.bad f i, true, start, i⟩, cs)
    | .closes s =>
      let kind := match s.flaw with
        | some (f, i) => .unusable f i
        | none => .value (.str (String.ofList s.text.reverse))
      (⟨kind, true, start, s.index⟩, cs)

/-! ### Words and numerals -/

/-- The rest of a word that stands for a value. -/
def scanWord (start : Nat) (j : Json) : List Char → Nat → List Char → Lexeme × List Char
  | [], index, cs => (⟨.value j, false, start, index⟩, cs)
  | _ :: _, index, [] => (⟨.bad .eofValue index, false, start, index⟩, [])
  | w :: ws, index, c :: cs =>
    if c = w then scanWord start j ws (index + 1) cs
    else (⟨.bad .expectedIdent (index + 1), false, start, index + 1⟩, cs)

/-- The exponent of a numeral: its sign and digits, the rest and the number of bytes read, or what
is wrong with it. -/
def scanExponent (cs : List Char) (index : Nat) :
    Except (Fault × Nat) (Option (Bool × List Char) × List Char × Nat) :=
  match cs with
  | [] => .ok (none, cs, index)
  | e :: rest =>
    if e = 'e' || e = 'E' then
      let (negative, ds, index) := match rest with
        | '-' :: ds => (true, ds, index + 2)
        | '+' :: ds => (false, ds, index + 2)
        | ds => (false, ds, index + 1)
      let digits := ds.takeWhile isDigit
      if digits.isEmpty then
        .error (if ds.isEmpty then (.eofValue, index) else (.invalidNumber, index + 1))
      else .ok (some (negative, digits), ds.drop digits.length, index + digits.length)
    else .ok (none, cs, index)

/-- The fraction of a numeral: its digits, the rest and the number of bytes read, or what is wrong
with it. -/
def scanFraction (cs : List Char) (index : Nat) :
    Except (Fault × Nat) (Option (List Char) × List Char × Nat) :=
  match cs with
  | '.' :: ds =>
    let digits := ds.takeWhile isDigit
    if digits.isEmpty then
      .error (if ds.isEmpty then (.eofValue, index + 1) else (.invalidNumber, index + 2))
    else .ok (some digits, ds.drop digits.length, index + 1 + digits.length)
  | _ => .ok (none, cs, index)

/-- The digits before the point: a zero alone, or digits that do not start with zero. -/
def scanWhole (cs : List Char) (index : Nat) :
    Except (Fault × Nat) (List Char × List Char × Nat) :=
  match cs with
  | [] => .error (.eofValue, index)
  | c :: rest =>
    let digits := cs.takeWhile isDigit
    if digits.isEmpty then .error (.invalidNumber, index + 1)
    else if c = '0' then
      if digits.length = 1 then .ok (digits, rest, index + 1)
      else .error (.invalidNumber, index + 2)
    else .ok (digits, cs.drop digits.length, index + digits.length)

/-- A numeral: the numeral, the rest and the number of bytes read, or what is wrong with it. -/
def scanNumeral (cs : List Char) (index : Nat) :
    Except (Fault × Nat) (Numeral × List Char × Nat) := do
  let (negative, cs, index) := match cs with
    | '-' :: rest => (true, rest, index + 1)
    | _ => (false, cs, index)
  let (whole, cs, index) ← scanWhole cs index
  let (fraction, cs, index) ← scanFraction cs index
  let (exponent, cs, index) ← scanExponent cs index
  .ok (⟨negative, whole, fraction, exponent⟩, cs, index)

/-- The lexeme of a numeral. -/
def lexNumeral (start : Nat) (cs : List Char) : Lexeme × List Char :=
  match scanNumeral cs start with
  | .error (f, i) => (⟨.bad f i, false, start, i⟩, [])
  | .ok (n, rest, index) =>
    let kind := match n.value with
      | some v => .value (.num v)
      | none => .unusable .outOfRange index
    (⟨kind, false, start, index⟩, rest)

/-! ### Texts -/

/-- The sign that a character is. -/
def sign? (c : Char) : Option Sign :=
  if c = '[' then some .openList
  else if c = ']' then some .closeList
  else if c = '{' then some .openObject
  else if c = '}' then some .closeObject
  else if c = ':' then some .colon
  else if c = ',' then some .comma
  else none

/-- The lexeme that starts with a given character, and what follows it. -/
def lexOne (start : Nat) (c : Char) (cs : List Char) : Lexeme × List Char :=
  match sign? c with
  | some s => (⟨.sign s, false, start, start + 1⟩, cs)
  | none =>
    if c = '"' then scanText start ⟨.plain, none, [], start + 1, none⟩ cs
    else if c = 'n' then scanWord start .null "ull".toList (start + 1) cs
    else if c = 't' then scanWord start (.bool true) "rue".toList (start + 1) cs
    else if c = 'f' then scanWord start (.bool false) "alse".toList (start + 1) cs
    else if c = '-' || isDigit c then lexNumeral start (c :: cs)
    else (⟨.bad .expectedValue (start + 1), false, start, start + 1⟩, cs)

/-- Whether a character may stand between lexemes. -/
def isSpace (c : Char) : Bool := c = ' ' || c = '\n' || c = '\t' || c = '\r'

/-- The lexemes of a text, of which `index` bytes come earlier; `fuel` bounds their number. -/
def lexFrom : Nat → Nat → List Char → List Lexeme
  | 0, _, _ => []
  | _ + 1, _, [] => []
  | fuel + 1, index, c :: cs =>
    if isSpace c then lexFrom fuel (index + 1) cs
    else
      let (l, rest) := lexOne index c cs
      match l.kind with
      | .bad _ _ => [l]
      | _ => l :: lexFrom fuel l.stop rest

/-- The lexemes of a text. -/
def lexemes (cs : List Char) : List Lexeme := lexFrom cs.length 0 cs

end Agora.Json
