import Agora.Text.Blank
import Agora.Text.Hex

/-!
Texts in TOML documents. A text between double quotes has escapes, one between single quotes has
none; between triple quotes a text may have several lines. Readers take what follows the opening
quotes and give the text and the rest, or nothing if the text is not well formed. Their fuel is the
length of what they are given.
-/

namespace Agora.Toml

open Text

/-- How deep a dotted key, or lists and tables inside a value, may lead. -/
def depthLimit : Nat := 80

/-- The rest after a line break. -/
def newline? : List Char → Option (List Char)
  | '\n' :: cs => some cs
  | '\r' :: '\n' :: cs => some cs
  | _ => none

/-- Whether a character may stand in a text or in a comment as it is. -/
def isPlain (c : Char) : Bool := c = '\t' || (0x20 ≤ c.toNat && c.toNat ≠ 0x7F)

/-- The character whose number stands in `count` hexadecimal digits, and the rest. -/
def codePoint (count : Nat) (cs : List Char) : Option (Char × List Char) := do
  let digits ← (cs.take count).mapM hexDigit?
  let n := digits.foldl (fun n d => 16 * n + d) 0
  if digits.length = count ∧ n.isValidChar then some (Char.ofNat n, cs.drop count) else none

/-- The character of an escape after its backslash, and the rest. -/
def escape? : List Char → Option (Char × List Char)
  | [] => none
  | c :: cs =>
    if c = 'b' then some ('\x08', cs)
    else if c = 't' then some ('\t', cs)
    else if c = 'n' then some ('\n', cs)
    else if c = 'f' then some ('\x0c', cs)
    else if c = 'r' then some ('\r', cs)
    else if c = 'e' then some ('\x1b', cs)
    else if c = '"' || c = '\\' then some (c, cs)
    else if c = 'x' then codePoint 2 cs
    else if c = 'u' then codePoint 4 cs
    else if c = 'U' then codePoint 8 cs
    else none

/-- A text, newest character first, and the rest as the outcome of a reader. -/
def finish (done rest : List Char) : Option (String × List Char) :=
  some (String.ofList done.reverse, rest)

/-- A text up to a double quote. -/
def basicText : Nat → List Char → List Char → Option (String × List Char)
  | 0, _, _ => none
  | _, _, [] => none
  | fuel + 1, done, c :: cs =>
    if c = '"' then finish done cs
    else if c = '\\' then
      match escape? cs with
      | some (d, rest) => basicText fuel (d :: done) rest
      | none => none
    else if isPlain c then basicText fuel (c :: done) cs
    else none

/-- A text up to a single quote. -/
def literalText : List Char → List Char → Option (String × List Char)
  | _, [] => none
  | done, c :: cs =>
    if c = '\'' then finish done cs
    else if isPlain c then literalText (c :: done) cs
    else none

/-- The rest after white space and line breaks. -/
def skipSpace : List Char → List Char
  | ' ' :: cs => skipSpace cs
  | '\t' :: cs => skipSpace cs
  | '\n' :: cs => skipSpace cs
  | '\r' :: '\n' :: cs => skipSpace cs
  | cs => cs

/-- The rest after an escaped line break: all white space and all line breaks that follow. -/
def skipBreak (cs : List Char) : Option (List Char) := (newline? (skipGap cs)).map skipSpace

/-- Quotes inside or at the end of a text between triple quotes, of which `count` stand in a row:
up to two are part of the text, and three more close it. -/
def closes (quote : Char) (count : Nat) (done cs : List Char) : Option (String × List Char) :=
  if count ≤ 5 then finish (List.replicate (count - 3) quote ++ done) (cs.drop count) else none

/-- A text up to three double quotes, or three single quotes if there are no escapes. -/
def longText (quote : Char) : Nat → List Char → List Char → Option (String × List Char)
  | 0, _, _ => none
  | _, _, [] => none
  | fuel + 1, done, c :: cs =>
    if c = quote then
      let count := ((c :: cs).takeWhile (· = quote)).length
      if 3 ≤ count then closes quote count done (c :: cs)
      else longText quote fuel (c :: done) cs
    else if c = '\\' && quote = '"' then
      match skipBreak cs with
      | some rest => longText quote fuel done rest
      | none =>
        match escape? cs with
        | some (d, rest) => longText quote fuel (d :: done) rest
        | none => none
    else if isPlain c || (newline? (c :: cs)).isSome then longText quote fuel (c :: done) cs
    else none

/-- A text between triple quotes, without the line break right after the opening ones. Line breaks
inside stay as they are written. -/
def readLong (quote : Char) (cs : List Char) : Option (String × List Char) :=
  longText quote (cs.length + 1) [] ((newline? cs).getD cs)

/-- A quoted text of either kind, or nothing. -/
def readText? : List Char → Option (Option (String × List Char))
  | '"' :: '"' :: '"' :: cs => some (readLong '"' cs)
  | '"' :: cs => some (basicText (cs.length + 1) [] cs)
  | '\'' :: '\'' :: '\'' :: cs => some (readLong '\'' cs)
  | '\'' :: cs => some (literalText [] cs)
  | _ => none

/-! ### Keys -/

/-- Whether a character may stand in a key without quotes. -/
def isBare (c : Char) : Bool :=
  ('a' ≤ c && c ≤ 'z') || ('A' ≤ c && c ≤ 'Z') || ('0' ≤ c && c ≤ '9') || c = '_' || c = '-'

/-- A key without dots. -/
def readName : List Char → Option (String × List Char)
  | '"' :: cs => basicText (cs.length + 1) [] cs
  | '\'' :: cs => literalText [] cs
  | cs =>
    let name := cs.takeWhile isBare
    if name.isEmpty then none else some (String.ofList name, cs.dropWhile isBare)

/-- A dotted key of at most `count` names, and the rest without the gap at its start. -/
def readNames : Nat → List Char → Option (List String × List Char)
  | 0, _ => none
  | count + 1, cs => do
    let (name, rest) ← readName cs
    match skipGap rest with
    | '.' :: rest =>
      let (names, rest) ← readNames count (skipGap rest)
      some (name :: names, rest)
    | rest => some ([name], rest)

/-- The names of a dotted key, of which there is a bounded number, and the rest without the gap
at its start. -/
def readKey (cs : List Char) : Option (List String × List Char) := readNames depthLimit cs

end Agora.Toml
