import Agora.Decimal.Digits
import Agora.Settings.Value
import Agora.Text.Blank

/-!
Paths to settings. A path is a name followed by further names after points and by indices in
brackets, as in `engine.name` or `list[-1]`. A text that is no path is a name as a whole.
-/

namespace Agora.Settings

open Value Decimal Text

/-- Whether a character may stand in a name of a path. -/
def isNameChar (c : Char) : Bool :=
  ('a' ≤ c && c ≤ 'z') || ('A' ≤ c && c ≤ 'Z') || isDigit c || c = '_' || c = '-'

/-- A name at the start of a text, and the rest. -/
def takeName (cs : List Char) : Option (String × List Char) :=
  let name := cs.takeWhile isNameChar
  if name.isEmpty then none else some (String.ofList name, cs.dropWhile isNameChar)

/-- An index and its closing bracket at the start of a text, and the rest. Gaps may stand around
the index. -/
def takeIndex (cs : List Char) : Option (Int × List Char) :=
  let (negative, cs) := match skipGap cs with
    | '-' :: rest => (true, rest)
    | rest => (false, rest)
  let ds := cs.takeWhile isDigit
  let i : Int := if negative then -(ofDigits ds) else ofDigits ds
  match ds, skipGap (cs.dropWhile isDigit) with
  | _ :: _, ']' :: rest =>
    if -0x8000000000000000 ≤ i ∧ i < 0x8000000000000000 then some (i, rest) else none
  | _, _ => none

/-- The steps that a text spells after the first name; `fuel` bounds their number. -/
def readParts : Nat → List Char → Option (List Part)
  | _, [] => some []
  | 0, _ => none
  | fuel + 1, c :: cs =>
    if c = '.' then do
      let (name, rest) ← takeName cs
      let parts ← readParts fuel rest
      some (.entry name :: parts)
    else if c = '[' then do
      let (i, rest) ← takeIndex cs
      let parts ← readParts fuel rest
      some (.item i :: parts)
    else none

/-- The path that a text spells. -/
def readPath? (s : String) : Option (List Part) := do
  let (name, rest) ← takeName s.toList
  let parts ← readParts rest.length rest
  some (.entry name :: parts)

/-- The path for a key: what it spells, or the key itself as a name. -/
def pathOf (key : String) : List Part := (readPath? key).getD [.entry key]

/-- A tree with the entries of a source laid over it, each where its key leads. -/
def layer (below : Value) (source : List (String × Value)) : Value :=
  source.foldl (fun t e => alterPath (pathOf e.1) (overlay e.2) t) below

/-- The tree that sources make up; later ones lie over earlier ones. -/
def assemble (sources : List (List (String × Value))) : Value :=
  sources.foldl layer (.table none [])

end Agora.Settings
