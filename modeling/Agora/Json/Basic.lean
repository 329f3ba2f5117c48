import Agora.Decimal.Layout
import Agora.Text.Hex

/-!
JSON values and their compact text. Besides the values of JSON there are two more leaves, which
only reading produces: a `spoilt` place, where the text is well formed but stands for no value,
and a `gap`, where the reading of a text broke off. Writing puts members in the order in which
they stand and escapes what must be escaped, so the text has no control character, no line feed
among them.
-/

namespace Agora

/-- A number: an integer of at most 64 bits, or a double. -/
inductive Number where
  | int (i : Int)
  | real (x : Float)

/-- A JSON value, with two leaves for what a text failed to say. -/
inductive Json where
  | null
  | bool (b : Bool)
  | num (n : Number)
  | str (s : String)
  | arr (items : List Json)
  | obj (members : List (String × Json))
  | spoilt
  | gap

namespace Json

instance : Inhabited Json := ⟨.null⟩

/-- An integer value. -/
def int (i : Int) : Json := .num (.int i)

/-- A value that may be missing: `null` stands for none. -/
def optional (f : α → Json) : Option α → Json
  | none => .null
  | some a => f a

/-! ### Text -/

/-- A character inside a quoted text. -/
def escape (c : Char) : List Char :=
  if c = '"' then ['\\', '"']
  else if c = '\\' then ['\\', '\\']
  else if c = '\n' then ['\\', 'n']
  else if c = '\r' then ['\\', 'r']
  else if c = '\t' then ['\\', 't']
  else if c = '\x08' then ['\\', 'b']
  else if c = '\x0c' then ['\\', 'f']
  else if c.toNat < 0x20 then '\\' :: 'u' :: Text.hexPlaces 4 c.toNat
  else [c]

/-- A quoted text. -/
def quote (s : String) : List Char := '"' :: (s.toList.flatMap escape ++ ['"'])

/-- The text of a number. -/
def writeNumber : Number → List Char
  | .int i => Decimal.signedDigits i
  | .real x =>
    if x.isNaN || x.isInf then "null".toList else (Decimal.Layout.exchange.writeFloat x).toList

mutual

/-- The compact text of a value. -/
def write : Json → List Char
  | .null => "null".toList
  | .bool b => (if b then "true" else "false").toList
  | .num n => writeNumber n
  | .str s => quote s
  | .arr items => '[' :: (writeItems items ++ [']'])
  | .obj members => '{' :: (writeMembers members ++ ['}'])
  | .spoilt => "null".toList
  | .gap => "null".toList

/-- Values with commas between them. -/
def writeItems : List Json → List Char
  | [] => []
  | [j] => write j
  | j :: js => write j ++ ',' :: writeItems js

/-- Members with commas between them. -/
def writeMembers : List (String × Json) → List Char
  | [] => []
  | [(k, j)] => quote k ++ ':' :: write j
  | (k, j) :: ms => quote k ++ ':' :: (write j ++ ',' :: writeMembers ms)

end

/-- The compact text of a value, as a string. -/
def toText (j : Json) : String := String.ofList j.write

/-! ### Gaps -/

mutual

/-- Whether reading broke off inside a value. -/
def broken : Json → Bool
  | .gap => true
  | .arr items => brokenItems items
  | .obj members => brokenMembers members
  | _ => false

/-- Whether reading broke off inside one of some values. -/
def brokenItems : List Json → Bool
  | [] => false
  | j :: js => broken j || brokenItems js

/-- Whether reading broke off inside one of some members. -/
def brokenMembers : List (String × Json) → Bool
  | [] => false
  | (_, j) :: ms => broken j || brokenMembers ms

end

/-- The value of the first member with a name. -/
def member? (name : String) : List (String × Json) → Option Json
  | [] => none
  | m :: ms => if m.1 = name then some m.2 else member? name ms

end Json

end Agora
