import Agora.Text.Blank
import Agora.Text.Pieces
import Agora.Text.Word

/-!
Files of variables. An entry is a name, an equals sign and a value, and may run over several lines
where a quote or an escape is open. Reading stops at the first entry that is not well formed; the
entries before it count.

A scan from line to line finds where entries end. Then each entry is read by itself, with variables
in its value replaced by what is known of them at that point.
-/

namespace Agora.Settings.EnvFile

open Text

/-! ### Entries -/

/-- Where the scan for the end of an entry stands. -/
inductive Scan where
  | plain | blank | escape | weak | weakEscape | strong | strongEscape | comment
  deriving DecidableEq, Repr

/-- One step of the scan, with a single character. -/
def Scan.step (s : Scan) (c : Char) : Scan :=
  match s with
  | .comment => .comment
  | .escape => .plain
  | .weakEscape => .weak
  | .strongEscape => .strong
  | .weak => if c = '\\' then .weakEscape else if c = '"' then .plain else .weak
  | .strong => if c = '\\' then .strongEscape else if c = '\'' then .plain else .strong
  | .blank =>
    if c = '#' then .comment
    else if c = '\\' then .escape
    else if c = '"' then .weak
    else if c = '\'' then .strong
    else .plain
  | .plain =>
    if isWhite c && c ≠ '\n' && c ≠ '\r' then .blank
    else if c = '\\' then .escape
    else if c = '"' then .weak
    else if c = '\'' then .strong
    else .plain

/-- Scans a line: the part before a comment, and where the scan stands at the end. -/
def scanLine : Scan → List Char → List Char × Scan
  | s, [] => ([], s)
  | s, c :: cs =>
    match s.step c with
    | .comment => ([], .comment)
    | next =>
      let (kept, last) := scanLine next cs
      (c :: kept, last)

/-- The lines of a text, each with its line feed. -/
def linesOf (cs : List Char) : List (List Char) :=
  match (pieces '\n' cs).reverse with
  | [] => []
  | last :: done =>
    ((if last.isEmpty then [] else [last]) ++ done.map (· ++ ['\n'])).reverse

/-- A text without the end of line at its end. -/
def dropLineEnd (cs : List Char) : List Char :=
  match cs.reverse with
  | '\n' :: '\r' :: rest => rest.reverse
  | '\n' :: rest => rest.reverse
  | _ => cs

/-- The entries that lines make up; `begun` is the part of an entry on earlier lines. An entry that
the text leaves open is none, and ends the list. -/
def entriesFrom : List Char → Scan → List (List Char) → List (Option (List Char))
  | _, .plain, [] => []
  | _, _, [] => [none]
  | begun, s, line :: lines =>
    let all := begun ++ line
    if (trimStart all).head? = some '#' then some [] :: entriesFrom [] .plain lines
    else
      match scanLine s line with
      | (_, .plain) => some (dropLineEnd all) :: entriesFrom [] .plain lines
      | (kept, .comment) => some (begun ++ kept) :: entriesFrom [] .plain lines
      | (_, next) => entriesFrom all next lines

/-! ### Values -/

/-- Whether the reader of a value stands in the name of a variable, with or without braces. -/
inductive Naming where
  | none
  | bare (name : List Char)
  | braced (name : List Char)
  deriving DecidableEq, Repr

/-- The state of the reader of a value; texts are kept newest character first. -/
structure Reader where
  strong : Bool
  weak : Bool
  escaped : Bool
  ended : Bool
  naming : Naming
  text : List Char

/-- The reader at the start of a value. -/
def Reader.start : Reader := ⟨false, false, false, false, .none, []⟩

/-- The reader with some more text. -/
def Reader.push (v : Reader) (cs : List Char) : Reader := { v with text := cs.reverse ++ v.text }

/-- The value of a variable put in the place of its name. -/
def Reader.substitute (known : String → Option String) (v : Reader) (name : List Char) : Reader :=
  { v.push ((known (String.ofList name.reverse)).getD "").toList with naming := .none }

/-- A character inside the name of a variable. -/
def Reader.stepName (known : String → Option String) (v : Reader) (c : Char) : Reader :=
  match v.naming with
  | .none => v
  | .bare name =>
    if isWordChar c then { v with naming := .bare (c :: name) }
    else if c = '{' && name.isEmpty then { v with naming := .braced [] }
    else
      let v := v.substitute known name
      if c = '$' then { v with naming := .bare [] } else v.push [c]
  | .braced name =>
    if c = '}' then v.substitute known name else { v with naming := .braced (c :: name) }

/-- One step of the reader, or nothing if the character may not stand there. A comment after the
value is passed over. -/
def Reader.step (known : String → Option String) (v : Reader) (c : Char) : Option Reader :=
  if v.ended then if isGap c then some v else none
  else if v.escaped then
    if c ∈ ['\\', '\'', '"', '$', ' '] then some { v.push [c] with escaped := false }
    else if c = 'n' then some { v.push ['\n'] with escaped := false }
    else none
  else if v.strong then
    some (if c = '\'' then { v with strong := false } else v.push [c])
  else if v.naming ≠ .none then some (v.stepName known c)
  else if c = '$' then some { v with naming := .bare [] }
  else if v.weak then
    some (if c = '"' then { v with weak := false }
      else if c = '\\' then { v with escaped := true }
      else v.push [c])
  else if c = '\'' then some { v with strong := true }
  else if c = '"' then some { v with weak := true }
  else if c = '\\' then some { v with escaped := true }
  else if isGap c then some { v with ended := true }
  else some (v.push [c])

/-- The reader after a whole value. -/
def Reader.run (known : String → Option String) : Reader → List Char → Option Reader
  | v, [] => some v
  | v, c :: cs =>
    if v.ended && c = '#' then some v
    else
      match v.step known c with
      | some v => v.run known cs
      | none => none

/-- The value that a text spells, if its quotes and braces are closed. -/
def readValue (known : String → Option String) (cs : List Char) : Option String :=
  match Reader.start.run known cs with
  | none => none
  | some v =>
    if v.strong || v.weak then none
    else
      match v.naming with
      | .none => some (String.ofList v.text.reverse)
      | .bare name => some (String.ofList (v.substitute known name).text.reverse)
      | .braced _ => none

/-- Whether a character may stand in the name of a variable, after its start. -/
def isKeyChar (c : Char) : Bool :=
  ('a' ≤ c && c ≤ 'z') || ('A' ≤ c && c ≤ 'Z') || ('0' ≤ c && c ≤ '9') || c = '_' || c = '.'

/-- A name at the start of a text, and the rest after white space. -/
def readName (cs : List Char) : Option (String × List Char) :=
  let name := cs.takeWhile isKeyChar
  match name with
  | [] => none
  | c :: _ =>
    if ('0' ≤ c && c ≤ '9') || c = '.' then none
    else some (String.ofList name, trimStart (cs.dropWhile isKeyChar))

/-- The rest after an equals sign. -/
def afterEquals : List Char → Option (List Char)
  | '=' :: cs => some cs
  | _ => none

/-- The name and the text of the value in an entry. The word `export` may stand before the name. -/
def splitEntry (cs : List Char) : Option (String × List Char) := do
  let (name, rest) ← readName cs
  match afterEquals rest with
  | some value => some (name, trimStart value)
  | none =>
    if name = "export" then do
      let (name, rest) ← readName rest
      let value ← afterEquals rest
      some (name, trimStart value)
    else none

/-! ### Files -/

/-- The value of a variable in an environment. -/
def valueOf (env : List (String × String)) (name : String) : Option String :=
  (env.find? (·.1 = name)).map (·.2)

/-- The environment after an entry, or nothing if it is not well formed. Variables that are set
already keep their values. -/
def addEntry (env : List (String × String)) (entry : List Char) : Option (List (String × String)) :=
  let cs := trimStart (trimEnd entry)
  if cs.isEmpty || cs.head? = some '#' then some env
  else do
    let (name, rest) ← splitEntry cs
    let value ← if rest.isEmpty || rest.head? = some '#' then some ""
      else readValue (valueOf env) rest
    if (valueOf env name).isSome then some env else some (env ++ [(name, value)])

/-- The environment after entries, up to the first that is not well formed. -/
def addEntries (env : List (String × String)) : List (Option (List Char)) → List (String × String)
  | some entry :: entries =>
    match addEntry env entry with
    | some env => addEntries env entries
    | none => env
  | _ => env

/-- The environment after reading a file of variables. -/
def load (env : List (String × String)) (content : String) : List (String × String) :=
  let cs := content.toList
  let cs := if cs.head? = some '\uFEFF' then cs.drop 1 else cs
  addEntries env (entriesFrom [] .plain (linesOf cs))

end Agora.Settings.EnvFile
