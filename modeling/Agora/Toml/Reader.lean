import Agora.Toml.Basic
import Agora.Toml.Scalar
import Agora.Toml.Text

/-!
Reading a TOML document: lines with a key and a value, with a header, or with nothing, each with a
comment behind it if there is one. A document that is not well formed, or that defines a name twice,
has no value.
-/

namespace Agora.Toml

open Text

/-- The rest after a comment, if one stands there. -/
def skipComment : List Char → List Char
  | '#' :: cs => cs.dropWhile isPlain
  | cs => cs

/-- The rest after white space, comments and line breaks. -/
def skipFiller : Nat → List Char → List Char
  | 0, cs => cs
  | fuel + 1, cs =>
    let rest := skipComment (skipGap cs)
    match newline? rest with
    | some rest => skipFiller fuel rest
    | none => rest

/-- The rest after the end of a line. -/
def endLine (cs : List Char) : Option (List Char) :=
  match skipComment (skipGap cs) with
  | [] => some []
  | rest => newline? rest

mutual

/-- A value and the rest; containers may be nested up to `depth`. -/
def readValue : Nat → Nat → List Char → Option (Toml × List Char)
  | 0, _, _ => none
  | fuel + 1, depth, cs =>
    match readText? cs with
    | some r => r.map fun r => (.text r.1, r.2)
    | none =>
      match cs, depth with
      | '[' :: _, 0 => none
      | '{' :: _, 0 => none
      | '[' :: rest, depth + 1 => readItems fuel depth [] (skipFiller rest.length rest)
      | '{' :: rest, depth + 1 => readMembers fuel depth [] (skipFiller rest.length rest)
      | cs, _ =>
        let (run, rest) := takeRun cs
        (readScalar run).map fun v => (v, rest)

/-- The items of a list, newest first, up to its closing bracket. -/
def readItems : Nat → Nat → List Toml → List Char → Option (Toml × List Char)
  | 0, _, _, _ => none
  | _, _, items, ']' :: rest => some (.list items.reverse, rest)
  | fuel + 1, depth, items, cs =>
    match readValue fuel depth cs with
    | none => none
    | some (v, rest) =>
      match skipFiller rest.length rest with
      | ']' :: rest => some (.list (v :: items).reverse, rest)
      | ',' :: rest => readItems fuel depth (v :: items) (skipFiller rest.length rest)
      | _ => none

/-- The members of a table in braces, up to the closing one. -/
def readMembers : Nat → Nat → Entries → List Char → Option (Toml × List Char)
  | 0, _, _, _ => none
  | _, _, es, '}' :: rest => some (.table (closeAll es), rest)
  | fuel + 1, depth, es, cs =>
    match readKey cs with
    | none => none
    | some (key, rest) =>
      match skipFiller rest.length rest with
      | '=' :: rest =>
        match readValue fuel depth (skipFiller rest.length rest) with
        | none => none
        | some (v, rest) =>
          match define v key es, skipFiller rest.length rest with
          | some es, '}' :: rest => some (.table (closeAll es), rest)
          | some es, ',' :: rest => readMembers fuel depth es (skipFiller rest.length rest)
          | _, _ => none
      | _ => none

end

/-- A document so far: the path of the last header, and all entries. -/
structure Draft where
  path : List String
  entries : Entries

/-- The draft after a header, and the rest. `double` headers have two brackets. -/
def readHeader (d : Draft) (double : Bool) (cs : List Char) : Option (Draft × List Char) := do
  let (path, rest) ← readKey (skipGap cs)
  let rest ← match double, rest with
    | true, ']' :: ']' :: rest => some rest
    | false, ']' :: rest => some rest
    | _, _ => none
  let k ← path.getLast?
  let add := if double then openSeries k else openTable k
  let entries ← descend add path.dropLast d.entries
  some (⟨path, entries⟩, rest)

/-- The draft after a key with its value, and the rest. -/
def readPair (d : Draft) (cs : List Char) : Option (Draft × List Char) := do
  let (key, rest) ← readKey cs
  match rest with
  | '=' :: rest =>
    let (v, rest) ← readValue (2 * rest.length + 2) depthLimit (skipGap rest)
    let entries ← descend (define v key) d.path d.entries
    some ({ d with entries }, rest)
  | _ => none

/-- Reads line after line. -/
def readLines : Nat → Draft → List Char → Option Entries
  | 0, _, _ => none
  | fuel + 1, d, cs =>
    match skipGap cs with
    | [] => some d.entries
    | c :: cs => do
      let (d, rest) ← match c, cs with
        | '#', _ => some (d, c :: cs)
        | '\n', _ => some (d, c :: cs)
        | '\r', _ => some (d, c :: cs)
        | '[', '[' :: cs => readHeader d true cs
        | '[', _ => readHeader d false cs
        | _, _ => readPair d (c :: cs)
      readLines fuel d (← endLine rest)

/-- The entries of the table that a document is. -/
def read? (s : String) : Option (List (String × Toml)) :=
  let cs := s.toList
  let cs := if cs.head? = some '\uFEFF' then cs.drop 1 else cs
  (readLines (cs.length + 1) ⟨[], []⟩ cs).map closeAll

end Agora.Toml
