import Agora.Json.Reader
import Agora.Json.Record

/-!
Values of several variants out of JSON. The variant is named by a tag: the member `type` of an
object, wherever it stands, or the first item of a list. The tag is looked for while the text is
read, so a problem with it has a place in the text; the rest is looked at once the text has been
read as far as the value goes, so a problem there has none. Only then comes what follows the value.
-/

namespace Agora.Json

/-- Why a text is refused. The index is the number of bytes read when the problem showed. -/
inductive Refusal where
  | fault (f : Fault) (index : Nat)
  | mismatch (m : Mismatch) (index : Option Nat)
  deriving DecidableEq, Repr

namespace Tagged

/-- The name of the tag. -/
def tagName : String := "type"

/-- The tag of a variant: its name in small letters, with a low line before each word but the
first. -/
def tagOf (variant : String) : String :=
  match variant.toList with
  | [] => ""
  | c :: cs =>
    String.ofList (c.toLower :: cs.flatMap fun d => if d.isUpper then ['_', d.toLower] else [d])

/-- Variants by the name of their tag, and what messages call the whole type. -/
structure Variants (α : Type) where
  shape : String
  list : List (String × Decoder α)

/-- The names of all variants. -/
def Variants.names (v : Variants α) : List String := v.list.map (·.1)

/-- The decoder for the variant with a name. -/
def Variants.decoder? (v : Variants α) (name : String) : Option (Decoder α) :=
  (v.list.find? (·.1 = name)).map (·.2)

/-- A tag and the value without it. -/
structure Split where
  tag : String
  content : Json

/-- The fault of a document. -/
def broken (d : Document) : Refusal :=
  match d.fault with
  | some (f, i) => .fault f i
  | none => .fault .eofValue d.stop

/-- A value read as a tag. A container is refused at its opening bracket. -/
def readTag (d : Document) (names : List String) (m : Mark) : Json → Except Refusal String
  | .str s =>
    if s ∈ names then .ok s else .error (.mismatch (.unknownVariant s names) (some m.stop))
  | .gap => .error (broken d)
  | .spoilt => .error (broken d)
  | j =>
    let index := match j with
      | .arr _ => m.start
      | .obj _ => m.start
      | _ => m.stop
    .error (.mismatch (.wrongType j.describe "variant identifier") (some index))

/-- Goes through the members of an object with their marks. -/
def splitMembers (d : Document) (names : List String) :
    Option String → List (String × Json) → List ((String × Json) × Mark) → Except Refusal Split
  | none, _, [] => .error (.mismatch (.missing tagName) (some d.stop))
  | some tag, content, [] => .ok ⟨tag, .obj content.reverse⟩
  | tag, content, ((name, j), mark) :: rest =>
    if name = tagName then
      match tag with
      | some _ => .error (.mismatch (.duplicate tagName) (some mark.colon))
      | none =>
        match readTag d names mark j with
        | .ok tag => splitMembers d names (some tag) content rest
        | .error e => .error e
    else if j.broken then .error (broken d)
    else splitMembers d names tag ((name, j) :: content) rest

/-- Takes the tag off a document. -/
def split (shape : String) (names : List String) (d : Document) : Except Refusal Split :=
  match d.root with
  | .obj members => splitMembers d names none [] (members.zip d.marks)
  | .arr items =>
    match items, d.marks with
    | tag :: items, mark :: _ =>
      match readTag d names mark tag with
      | .ok tag => if brokenItems items then .error (broken d) else .ok ⟨tag, .arr items⟩
      | .error e => .error e
    | _, _ => .error (.mismatch (.missing tagName) (some d.stop))
  | .gap => .error (broken d)
  | .spoilt => .error (broken d)
  | j => .error (.mismatch (.wrongType j.describe shape) (some d.stop))

/-- The value that a document stands for. -/
def Variants.decode (v : Variants α) (d : Document) : Except Refusal α :=
  match split v.shape v.names d with
  | .error e => .error e
  | .ok s =>
    match v.decoder? s.tag with
    | none => .error (.mismatch (.unknownVariant s.tag v.names) none)
    | some decoder =>
      match decoder s.content with
      | .error (.mismatch m) => .error (.mismatch m none)
      | .error _ => .error (broken d)
      | .ok a =>
        match d.fault with
        | some (f, i) => .error (.fault f i)
        | none => .ok a

end Tagged

/-! ### Documents and messages -/

/-- The document of a value that was not read from a text. -/
def Document.ofJson (j : Json) : Document :=
  let count := match j with
    | .obj members => members.length
    | .arr items => items.length
    | _ => 0
  ⟨j, 0, List.replicate count ⟨0, 0, 0⟩, none⟩

/-- The line and the column of a place in a text, given by the number of bytes before it; lines are
counted from one, and a column is the number of bytes since the line began. -/
def place (cs : List Char) (index : Nat) : Nat × Nat :=
  (cs.foldl
    (fun (s : Nat × Nat × Nat) c =>
      let (read, line, column) := s
      if index ≤ read then s
      else if c = '\n' then (read + 1, line + 1, 0)
      else (read + c.utf8Size, line, min (column + c.utf8Size) (column + (index - read))))
    (0, 1, 0)).2

/-- The words for a refusal of a text. -/
def Refusal.message (cs : List Char) : Refusal → String
  | .fault f i => f.message ++ whereIs i
  | .mismatch m (some i) => m.message ++ whereIs i
  | .mismatch m none => m.message
where
  whereIs (i : Nat) : String :=
    let (line, column) := place cs i
    " at line " ++ Decimal.text line ++ " column " ++ Decimal.text column

end Agora.Json
