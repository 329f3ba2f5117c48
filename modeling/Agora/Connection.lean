import Agora.Request.Codec
import Agora.Text.Blank

/-!
A client's connection. The client sends lines and gets one line back for each line that is not
blank: the response to the request that the line spells, or an error that says why it spells none.
The connection ends with the input, at a line that is not UTF-8, or when a request gets no response.
-/

namespace Agora.Connection

open Text

/-- The line feed. -/
def lineFeed : UInt8 := 10

/-- The carriage return. -/
def carriageReturn : UInt8 := 13

/-- A line without the carriage return at its end. -/
def dropReturn (bytes : List UInt8) : List UInt8 :=
  if bytes.getLast? = some carriageReturn then bytes.dropLast else bytes

/-- The lines of a stream of bytes. What stands behind the last line feed is a line if there is
anything. -/
def linesOf (bytes : List UInt8) : List (List UInt8) :=
  match (pieces lineFeed bytes).reverse with
  | [] => []
  | [] :: done => (done.map dropReturn).reverse
  | last :: done => (last :: done.map dropReturn).reverse

/-- The text that bytes are the UTF-8 form of. -/
def decode? (bytes : List UInt8) : Option (List Char) :=
  (String.fromUTF8? ⟨bytes.toArray⟩).map String.toList

/-- The texts of lines, up to the first that is not UTF-8. -/
def texts : List (List UInt8) → List (List Char)
  | [] => []
  | line :: lines =>
    match decode? line with
    | some cs => cs :: texts lines
    | none => []

/-- What a line asks for: nothing if it is blank, else a request or a complaint. -/
def read (line : List Char) : Option (Except String Request) :=
  let cs := trim line
  if cs.isEmpty then none
  else
    match Request.ofText cs with
    | .ok r => some (.ok r)
    | .error e => some (.error ("malformed request: " ++ e.message cs))

/-- The line that carries a response. -/
def write (r : Response) : String := r.toJson.toText

/-- Serves lines one after the other. `handle` may leave a request without response. -/
def serve (handle : σ → Request → Option (σ × Response)) (s : σ) : List (List Char) →
    σ × List Response
  | [] => (s, [])
  | line :: lines =>
    match read line with
    | none => serve handle s lines
    | some (.error complaint) =>
      let rest := serve handle s lines
      (rest.1, .error complaint :: rest.2)
    | some (.ok request) =>
      match handle s request with
      | none => (s, [])
      | some (s, response) =>
        let rest := serve handle s lines
        (rest.1, response :: rest.2)

/-- Serves everything a client sends, and the lines it gets back. -/
def run (handle : σ → Request → Option (σ × Response)) (s : σ) (bytes : List UInt8) :
    σ × List String :=
  let r := serve handle s (texts (linesOf bytes))
  (r.1, r.2.map write)

/-- The UTF-8 form of a text. -/
def encode (s : String) : List UInt8 := s.toUTF8.data.toList

/-- Lines as they are sent, each with a line feed behind it. -/
def frame (lines : List String) : List UInt8 := lines.flatMap fun line => encode line ++ [lineFeed]

/-- Serves everything a client sends, and the bytes it gets back. -/
def exchange (handle : σ → Request → Option (σ × Response)) (s : σ) (bytes : List UInt8) :
    σ × List UInt8 :=
  let r := run handle s bytes
  (r.1, frame r.2)

end Agora.Connection
