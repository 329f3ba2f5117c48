import Agora.Decimal.Layout
import Agora.Json.Basic
import Agora.Table
import Agora.Text.Quoted
import Agora.Timestamp.Text

/-!
Values out of JSON. A decoder turns a JSON value into a value of some type, or says what it found
in place of what it expected. Where the value holds a gap or a spoilt place, the text it was read
from is to blame and not the value.
-/

namespace Agora.Json

/-- Why a JSON value is not of a type. -/
inductive Mismatch where
  | wrongType (found expected : String)
  | wrongValue (found expected : String)
  | wrongLength (length : Nat) (expected : String)
  | missing (field : String)
  | duplicate (field : String)
  | unknownVariant (name : String) (known : List String)
  | wrongTime (error : Timestamp.ReadError)
  deriving DecidableEq, Repr

/-- A name between grave accents. -/
def accented (s : String) : String := "`" ++ s ++ "`"

/-- The words for a mismatch. -/
def Mismatch.message : Mismatch → String
  | .wrongType found expected => "invalid type: " ++ found ++ ", expected " ++ expected
  | .wrongValue found expected => "invalid value: " ++ found ++ ", expected " ++ expected
  | .wrongLength n expected => "invalid length " ++ Decimal.text n ++ ", expected " ++ expected
  | .missing field => "missing field " ++ accented field
  | .duplicate field => "duplicate field " ++ accented field
  | .unknownVariant name known =>
    "unknown variant " ++ accented name ++ ", expected one of " ++
      ", ".intercalate (known.map accented)
  | .wrongTime error => error.message

/-- Why decoding fails: the value is of the wrong kind, or the text it comes from broke off, stands
for no value, or goes on behind the value. -/
inductive Problem where
  | mismatch (m : Mismatch)
  | brokenOff
  | spoilt
  | surplus
  deriving DecidableEq, Repr

/-- A decoder for values of a type. -/
abbrev Decoder (α : Type) := Json → Except Problem α

/-- What a message says that it found. -/
def describe : Json → String
  | .null => "null"
  | .bool b => "boolean " ++ accented (if b then "true" else "false")
  | .num (.int i) => "integer " ++ accented (Decimal.signedText i)
  | .num (.real x) => "floating point " ++ accented (Decimal.Layout.exchange.writeFloat x)
  | .str s => "string " ++ Text.quoted s
  | .arr _ => "sequence"
  | .obj _ => "map"
  | .spoilt => ""
  | .gap => ""

/-- The problem with a value that is not of the expected type. -/
def unexpected (expected : String) : Json → Problem
  | .gap => .brokenOff
  | .spoilt => .spoilt
  | j => .mismatch (.wrongType j.describe expected)

namespace Decoder

/-- A text. -/
def text : Decoder String
  | .str s => .ok s
  | j => .error (unexpected "a string" j)

/-- A truth value. -/
def bool : Decoder Bool
  | .bool b => .ok b
  | j => .error (unexpected "a boolean" j)

/-- An integer between two bounds; other integers are of the right type but of no use. -/
def intBetween (low high : Int) (expected : String) : Decoder Int
  | .num (.int i) =>
    if low ≤ i ∧ i ≤ high then .ok i
    else .error (.mismatch (.wrongValue (Json.int i).describe expected))
  | j => .error (unexpected expected j)

/-- A signed 64-bit integer. -/
def int64 : Decoder Int64 := fun j =>
  (intBetween (-0x8000000000000000) 0x7fffffffffffffff "i64" j).map Int64.ofInt

/-- An unsigned 64-bit integer. -/
def uint64 : Decoder UInt64 := fun j =>
  (intBetween 0 0xffffffffffffffff "usize" j).map fun i => i.toNat.toUInt64

/-- A point in time. -/
def instant : Decoder Timestamp
  | .str s =>
    match Timestamp.read s.toList with
    | .ok t => .ok t
    | .error e => .error (.mismatch (.wrongTime e))
  | j => .error (unexpected "an RFC 3339 formatted date and time string" j)

/-- A value, or `null` for none. -/
def optional (d : Decoder α) : Decoder (Option α)
  | .null => .ok none
  | j => (d j).map some

/-- A list, item by item. -/
def list (d : Decoder α) : Decoder (List α)
  | .arr items => items.mapM d
  | j => .error (unexpected "a sequence" j)

/-- A table; a later member takes the place of an earlier one with its name. -/
def table (d : Decoder α) : Decoder (Table α)
  | .obj members =>
    (members.mapM fun m => (d m.2).map fun a => (m.1, a)).map Table.ofList
  | j => .error (unexpected "a map" j)

/-- A set of ids. -/
def ids : Decoder IdSet := fun j => (list text j).map IdSet.ofIds

end Decoder

end Agora.Json
