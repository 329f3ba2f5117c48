import Agora.Decimal.Layout
import Agora.Decimal.Read
import Agora.Settings.Basic
import Agora.Settings.Value
import Agora.Text.Case
import Agora.Text.Quoted

/-!
Values turned into what a setting needs. Conversions are generous: numbers, truth values and texts
stand for each other wherever that makes sense. What cannot be converted is reported with what was
found, what was expected, for which key, and where it comes from if that is known.
-/

namespace Agora.Settings

open Decimal

/-- Why a value does not fit a setting. -/
inductive Misfit where
  | wrongType (found expected : String)
  | noVariant (type name : String)
  | noChoice (type : String)
  deriving DecidableEq, Repr

/-- The words for a misfit. -/
def Misfit.message : Misfit → String
  | .wrongType found expected => "invalid type: " ++ found ++ ", expected " ++ expected
  | .noVariant type name => "enum " ++ type ++ " does not have variant constructor " ++ name
  | .noChoice type =>
    "value of enum " ++ type ++
      " should be represented by either string or table with exactly one key"

/-- A misfit, the key at which it was found, and the origin of the value if it is told. -/
structure Complaint where
  misfit : Misfit
  key : String
  origin : Option String
  deriving DecidableEq, Repr

/-- The words for a complaint. -/
def Complaint.message (c : Complaint) : String :=
  let origin := match c.origin with
    | some o => " in " ++ o
    | none => ""
  c.misfit.message ++ " for key `" ++ c.key ++ "`" ++ origin

/-! ### Conversions -/

/-- What a conversion finds in a value that it cannot use. -/
def found : Value → String
  | .leaf _ .nothing => "unit value"
  | .leaf _ (.flag b) => "boolean `" ++ (if b then "true" else "false") ++ "`"
  | .leaf _ (.int i) => "64-bit integer `" ++ signedText i ++ "`"
  | .leaf _ (.real x) => "floating point `" ++ Layout.plain.writeFloat x ++ "`"
  | .leaf _ (.text s) => "string " ++ Text.quoted s
  | .list _ _ => "sequence"
  | .table _ _ => "map"

/-- A misfit and the origin that is told with it, before it is known for which key. -/
structure Misplaced where
  misfit : Misfit
  origin : Option String

/-- A conversion of values to a type. -/
abbrev Convert (α : Type) := Value → Except Misplaced α

/-- The failure of a conversion. -/
def unfit (t : Value) (expected : String) : Except Misplaced α :=
  .error ⟨.wrongType (found t) expected, t.origin⟩

/-- The truth value that a word stands for. -/
def word? (s : String) : Option Bool :=
  let s := Text.lower s
  if s ∈ ["true", "on", "yes"] then some true
  else if s ∈ ["false", "off", "no"] then some false
  else none

/-- A text. -/
def toText : Convert String
  | .leaf _ (.text s) => .ok s
  | .leaf _ (.flag b) => .ok (if b then "true" else "false")
  | .leaf _ (.int i) => .ok (signedText i)
  | .leaf _ (.real x) => .ok (Layout.plain.writeFloat x)
  | t => unfit t "a string"

/-- A count. Numbers with a fraction are rounded and brought into range. -/
def toCount : Convert UInt64
  | .leaf o (.int i) =>
    if 0 ≤ i ∧ i < 0x10000000000000000 then .ok i.toNat.toUInt64
    else unfit (.leaf o (.int i)) "an unsigned 64 bit or less integer"
  | .leaf _ (.flag b) => .ok (if b then 1 else 0)
  | .leaf _ (.real x) => .ok (countOf x)
  | .leaf o (.text s) =>
    match word? s with
    | some b => .ok (if b then 1 else 0)
    | none =>
      match readUInt64 s with
      | some n => .ok n
      | none => unfit (.leaf o (.text s)) "an integer"
  | t => unfit t "an integer"

/-- The number nearest to an integer. -/
def nearestTo (i : Int) : Float :=
  let x := nearest i.natAbs 0
  if i < 0 then -x else x

/-- A number. -/
def toNumber : Convert Float
  | .leaf _ (.real x) => .ok x
  | .leaf _ (.int i) => .ok (nearestTo i)
  | .leaf _ (.flag b) => .ok (if b then 1.0 else 0.0)
  | .leaf o (.text s) =>
    match word? s with
    | some b => .ok (if b then 1.0 else 0.0)
    | none =>
      match readFloat s with
      | some x => .ok x
      | none => unfit (.leaf o (.text s)) "a floating point"
  | t => unfit t "a floating point"

/-- A truth value. A text that stands for none is reported in lower case. -/
def toFlag : Convert Bool
  | .leaf _ (.flag b) => .ok b
  | .leaf _ (.int i) => .ok (i ≠ 0)
  | .leaf _ (.real x) => .ok (x != 0.0)
  | .leaf o (.text s) =>
    match word? s with
    | some b => .ok b
    | none =>
      if s = "1" then .ok true
      else if s = "0" then .ok false
      else unfit (.leaf o (.text (Text.lower s))) "a boolean"
  | t => unfit t "a boolean"

/-- A value, or nothing. -/
def toOptional (convert : Convert α) : Convert (Option α)
  | .leaf _ .nothing => .ok none
  | t => (convert t).map some

/-- One of several named choices: a name, or a table whose only key is a name. -/
def toChoice (type : String) (choices : List (String × α)) : Convert α := fun t =>
  let choose (name : String) : Except Misplaced α :=
    match choices.find? (·.1 = name) with
    | some c => .ok c.2
    | none => .error ⟨.noVariant type name, none⟩
  match t with
  | .leaf _ (.text s) => choose s
  | .table _ [(name, _)] => choose name
  | _ => .error ⟨.noChoice type, none⟩

/-! ### Sections -/

/-- What is found in place of a section. Numbers with a fraction always show a point. -/
def foundForSection : Value → String
  | .leaf _ (.int i) => "integer `" ++ signedText i ++ "`"
  | .leaf _ (.real x) => "floating point `" ++ Layout.pointed.writeFloat x ++ "`"
  | t => found t

/-- A section as it was found. Its values are looked up by the name of a setting or by its place
among the settings of the section, and so is the path of a value. -/
structure Found where
  find : String → Nat → Option Value
  path : String → Nat → String

/-- Opens a section. One that is not there at all has no values. -/
def openSection (shape key : String) : Option Value → Except Complaint Found
  | none => .ok ⟨fun _ _ => none, fun name _ => key ++ "." ++ name⟩
  | some (.table _ es) =>
    .ok ⟨fun name _ => Value.find name es, fun name _ => key ++ "." ++ name⟩
  | some (.list _ ts) =>
    .ok ⟨fun _ i => ts[i]?, fun _ i => key ++ "[" ++ text i ++ "]"⟩
  | some t => .error ⟨.wrongType (foundForSection t) ("struct " ++ shape), key, none⟩

/-- The value for a key of a section, which is the `i`th one, or the default. -/
def Found.get (f : Found) (name : String) (i : Nat) (convert : Convert α) (default : α) :
    Except Complaint α :=
  match f.find name i with
  | none => .ok default
  | some t =>
    match convert t with
    | .ok a => .ok a
    | .error m => .error ⟨m.misfit, f.path name i, m.origin⟩

/-- The settings that a tree holds. -/
def ofValue (t : Value) : Except Complaint Settings := do
  let section? (name : String) := Value.find name t.entries
  let default : Settings := {}
  let engine ← openSection "EngineSection" "engine" (section? "engine")
  let name ← engine.get "name" 0 toText default.mailbox.name
  let capacity ← engine.get "mailbox_capacity" 1 toCount default.mailbox.capacity
  let feed ← openSection "FeedSection" "feed" (section? "feed")
  let floor ← feed.get "score_floor_hours" 0 toNumber default.feed.floor
  let defaultLimit ← feed.get "default_limit" 1 (toOptional toCount) default.feed.defaultLimit
  let listen ← openSection "ListenSection" "listen" (section? "listen")
  let address ← listen.get "addr" 0 toText default.listen.address
  let metrics ← openSection "MetricsSection" "metrics" (section? "metrics")
  let enabled ← metrics.get "enabled" 0 toFlag default.metrics.enabled
  let metricsAddress ← metrics.get "addr" 1 toText default.metrics.address
  let log ← openSection "LogSection" "log" (section? "log")
  let formats := [("pretty", LogFormat.pretty), ("json", LogFormat.json)]
  let format ← log.get "format" 0 (toChoice "LogFormat" formats) default.log.format
  let filter ← log.get "filter" 1 toText default.log.filter
  .ok ⟨⟨name, capacity⟩, ⟨floor, defaultLimit⟩, ⟨address⟩, ⟨enabled, metricsAddress⟩,
    ⟨format, filter⟩⟩

end Agora.Settings
