import Agora.Json.Reader
import Agora.Settings.Convert
import Agora.Settings.EnvFile
import Agora.Settings.Environment
import Agora.Settings.Files
import Agora.Toml.Reader

/-!
Loading settings. Over the defaults lie the settings of a file, and over those the ones in the
environment. What results must keep the rules.
-/

namespace Agora.Settings

/-- Why settings cannot be loaded: the file at a path is not well formed, a value does not fit, or a
rule is broken. -/
inductive LoadError where
  | unreadable (path : String)
  | complaint (c : Complaint)
  | broken (r : Rule)
  deriving DecidableEq, Repr

/-- The words for an error; of a file that is not well formed only the path is told. -/
def LoadError.message : LoadError → String
  | .unreadable path => path
  | .complaint c => "failed to load configuration: " ++ c.message
  | .broken r => "invalid configuration: " ++ r.message

/-! ### Values from files -/

mutual

/-- A TOML value as a value of settings that comes from a file. -/
def ofToml (origin : Option String) : Toml → Value
  | .text s => .leaf origin (.text s)
  | .int i => .leaf origin (.int i)
  | .real x => .leaf origin (.real x)
  | .bool b => .leaf origin (.flag b)
  | .time s => .leaf origin (.text s)
  | .list items => .list origin (ofTomlItems origin items)
  | .table entries => .table origin (ofTomlEntries origin entries)

/-- TOML values as values of settings. -/
def ofTomlItems (origin : Option String) : List Toml → List Value
  | [] => []
  | v :: vs => ofToml origin v :: ofTomlItems origin vs

/-- Entries of a TOML table as entries of settings. -/
def ofTomlEntries (origin : Option String) : List (String × Toml) → List (String × Value)
  | [] => []
  | (k, v) :: es => (k, ofToml origin v) :: ofTomlEntries origin es

end

/-- A JSON number as a value of settings. Integers of 64 bits stay what they are, those that are too
large for a sign among them. -/
def ofNumber : Number → Scalar
  | .int i => .int i
  | .real x => .real x

mutual

/-- A JSON value as a value of settings that comes from a file. -/
def ofJson (origin : Option String) : Json → Value
  | .null => .leaf origin .nothing
  | .bool b => .leaf origin (.flag b)
  | .num n => .leaf origin (ofNumber n)
  | .str s => .leaf origin (.text s)
  | .arr items => .list origin (ofJsonItems origin items)
  | .obj members => .table origin (ofJsonMembers origin members [])
  | .spoilt => .leaf origin .nothing
  | .gap => .leaf origin .nothing

/-- JSON values as values of settings. -/
def ofJsonItems (origin : Option String) : List Json → List Value
  | [] => []
  | j :: js => ofJson origin j :: ofJsonItems origin js

/-- Members of a JSON object added to entries; a later member replaces an earlier one. -/
def ofJsonMembers (origin : Option String) :
    List (String × Json) → List (String × Value) → List (String × Value)
  | [], es => es
  | (k, j) :: ms, es => ofJsonMembers origin ms (Value.put k (ofJson origin j) es)

end

/-- The settings in the text of a file, or nothing if it is not well formed. -/
def Host.parse (host : Host) (f : FileFormat) (origin content : String) :
    Option (List (String × Value)) :=
  match f with
  | .toml => (Toml.read? content).map (ofTomlEntries (some origin))
  | .json =>
    match Json.parse? content with
    | some (.obj members) => some (ofJsonMembers (some origin) members [])
    | _ => none
  | f => (host.foreign f content).map fun members => ofJsonMembers (some origin) members []

/-! ### Files -/

/-- A file of settings: its path as it is told, its format and its content. -/
structure Source where
  path : String
  format : FileFormat
  content : String

/-- A content without the byte order mark at its start. -/
def withoutMark (s : String) : String :=
  match s.toList with
  | '\uFEFF' :: cs => String.ofList cs
  | _ => s

/-- The file for a path. A file with just this path counts if its extension is known; where there is
no such file, the extensions are tried in turn behind the path. -/
def Host.source? (host : Host) (path : String) : Option Source :=
  let cs := host.absolute path.toList
  match host.read? cs with
  | some content =>
    ((Files.extension? cs).bind FileFormat.ofExtension?).map fun f =>
      ⟨host.told cs, f, withoutMark content⟩
  | none =>
    host.tried.findSome? fun f => f.extensions.findSome? fun extension => do
      let longer ← Files.extend? extension cs
      let content ← host.read? longer
      some ⟨host.told longer, f, withoutMark content⟩

/-- The settings in the file for a path. A file that is not there has none. -/
def fromFile (host : Host) (path : String) : Except LoadError (List (String × Value)) :=
  match host.source? path with
  | none => .ok []
  | some source =>
    match host.parse source.format source.path source.content with
    | some entries => .ok entries
    | none => .error (.unreadable source.path)

/-! ### Loading -/

/-- The settings in the file for a path and in an environment. -/
def loadFrom (host : Host) (env : List (String × String)) (path : String) :
    Except LoadError Settings := do
  let entries ← fromFile host path
  match ofValue (assemble [entries, fromEnvironment env]) with
  | .error c => .error (.complaint c)
  | .ok s =>
    match s.broken? with
    | some r => .error (.broken r)
    | none => .ok s

/-- The path of the file that is read where the environment does not name another. -/
def defaultPath : String := "config/rusty-reddit"

/-- The name of the file of variables that is read before the environment is looked at. -/
def variableFile : String := ".env"

/-- The settings of a run: the nearest file of variables adds to the environment, which may name the
file of settings. -/
def load (host : Host) (env : List (String × String)) : Except LoadError Settings :=
  let env := match host.nearest? variableFile host.homeNames.reverse with
    | some content => EnvFile.load env content
    | none => env
  loadFrom host env ((EnvFile.valueOf env fileVariable).getD defaultPath)

end Agora.Settings
