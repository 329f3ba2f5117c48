import Agora.Decimal.Read
import Agora.Settings.Path
import Agora.Text.Case
import Agora.Text.Pieces

/-!
Settings from environment variables. The name of a variable, in any case, is the program's prefix
and a path whose names stand between double underscores. Its value is a truth value, an integer, a
number or a text, whichever it can be read as first.
-/

namespace Agora.Settings

open Text Decimal

/-- The name that the program's variables begin with. -/
def variablePrefix : String := "RUSTY_REDDIT"

/-- The variable that names the file to read settings from. -/
def fileVariable : String := "RUSTY_REDDIT_CONFIG"

/-- What stands between the names in a variable's name. -/
def separator : String := "__"

/-- What messages call the environment. -/
def environmentOrigin : String := "the environment"

/-- A text with points in place of double underscores. -/
def pointed : List Char → List Char
  | '_' :: '_' :: rest => '.' :: pointed rest
  | c :: rest => c :: pointed rest
  | [] => []

/-- The key that a variable sets, if it is one of the program's. -/
def keyOf? (name : String) : Option String :=
  (stripStart? (lower (variablePrefix ++ separator)).toList (lower name).toList).map fun rest =>
    String.ofList (pointed rest)

/-- The value of a variable. -/
def readScalar (s : String) : Scalar :=
  if lower s = "true" then .flag true
  else if lower s = "false" then .flag false
  else
    match readInt64 s with
    | some i => .int i
    | none =>
      match readFloat s with
      | some x => .real x
      | none => .text s

/-- The settings in an environment. -/
def fromEnvironment (env : List (String × String)) : List (String × Value) :=
  env.filterMap fun v =>
    (keyOf? v.1).map fun key => (key, .leaf (some environmentOrigin) (readScalar v.2))

end Agora.Settings
