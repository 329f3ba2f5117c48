import Agora.Json.Basic
import Agora.Text.Pieces

/-!
Finding files on a host. A path that does not begin at the root begins at the working directory. It
may have dots, double dots and repeated slashes; a double dot leads back only from a directory that
is there, and at the root nowhere. Directories are the working directory, whatever it is below, and
whatever a file is below. An extension is what stands after the last dot of a name.
-/

namespace Agora.Settings

open Text

/-- The ways in which files of settings are written. -/
inductive FileFormat where
  | toml | json | yaml | ini | ron | json5
  deriving DecidableEq, Repr

namespace FileFormat

/-- The extensions of files in a format. -/
def extensions : FileFormat → List String
  | .toml => ["toml"]
  | .json => ["json"]
  | .yaml => ["yaml", "yml"]
  | .ini => ["ini"]
  | .ron => ["ron"]
  | .json5 => ["json5"]

/-- All formats. -/
def all : List FileFormat := [.toml, .json, .yaml, .ini, .ron, .json5]

/-- The format with an extension. -/
def ofExtension? (extension : String) : Option FileFormat :=
  all.find? fun f => extension ∈ f.extensions

end FileFormat

/-- What settings are loaded from: a working directory, and files by their paths, which have no
double dots, with their contents. The readers of the formats other than TOML and JSON are a
library's; such a reader is given as what it makes of a content, the members of an object, if the
content is well formed. Where a path has no extension the formats are tried in some order, which the
library does not fix. -/
structure Host where
  home : String := "/"
  files : List (String × String) := []
  foreign : FileFormat → String → Option (List (String × Json)) := fun _ _ => none
  tried : List FileFormat := FileFormat.all
  tried_perm : tried.Perm FileFormat.all := by exact .refl _

namespace Files

/-- The names in a path. -/
def namesOf (path : List Char) : List (List Char) := pieces '/' path

/-- The names in a path that lead somewhere. -/
def steps (path : List Char) : List (List Char) :=
  (namesOf path).filter fun n => n ≠ [] ∧ n ≠ ['.']

/-- Names joined to a path. -/
def join (names : List (List Char)) : List Char := ['/'].intercalate names

/-! ### Extensions -/

/-- A name without its extension, and the extension: what stands after the last dot, if anything
stands before it. -/
def cut (name : List Char) : List Char × Option (List Char) :=
  if name = "..".toList then (name, none)
  else
    match (pieces '.' name).reverse with
    | last :: first :: rest =>
      if rest.isEmpty && first.isEmpty then (name, none)
      else (['.'].intercalate (first :: rest).reverse, some last)
    | _ => (name, none)

/-- The extension of the last name in a path. -/
def extension? (path : List Char) : Option String :=
  ((steps path).getLast?.bind fun n => (cut n).2).map String.ofList

/-- A path with an extension in place of the one that its last name has. What stands behind that
name in the path leads nowhere, and is left out. -/
def replaceExtension? (extension : String) (path : List Char) : Option (List Char) :=
  match (namesOf path).reverse.dropWhile fun n => n = [] ∨ n = ['.'] with
  | [] => none
  | last :: rest =>
    if last = "..".toList then none
    else some (join (((cut last).1 ++ '.' :: extension.toList) :: rest).reverse)

/-- What keeps the place of a second extension. -/
def placeholder : List Char := ".placeholder".toList

/-- A path with an extension behind it. An extension that is there already is kept: a placeholder,
put at the very end of the path, is what the new one replaces. -/
def extend? (extension : String) (path : List Char) : Option (List Char) :=
  let path := if (extension? path).isSome then path ++ placeholder else path
  replaceExtension? extension path

/-- The way from a directory to where names lead from the root. -/
def wayFrom : List (List Char) → List (List Char) → List (List Char)
  | h :: home, n :: names =>
    if h = n then wayFrom home names else (h :: home).map (fun _ => "..".toList) ++ n :: names
  | home, names => home.map (fun _ => "..".toList) ++ names

end Files

namespace Host

open Files

/-- The names that lead from the root to the working directory. -/
def homeNames (host : Host) : List (List Char) := steps host.home.toList

/-- A path that begins at the root. -/
def absolute (host : Host) (path : List Char) : List Char :=
  if path.head? = some '/' then path else '/' :: (join host.homeNames ++ '/' :: path)

/-- A path from the root as it is told: the way there from the working directory. -/
def told (host : Host) (path : List Char) : String :=
  String.ofList (join (wayFrom host.homeNames (steps path)))

/-- The names that lead from the root to each file, with its content. -/
def contents (host : Host) : List (List (List Char) × String) :=
  host.files.map fun f => (steps (host.absolute f.1.toList), f.2)

/-- Whether names lead to a directory. -/
def isDirectory (host : Host) (names : List (List Char)) : Bool :=
  names.isPrefixOf host.homeNames ||
    host.contents.any fun f => names.isPrefixOf f.1 && names.length < f.1.length

/-- The content of the file that names lead to. -/
def content? (host : Host) (names : List (List Char)) : Option String :=
  (host.contents.find? fun f => f.1 = names).map (·.2)

/-- The content of the file that steps lead to from the directory with the names in `here`, newest
first. -/
def walk (host : Host) : List (List Char) → List (List Char) → Option String
  | _, [] => none
  | here, [name] =>
    if name = "..".toList then none else host.content? (name :: here).reverse
  | here, name :: rest =>
    if name = "..".toList then walk host here.tail rest
    else if host.isDirectory (name :: here).reverse then walk host (name :: here) rest
    else none

/-- The content of the file at a path from the root. The last name of such a path is one that leads
somewhere. -/
def read? (host : Host) (path : List Char) : Option String :=
  if (namesOf path).getLast?.any fun n => n ≠ [] ∧ n ≠ ['.'] ∧ n ≠ "..".toList then
    host.walk [] (steps path)
  else none

/-- The content of the nearest file with a name, seen from the directory with the names in `here`,
newest first: in this directory, or else in the nearest above it that has one. -/
def nearest? (host : Host) (name : String) : List (List Char) → Option String
  | [] => host.content? [name.toList]
  | here@(_ :: above) =>
    (host.content? (name.toList :: here).reverse).or (host.nearest? name above)

end Host

end Agora.Settings
