/-!
TOML values, and tables while a document is still defining them. A table may be open to more
entries: one that only the path of a header runs through may still get a header of its own, one that
dotted keys made may get more dotted keys, and any may get tables below it. Each name is defined
once, so every step that would define one again is refused.
-/

namespace Agora

/-- A TOML value. Dates and times are kept as texts. -/
inductive Toml where
  | text (s : String)
  | int (i : Int)
  | real (x : Float)
  | bool (b : Bool)
  | time (s : String)
  | list (items : List Toml)
  | table (entries : List (String × Toml))

namespace Toml

/-- How an open table came to be: by the path of a header below it, by a header of its own, or by a
dotted key. -/
inductive Opening where
  | implicit | header | dotted
  deriving DecidableEq, Repr

/-- What a name stands for while the document is being read: a value, an open table, or a series of
tables with the newest first. -/
inductive Node where
  | value (v : Toml)
  | table (opening : Opening) (entries : List (String × Node))
  | series (tables : List (List (String × Node)))

/-- Entries of an open table. -/
abbrev Entries := List (String × Node)

/-- Entries with what a name stands for replaced, unless that is refused. -/
def alter (k : String) (f : Option Node → Option Node) : Entries → Option Entries
  | [] => (f none).map fun n => [(k, n)]
  | e :: es =>
    if e.1 = k then (f (some e.2)).map fun n => (k, n) :: es
    else (alter k f es).map (e :: ·)

/-- Changes the table that the path of a header leads to. -/
def descend (f : Entries → Option Entries) : List String → Entries → Option Entries
  | [], es => f es
  | k :: ks, es =>
    alter k
      (fun
        | none => (descend f ks []).map (.table .implicit)
        | some (.table opening es) => (descend f ks es).map (.table opening)
        | some (.series (t :: ts)) => (descend f ks t).map fun t => .series (t :: ts)
        | some _ => none)
      es

/-- A header opens a table. -/
def openTable (k : String) : Entries → Option Entries :=
  alter k fun
    | none => some (.table .header [])
    | some (.table .implicit es) => some (.table .header es)
    | some _ => none

/-- A double header adds a table to a series. -/
def openSeries (k : String) : Entries → Option Entries :=
  alter k fun
    | none => some (.series [[]])
    | some (.series ts) => some (.series ([] :: ts))
    | some _ => none

/-- A dotted key defines a value. The tables it leads through become its own, so no header may open
them later; a table with a header is no way for it. It may lead through the newest table of a series
to a table below, but adds nothing to that table itself. -/
def define (v : Toml) : List String → Entries → Option Entries
  | [], _ => none
  | [k], es =>
    alter k
      (fun
        | none => some (.value v)
        | some _ => none)
      es
  | k :: ks, es =>
    alter k
      (fun
        | none => (define v ks []).map (.table .dotted)
        | some (.table .header _) => none
        | some (.table _ es) => (define v ks es).map (.table .dotted)
        | some (.series (t :: ts)) =>
          if ks.length = 1 then none else (define v ks t).map fun t => .series (t :: ts)
        | some _ => none)
      es

mutual

/-- The value of a node once nothing more is added to it. -/
def Node.close : Node → Toml
  | .value v => v
  | .table _ es => .table (closeAll es)
  | .series ts => .list (closeSeries ts [])

/-- The values of some entries. -/
def closeAll : List (String × Node) → List (String × Toml)
  | [] => []
  | (k, n) :: es => (k, n.close) :: closeAll es

/-- The tables of a series, oldest first, before those that are closed already. -/
def closeSeries : List (List (String × Node)) → List Toml → List Toml
  | [], done => done
  | t :: ts, done => closeSeries ts (.table (closeAll t) :: done)

end

end Toml

end Agora
