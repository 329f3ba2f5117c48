/-!
Settings as their sources give them: a tree of values, of which it is not yet known what they are
settings for. Every value may know where it comes from. Sources are laid one over the other: tables
are merged entry by entry, and any other value takes the place of what was there.
-/

namespace Agora.Settings

/-- A value that has no parts. -/
inductive Scalar where
  | nothing
  | flag (b : Bool)
  | int (i : Int)
  | real (x : Float)
  | text (s : String)
  deriving Repr

/-- A value with its origin. -/
inductive Value where
  | leaf (origin : Option String) (s : Scalar)
  | list (origin : Option String) (items : List Value)
  | table (origin : Option String) (entries : List (String × Value))
  deriving Repr

namespace Value

/-- The place of a value that is not there yet. -/
def vacant : Value := .leaf none .nothing

instance : Inhabited Value := ⟨vacant⟩

/-- Where a value comes from. -/
def origin : Value → Option String
  | .leaf o _ => o
  | .list o _ => o
  | .table o _ => o

/-- The entries of a table; other values have none. -/
def entries : Value → List (String × Value)
  | .table _ es => es
  | _ => []

/-- The items of a list; other values have none. -/
def items : Value → List Value
  | .list _ ts => ts
  | _ => []

/-- What stands under a name in some entries. -/
def find (k : String) : List (String × Value) → Option Value
  | [] => none
  | e :: es => if e.1 = k then some e.2 else find k es

/-- Entries with a value put under a name, in place of what stood there. -/
def put (k : String) (t : Value) : List (String × Value) → List (String × Value)
  | [] => [(k, t)]
  | e :: es => if e.1 = k then (k, t) :: es else e :: put k t es

/-- A value as a table: anything else makes way for an empty one. -/
def asTable : Value → Value
  | .table o es => .table o es
  | _ => .table none []

/-- A value as a list: anything else makes way for an empty one. -/
def asList : Value → Value
  | .list o ts => .list o ts
  | _ => .list none []

/-- A table with one entry changed. -/
def alter (k : String) (f : Value → Value) (t : Value) : Value :=
  let t := t.asTable
  .table t.origin (put k (f ((find k t.entries).getD vacant)) t.entries)

/-- A list with one item changed. An index below zero counts from the end, and vacant items are
added where they are needed. -/
def alterAt (i : Int) (f : Value → Value) (t : Value) : Value :=
  let t := t.asList
  let items := t.items
  let place := if i < 0 then i + items.length else i
  let items :=
    if place < 0 then List.replicate place.natAbs vacant ++ items
    else items ++ List.replicate (place.toNat + 1 - items.length) vacant
  .list t.origin (items.modify place.toNat f)

mutual

/-- A value laid over another one. -/
def overlay : Value → Value → Value
  | .table _ es, below => overlayAll es below.asTable
  | t, _ => t

/-- Entries laid over a table. -/
def overlayAll : List (String × Value) → Value → Value
  | [], below => below
  | (k, t) :: es, below => overlayAll es (below.alter k (overlay t))

end

/-! ### Paths -/

/-- A step from a value to one of its parts. -/
inductive Part where
  | entry (name : String)
  | item (index : Int)
  deriving DecidableEq, Repr

/-- Changes the value that a path leads to, and makes way for it where necessary. -/
def alterPath : List Part → (Value → Value) → Value → Value
  | [], f => f
  | .entry k :: path, f => alter k (alterPath path f)
  | .item i :: path, f => alterAt i (alterPath path f)

end Value

end Agora.Settings
