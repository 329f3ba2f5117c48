import Agora.Json.Decode
import Agora.Json.Reader

/-!
Records out of JSON. A record is an object with a member for each field, in any order and among
other members, or a list of the fields in their order. Problems are found in the order of the text;
only then come fields that are missing.
-/

namespace Agora.Json

/-- Which fields may be left out: none, those of an object, or also the last ones of a list. -/
inductive Presence where
  | required | optional | defaulted
  deriving DecidableEq, Repr

/-- A field as the reader of a record sees it: a name, whether it must be there, and the problem
that its value has, if any. -/
structure Field where
  name : String
  presence : Presence
  problem? : Json → Option Problem

/-- A field is there if it must be, and what is there has no problem. -/
def Field.Fine (x : Field) (found : Option Json) : Prop :=
  (found = none → x.presence ≠ .required) ∧ ∀ j ∈ found, x.problem? j = none

/-- The fields of a record, and the record that they make up once they can be looked up by name.
Fields that make up a record are fine. -/
structure Fields (α : Type) where
  list : List Field
  build : (String → Option Json) → Except Problem α
  fine {find : String → Option Json} {a : α} (built : build find = .ok a) :
    ∀ x ∈ list, x.Fine (find x.name)

namespace Fields

/-- A record without fields. -/
def done (a : α) : Fields α := ⟨[], fun _ => .ok a, fun _ => nofun⟩

/-- The fields of one record followed by those of another. -/
def also (f : Fields (α → β)) (g : Fields α) : Fields β where
  list := f.list ++ g.list
  build find := do
    let make ← f.build find
    let a ← g.build find
    .ok (make a)
  fine {find b} built := by
    simp only [bind, Except.bind] at built
    split at built
    · exact nomatch built
    rename_i make hf
    split at built
    · exact nomatch built
    rename_i a hg
    exact List.forall_mem_append.2 ⟨f.fine hf, g.fine hg⟩

/-- What is wrong with a value in the eyes of a decoder. -/
def problem (d : Decoder α) (j : Json) : Option Problem :=
  match d j with
  | .ok _ => none
  | .error p => some p

theorem problem_of_ok {d : Decoder α} {j : Json} {a : α} (h : d j = .ok a) :
    problem d j = none := by
  rw [problem, h]

/-- A field that must be there. -/
def required (name : String) (d : Decoder α) : Fields α where
  list := [⟨name, .required, problem d⟩]
  build find :=
    match find name with
    | some j => d j
    | none => .error (.mismatch (.missing name))
  fine {find a} built := by
    refine List.forall_mem_singleton.2 ⟨fun hnone => ?_, fun j hj => ?_⟩
    · rw [hnone] at built
      exact nomatch built
    · rw [Option.mem_def.1 hj] at built
      exact problem_of_ok built

/-- A field that may be `null` or be left out, as far as `presence` allows. -/
def optionalField (presence : Presence) (spare : presence ≠ .required) (name : String)
    (d : Decoder α) : Fields (Option α) where
  list := [⟨name, presence, problem (Decoder.optional d)⟩]
  build find :=
    match find name with
    | some j => Decoder.optional d j
    | none => .ok none
  fine {find a} built := by
    refine List.forall_mem_singleton.2 ⟨fun _ => spare, fun j hj => ?_⟩
    rw [Option.mem_def.1 hj] at built
    exact problem_of_ok built

/-- A field that may be left out of an object. -/
def optional (name : String) (d : Decoder α) : Fields (Option α) :=
  optionalField .optional (by decide) name d

/-- A field that may be left out of an object, and of a list if it is among the last. -/
def defaulted (name : String) (d : Decoder α) : Fields (Option α) :=
  optionalField .defaulted (by decide) name d

/-- How many fields there are. -/
def count (f : Fields α) : Nat := f.list.length

/-! ### Objects -/

/-- The first problem among the members of an object, given the names seen before. -/
def survey (fields : List Field) : List String → List (String × Json) → Option Problem
  | _, [] => none
  | seen, (name, j) :: rest =>
    match fields.find? (·.name = name) with
    | some field =>
      if name ∈ seen then some (.mismatch (.duplicate name))
      else
        match field.problem? j with
        | some p => some p
        | none => survey fields (name :: seen) rest
    | none => if j.broken then some .brokenOff else survey fields seen rest

/-- The record that an object stands for. -/
def ofObject (f : Fields α) (members : List (String × Json)) : Except Problem α :=
  match survey f.list [] members with
  | some p => .error p
  | none =>
    match f.list.find? fun x => x.presence = .required && (member? x.name members).isNone with
    | some x => .error (.mismatch (.missing x.name))
    | none => f.build fun name => member? name members

/-! ### Lists -/

/-- A number of elements in words. -/
def elements (n : Nat) : String := Decimal.text n ++ (if n = 1 then " element" else " elements")

/-- The first problem among items that stand for fields. -/
def itemProblem : List Field → List Json → Option Problem
  | field :: fields, j :: items =>
    match field.problem? j with
    | some p => some p
    | none => itemProblem fields items
  | _, _ => none

/-- The place of the first field that a list of some length should have and has not. -/
def absent (fields : List Field) (length : Nat) : Option Nat :=
  (List.range fields.length).find? fun i =>
    length ≤ i && ((fields[i]?).all fun x => x.presence ≠ .defaulted)

/-- The record that a list stands for; `tooLong` is the problem with a list of some length that has
more items than there are fields. -/
def ofList (shape : String) (tooLong : Nat → Problem) (f : Fields α) (items : List Json) :
    Except Problem α :=
  match itemProblem f.list items with
  | some p => .error p
  | none =>
    match absent f.list items.length with
    | some i => .error (.mismatch (.wrongLength i (shape ++ " with " ++ elements f.count)))
    | none =>
      if f.count < items.length then .error (tooLong items.length)
      else f.build fun name => member? name ((f.list.map (·.name)).zip items)

/-- The record that an object or a list stands for. -/
def decode (shape : String) (tooLong : Nat → Problem) (f : Fields α) : Decoder α
  | .obj members => f.ofObject members
  | .arr items => f.ofList shape tooLong items
  | j => .error (unexpected shape j)

/-- The problem with a list that is too long, where the list has been read as a whole. -/
def wholeTooLong (count length : Nat) : Problem :=
  .mismatch (.wrongLength length (elements count ++ " in sequence"))

/-- Decodes a record while its text is read: what follows the last field of a list is never read. -/
def streamed (shape : String) (f : Fields α) : Decoder α := f.decode shape fun _ => .surplus

/-- Decodes a record from a value that has been read as a whole. -/
def whole (shape : String) (f : Fields α) : Decoder α := f.decode shape (wholeTooLong f.count)

end Fields

/-- The value that a whole document stands for. -/
def Document.decode (d : Document) (decoder : Decoder α) : Except Problem α :=
  match decoder d.root with
  | .error p => .error p
  | .ok a => if d.fault.isSome then .error .surplus else .ok a

/-- The record that a text stands for. Members that are no fields are passed over unread. -/
def Fields.ofText (shape : String) (f : Fields α) (cs : List Char) : Except Problem α :=
  (readText false cs).decode (f.streamed shape)

end Agora.Json
