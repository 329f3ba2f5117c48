import Agora.Json.Lexeme

/-!
Reading a JSON text: a machine takes one lexeme after the other and keeps the containers that are
open. The outcome is a document: the value as far as it was read, the fault that ended the reading
if there was one, and where the parts of the outermost container stand in the text, so that a
message about one of them can say where.

A strict reading needs every part of the text to stand for a value and bounds the depth of nesting;
a lenient one lets parts without a value stand, since nobody may ask for them.
-/

namespace Agora.Json

/-- Where a part of the outermost container stands: the number of bytes before its colon, before
its value and after its value. -/
structure Mark where
  colon : Nat
  start : Nat
  stop : Nat
  deriving DecidableEq, Repr, Inhabited

/-- An open container: what it holds so far, newest first, and where it was opened. -/
inductive Frame where
  | list (opened : Nat) (items : List Json)
  | object (opened : Nat) (members : List (String × Json)) (key : String) (colon : Nat)
      (flawed : Bool)

/-- What the machine needs next. -/
inductive Want where
  | value | firstItem | item | firstKey | key | colon | more | nothing
  deriving DecidableEq, Repr

/-- The state of the machine, innermost container first. -/
structure Reader where
  stack : List Frame
  want : Want
  root : Json
  stop : Nat
  marks : List Mark
  fault : Option (Fault × Nat)
  faultStart : Nat

/-- The machine before the first lexeme. -/
def Reader.start : Reader := ⟨[], .value, .gap, 0, [], none, 0⟩

/-- The deepest nesting of containers that a strict reading allows. -/
def depthLimit : Nat := 127

/-- The machine stops at a fault. -/
def Reader.fail (r : Reader) (f : Fault) (index start : Nat) : Reader :=
  { r with fault := some (f, index), faultStart := start }

/-- A value is complete: it goes into the innermost container, or is the whole document. A value
whose name is spoilt is spoilt with it. -/
def Reader.deliver (r : Reader) (j : Json) (start stop : Nat) : Reader :=
  match r.stack with
  | [] => { r with root := j, stop := stop, want := .nothing }
  | .list opened items :: outer =>
    let marks := if outer.isEmpty then ⟨start, start, stop⟩ :: r.marks else r.marks
    { r with stack := .list opened (j :: items) :: outer, want := .more, marks := marks }
  | .object opened members key colon flawed :: outer =>
    let marks := if outer.isEmpty then ⟨colon, start, stop⟩ :: r.marks else r.marks
    let member := (key, if flawed then .spoilt else j)
    { r with
      stack := .object opened (member :: members) key colon false :: outer
      want := .more
      marks := marks }

/-- A container is opened. -/
def Reader.open (strict : Bool) (r : Reader) (f : Frame) (want : Want) (start : Nat) : Reader :=
  if strict && depthLimit ≤ r.stack.length then r.fail .tooDeep (start + 1) start
  else { r with stack := f :: r.stack, want := want }

/-- The innermost container is closed. -/
def Reader.close (r : Reader) (stop : Nat) : Reader :=
  match r.stack with
  | [] => r
  | .list opened items :: outer =>
    { r with stack := outer }.deliver (.arr items.reverse) opened stop
  | .object opened members _ _ _ :: outer =>
    { r with stack := outer }.deliver (.obj members.reverse) opened stop

/-- A lexeme where a value is needed. -/
def Reader.takeValue (strict : Bool) (r : Reader) (l : Lexeme) : Reader :=
  match l.kind with
  | .sign .openList => r.open strict (.list l.start []) .firstItem l.start
  | .sign .openObject => r.open strict (.object l.start [] "" l.start false) .firstKey l.start
  | .sign _ => r.fail .expectedValue (l.start + 1) l.start
  | .value j => r.deliver j l.start l.stop
  | .unusable f i => if strict then r.fail f i l.start else r.deliver .spoilt l.start l.stop
  | .bad f i => r.fail f i l.start

/-- A lexeme where a name is needed. In the outermost object every name must have a value. -/
def Reader.takeKey (strict : Bool) (r : Reader) (l : Lexeme) : Reader :=
  match r.stack, l.kind with
  | .object opened members _ colon flawed :: outer, .value (.str s) =>
    { r with stack := .object opened members s colon flawed :: outer, want := .colon }
  | .object opened members _ colon _ :: outer, .unusable f i =>
    if !l.quoted then r.fail .keyNotString (l.start + 1) l.start
    else if strict || outer.isEmpty then r.fail f i l.start
    else { r with stack := .object opened members "" colon true :: outer, want := .colon }
  | _, .bad f i =>
    if l.quoted then r.fail f i l.start else r.fail .keyNotString (l.start + 1) l.start
  | _, _ => r.fail .keyNotString (l.start + 1) l.start

/-- A lexeme after a name. -/
def Reader.takeColon (r : Reader) (l : Lexeme) : Reader :=
  match r.stack, l.kind with
  | .object opened members key _ flawed :: outer, .sign .colon =>
    { r with stack := .object opened members key l.start flawed :: outer, want := .value }
  | _, _ => r.fail .expectedColon (l.start + 1) l.start

/-- A lexeme after a value in a container. -/
def Reader.takeMore (r : Reader) (l : Lexeme) : Reader :=
  match r.stack, l.kind with
  | .list .. :: _, .sign .comma => { r with want := .item }
  | .list .. :: _, .sign .closeList => r.close l.stop
  | .object .. :: _, .sign .comma => { r with want := .key }
  | .object .. :: _, .sign .closeObject => r.close l.stop
  | .object .. :: _, _ => r.fail .expectedObjectEnd (l.start + 1) l.start
  | _, _ => r.fail .expectedListEnd (l.start + 1) l.start

/-- One step of the machine. -/
def Reader.step (strict : Bool) (r : Reader) (l : Lexeme) : Reader :=
  if r.fault.isSome then r
  else
    match r.want, l.kind with
    | .firstItem, .sign .closeList => r.close l.stop
    | .item, .sign .closeList => r.fail .trailingComma (l.start + 1) l.start
    | .firstKey, .sign .closeObject => r.close l.stop
    | .key, .sign .closeObject => r.fail .trailingComma (l.start + 1) l.start
    | .value, _ => r.takeValue strict l
    | .firstItem, _ => r.takeValue strict l
    | .item, _ => r.takeValue strict l
    | .firstKey, _ => r.takeKey strict l
    | .key, _ => r.takeKey strict l
    | .colon, _ => r.takeColon l
    | .more, _ => r.takeMore l
    | .nothing, _ => r.fail .trailingCharacters (l.start + 1) l.start

/-- What is missing when the text ends too early. -/
def Reader.missing (r : Reader) : Option Fault :=
  match r.want, r.stack with
  | .nothing, _ => none
  | .value, _ | .item, _ | .key, _ => some .eofValue
  | .firstItem, _ => some .eofList
  | .firstKey, _ | .colon, _ => some .eofObject
  | .more, .list .. :: _ => some .eofList
  | .more, _ => some .eofObject

/-- The end of the text, `length` bytes from its start. -/
def Reader.finish (r : Reader) (length : Nat) : Reader :=
  if r.fault.isSome then r
  else
    match r.missing with
    | some f => r.fail f length length
    | none => r

/-- Open containers turned into a value that ends in a gap; also where the outermost part that was
open begins. -/
def collapse : List Frame → Json → Nat → Json × Nat
  | [], j, start => (j, start)
  | .list opened items :: outer, j, start =>
    let r := collapse outer (.arr (items.reverse ++ [j])) opened
    (r.1, if outer.isEmpty then start else r.2)
  | .object opened members key _ _ :: outer, j, start =>
    let r := collapse outer (.obj (members.reverse ++ [(key, j)])) opened
    (r.1, if outer.isEmpty then start else r.2)

/-- Whether a member that was begun is cut off before its colon. -/
def Reader.awaitsColon (r : Reader) : Bool := r.want = .colon && r.stack.length ≤ 1

/-- The mark of the part of the outermost container in which the reading broke off. -/
def Reader.lastMark (r : Reader) (start : Nat) : Mark :=
  match r.stack.getLast? with
  | some (.object _ _ _ colon _) =>
    ⟨if r.awaitsColon then r.faultStart else colon, start, r.faultStart⟩
  | _ => ⟨start, start, r.faultStart⟩

/-- A member cut off before its name was read has no name: only `colon` and `value` keep one. -/
def Frame.forget (want : Want) : Frame → Frame
  | .object opened members key colon flawed =>
    if want = .colon ∨ want = .value then .object opened members key colon flawed
    else .object opened members "" colon flawed
  | f => f

/-- The outcome of reading a text. -/
structure Document where
  root : Json
  stop : Nat
  marks : List Mark
  fault : Option (Fault × Nat)

/-- The document that the machine has read at the end. -/
def Reader.document (r : Reader) : Document :=
  match r.want, r.stack with
  | .nothing, _ => ⟨r.root, r.stop, r.marks.reverse, r.fault⟩
  | want, [] => ⟨.gap, r.faultStart, if want = .value then [] else r.marks, r.fault⟩
  | want, f :: outer =>
    let (root, start) := collapse (f.forget want :: outer) .gap r.faultStart
    ⟨root, r.faultStart, (r.lastMark start :: r.marks).reverse, r.fault⟩

/-- Reads a text. -/
def readText (strict : Bool) (cs : List Char) : Document :=
  (((lexemes cs).foldl (Reader.step strict) .start).finish (Text.byteCount cs)).document

/-- The value of a text all of which is well formed and stands for a value. -/
def parse? (s : String) : Option Json :=
  let d := readText true s.toList
  if d.fault.isNone then some d.root else none

end Agora.Json
