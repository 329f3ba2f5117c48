import Agora.Engine

/-!
The mailbox in front of an engine. Clients put requests into a queue that has room for a bounded
number of them; a client that finds no room waits, and whoever of those who wait is quickest gets
in when there is room. The engine takes the oldest request in the queue, handles it and replies in
one step. When the engine is stopped, the requests in the queue stay without reply and those that
still wait find the mailbox closed; when all clients are gone for good, the engine ends once the
queue is empty.

A mailbox is a state and a step for each thing that may happen next; nothing says which of them
does.
-/

namespace Agora

/-- What becomes of a request, as its sender learns. -/
inductive Answer where
  | response (r : Response)
  | closed
  | noReply
  deriving DecidableEq

/-- The words for a request that got no response from the engine with a name. -/
def Answer.complaint (name : String) : Answer → Option String
  | .response _ => none
  | .closed => some ("engine '" ++ name ++ "' is not running")
  | .noReply => some ("engine '" ++ name ++ "' stopped before answering")

/-- A request in the hands of the mailbox; the ticket tells requests apart. -/
structure Envelope where
  ticket : Nat
  request : Request
  deriving DecidableEq

/-- A mailbox with the engine behind it. `entered`, `answers` and `handled` are the history, newest
first: what got into the queue, what senders learned, and what the engine took out and handled. -/
structure Mailbox where
  room : Nat
  engine : Engine
  running : Bool
  released : Bool
  waiting : List Envelope
  queue : List Envelope
  entered : List Envelope
  answers : List (Nat × Answer)
  handled : List (Reading × Envelope)

namespace Mailbox

/-- The largest capacity for which a queue can be made. -/
def capacityLimit : Nat := 0x1fffffffffffffff

/-- The room in a queue of some capacity: there is always room for one. -/
def roomFor (capacity : Nat) : Nat := max capacity 1

/-- A mailbox of some capacity in front of an engine, unless no such queue can be made. -/
def start? (e : Engine) (capacity : Nat) : Option Mailbox :=
  if roomFor capacity ≤ capacityLimit then
    some ⟨roomFor capacity, e, true, false, [], [], [], [], []⟩
  else none

/-- What may happen next: a client sends a request; a client that waits finds room; the engine
handles the oldest request; a client that waits goes away; the engine is stopped; all clients go
away for good; the engine ends because there is nothing left to come. -/
inductive Action where
  | send (e : Envelope)
  | enter (ticket : Nat)
  | handle (t : Reading)
  | giveUp (ticket : Nat)
  | abort
  | release
  | finish

/-- The engine stops: nothing in the queue is answered, and nobody who waits gets in. -/
def stopped (m : Mailbox) : Mailbox :=
  { m with
    running := false
    waiting := []
    queue := []
    answers := m.waiting.reverse.map (fun e => (e.ticket, .closed)) ++
      (m.queue.reverse.map (fun e => (e.ticket, .noReply)) ++ m.answers) }

/-- The mailbox after something that may happen, or nothing if it may not happen now. -/
def step (settings : FeedSettings) (m : Mailbox) : Action → Option Mailbox
  | .send e =>
    if m.released then none
    else if m.running then some { m with waiting := m.waiting ++ [e] }
    else some { m with answers := (e.ticket, .closed) :: m.answers }
  | .enter ticket =>
    match m.waiting.find? (·.ticket = ticket) with
    | some e =>
      if m.queue.length < m.room then
        some { m with
          waiting := m.waiting.erase e
          queue := m.queue ++ [e]
          entered := e :: m.entered }
      else none
    | none => none
  | .handle t =>
    match m.queue with
    | e :: rest =>
      let r := m.engine.handle settings t e.request
      some { m with
        queue := rest
        engine := r.1
        answers := (e.ticket, .response r.2) :: m.answers
        handled := (t, e) :: m.handled }
    | [] => none
  | .giveUp ticket => some { m with waiting := m.waiting.filter (·.ticket ≠ ticket) }
  | .abort => if m.running then some m.stopped else none
  | .release => if m.waiting.isEmpty then some { m with released := true } else none
  | .finish => if m.running && m.released && m.queue.isEmpty then some m.stopped else none

/-- The mailbox after several things that happened one after the other. -/
def run (settings : FeedSettings) (m : Mailbox) (as : List Action) : Option Mailbox :=
  as.foldlM (step settings) m

end Mailbox

end Agora
