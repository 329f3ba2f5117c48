import Agora.Connection
import Agora.Exposition
import Agora.Mailbox

/-!
A rehearsed run of an engine behind its mailbox. The time at which things are created comes from a
clock that moves by a tick with each of them; single operations of the store can be made to fail;
and the store can be held up, so that requests pile up in the mailbox.
-/

namespace Agora

/-! ### Operations of the store -/

/-- The operation of the store that a change is. -/
def Change.operation : Change → String
  | .addUser _ => "create_user"
  | .addCommunity _ => "create_subreddit"
  | .join _ _ => "join_subreddit"
  | .leave _ _ => "leave_subreddit"
  | .addPost _ => "create_post"
  | .addComment _ => "add_comment"
  | .vote _ _ _ => "vote"
  | .send _ => "send_message"

/-- Whether a change files something together with the time of its creation. -/
def Change.isTimed : Change → Bool
  | .addUser _ => true
  | .addCommunity _ => true
  | .addPost _ => true
  | .addComment _ => true
  | .send _ => true
  | .join _ _ => false
  | .leave _ _ => false
  | .vote _ _ _ => false

/-- The operation of the store that a task calls for, if it needs the store at all. -/
def Task.operation? : Task → Option String
  | .greet => none
  | .change c => some c.operation
  | .feed communities _ => if communities.isEmpty then none else some "get_subreddit_posts"
  | .comments _ => some "get_comments"
  | .messages _ => some "get_messages"

/-- Whether a task needs the time of the clock. -/
def Task.isTimed : Task → Bool
  | .change c => c.isTimed
  | _ => false

/-! ### Sessions -/

/-- A run of an engine. `network` is what stands in the way of clients, if anything does. -/
structure Session where
  name : String
  room : Nat
  settings : FeedSettings
  counting : Bool
  network : Option String
  engine : Engine
  running : Bool
  clock : Timestamp
  tick : Int
  faults : Table String
  now : Timestamp

/-- A question put to the store itself, past the engine. -/
inductive Query where
  | user (id : String)
  | community (id : String)
  | post (id : String)
  | postsIn (community : String)
  | commentsOn (post : String)
  | inbox (user : String)
  | voteOf (target user : String)

/-- A step of a session. -/
inductive Scene where
  | request (r : Request)
  | ping
  | name
  | connect (bytes : List UInt8)
  | burst (rs : List Request)
  | hang (rs : List Request)
  | abandon (rs : List Request)
  | stop
  | setClock (clock : Option Timestamp) (tick : Option Int)
  | setFault (operation : String) (message : Option String)
  | metrics
  | change (c : Change)
  | query (q : Query)

/-- What a question to the store is answered. -/
inductive Found where
  | user (u : User)
  | community (c : Community)
  | post (p : Post)
  | posts (ps : List Post)
  | comments (cs : List Comment)
  | messages (ms : List Message)
  | vote (up : Option Bool)

/-- What a step comes to. -/
inductive Report where
  | answer (a : Answer)
  | pong (a : Answer)
  | name (s : String)
  | lines (ls : List String)
  | unreachable (reason : String)
  | answers (as : List Answer)
  | answered (flags : List Bool)
  | stopped
  | clock (clock : Timestamp) (tick : Int)
  | faults (count : Nat)
  | outcome (o : Outcome)
  | found (f : Found)
  | failure (f : Failure)

namespace Session

/-- A session at its beginning. -/
def start (name : String) (capacity : Nat) (settings : FeedSettings) (counting : Bool)
    (network : Option String) (clock now : Timestamp) : Session :=
  ⟨name, Mailbox.roomFor capacity, settings, counting, network, .empty, true, clock, 1000, .empty,
    now⟩

/-! ### Requests -/

/-- The session after something came of a request. -/
def conclude (s : Session) (kind : Kind) (r : Except Failure Result) : Session × Response :=
  let (e, response) := s.engine.conclude kind 0 r
  let metrics := if s.counting then e.metrics else s.engine.metrics
  ({ s with engine := ⟨e.store, metrics⟩ }, response)

/-- The failure that a task was set up to meet. -/
def fault? (s : Session) (t : Task) : Option Failure :=
  (t.operation?.bind s.faults.get?).map .internal

/-- The session after the clock was used for a task. -/
def ticked (s : Session) (t : Task) : Session :=
  if t.isTimed then { s with clock := (s.clock.addMillis? s.tick).getD s.clock } else s

/-- The running engine handles a request. -/
def handle (s : Session) (r : Request) : Session × Response :=
  if r.kind = .ping then (s, .pong)
  else
    match r.plan s.clock with
    | .error f => s.conclude r.kind (.error f)
    | .ok task =>
      match s.fault? task with
      | some f => s.conclude r.kind (.error f)
      | none =>
        (s.ticked task).conclude r.kind (s.engine.store.perform s.settings s.now task)

/-- A request is sent to the engine, which may be stopped. -/
def submit (s : Session) (r : Request) : Session × Answer :=
  if s.running then
    let (s, response) := s.handle r
    (s, .response response)
  else (s, .closed)

/-- Requests are sent one after the other. -/
def submitAll (s : Session) : List Request → Session × List Answer
  | [] => (s, [])
  | r :: rs =>
    let (s, a) := s.submit r
    let (s, as) := submitAll s rs
    (s, a :: as)

/-- Whether a request gets as far as the store. -/
def reachesStore (s : Session) (r : Request) : Bool :=
  match r.plan s.clock with
  | .ok task => task.operation?.isSome
  | .error _ => false

/-- Requests up to the first that reaches the store, and the others. -/
def upToStore (s : Session) (rs : List Request) : List Request × List Request :=
  rs.span fun r => !s.reachesStore r

/-- The engine stops while the store is held up: the first request that reached the store and those
in the queue get no reply, and the others find the mailbox closed. -/
def hang (s : Session) (rs : List Request) : Session × List Answer :=
  if s.running then
    let (free, held) := s.upToStore rs
    let (s, as) := s.submitAll free
    let caught := held.take (s.room + 1)
    let late := held.drop (s.room + 1)
    ({ s with running := false },
      as ++ caught.map (fun _ => .noReply) ++ late.map fun _ => .closed)
  else (s, rs.map fun _ => .closed)

/-- The senders go away while the store is held up: the first request that reached the store and
those in the queue are handled later all the same, and the others are never sent. Tells for each
request whether its sender had heard of it. -/
def abandon (s : Session) (rs : List Request) : Session × List Bool :=
  if s.running then
    let (free, held) := s.upToStore rs
    let (s, _) := s.submitAll free
    let (s, _) := s.submitAll (held.take (s.room + 1))
    (s, free.map (fun _ => true) ++ held.map fun _ => false)
  else (s, rs.map fun _ => true)

/-- A client connects, sends some bytes and reads what comes back. -/
def connect (s : Session) (bytes : List UInt8) : Session × Report :=
  match s.network with
  | some reason => (s, .unreachable reason)
  | none =>
    let (s, lines) := Connection.run
      (fun (s : Session) r => if s.running then some (s.handle r) else none) s bytes
    (s, .lines lines)

/-! ### Steps -/

/-- Puts a question to the store. -/
def query (s : Store) : Query → Except Failure Found
  | .user id => (s.user id).map .user
  | .community id => (s.community id).map .community
  | .post id => (s.post id).map .post
  | .postsIn community => .ok (.posts (s.postsIn community))
  | .commentsOn post => .ok (.comments (s.commentsOn post))
  | .inbox user => .ok (.messages (s.inbox user))
  | .voteOf target user => .ok (.vote (s.voteOf target user))

/-- One step of a session. -/
def step (s : Session) : Scene → Session × Report
  | .request r => (s.submit r).map id .answer
  | .ping => (s.submit .ping).map id .pong
  | .name => (s, .name s.name)
  | .connect bytes => s.connect bytes
  | .burst rs => (s.submitAll rs).map id .answers
  | .hang rs => (s.hang rs).map id .answers
  | .abandon rs => (s.abandon rs).map id .answered
  | .stop => ({ s with running := false }, .stopped)
  | .setClock clock tick =>
    let s := { s with clock := clock.getD s.clock, tick := tick.getD s.tick }
    (s, .clock s.clock s.tick)
  | .setFault operation message =>
    let faults := match message with
      | some m => s.faults.insert operation m
      | none => s.faults.erase operation
    ({ s with faults := faults }, .faults faults.size)
  | .metrics =>
    (s, .lines ((Exposition.listing s.engine.metrics).filter (!Exposition.isTiming ·)))
  | .change c =>
    match s.engine.store.apply c with
    | .ok (store, o) => ({ s with engine := { s.engine with store } }, .outcome o)
    | .error f => (s, .failure f)
  | .query q =>
    match query s.engine.store q with
    | .ok f => (s, .found f)
    | .error f => (s, .failure f)

end Session

end Agora
