import Agora.Feed
import Agora.Feed.Settings
import Agora.Metrics
import Agora.Request
import Agora.Store
import Agora.Text.Blank
import Agora.Thread

/-!
The engine carries out requests. A request is first checked: certain ids must not be blank. A
request that passes is a task for the store, which either succeeds, with a response and events to be
counted, or fails; a failure changes nothing in the store and is counted too. A ping is answered
without being counted.
-/

namespace Agora

/-- What the engine reads off its clocks for a request: the time, and the nanoseconds that handling
the request took. -/
structure Reading where
  now : Timestamp
  elapsed : Nat

/-- What a request that passes its checks asks of the store. -/
inductive Task where
  | greet
  | change (c : Change)
  | feed (communities : List String) (limit : Option UInt64)
  | comments (post : String)
  | messages (user : String)
  deriving DecidableEq

/-! ### Checks -/

/-- The ids that must not be blank, with their names, in the order in which they are looked at. -/
def Request.required : Request → List (String × String)
  | .ping => []
  | .createUser id _ _ => [("id", id)]
  | .createCommunity id _ _ _ => [("id", id)]
  | .join community user => [("subreddit_id", community), ("user_id", user)]
  | .leave community user => [("subreddit_id", community), ("user_id", user)]
  | .createPost id community _ _ _ => [("id", id), ("subreddit_id", community)]
  | .createComment id post _ _ _ => [("id", id), ("post_id", post)]
  | .vote target user _ => [("target_id", target), ("user_id", user)]
  | .sendMessage id _ recipient _ _ => [("id", id), ("to_id", recipient)]
  | .getFeed _ _ => []
  | .getComments post => [("post_id", post)]
  | .getMessages _ => []

/-- An empty id stands for none. -/
def filled (id : Option String) : Option String := id.filter (· ≠ "")

/-- What a request asks for; whatever it creates is created at the given time. -/
def Request.task (created : Timestamp) : Request → Task
  | .ping => .greet
  | .createUser id username password => .change (.addUser ⟨id, username, password, created⟩)
  | .createCommunity id name description creator =>
    .change (.addCommunity ⟨id, name, description, creator, .empty, created⟩)
  | .join community user => .change (.join community user)
  | .leave community user => .change (.leave community user)
  | .createPost id community author title content =>
    .change (.addPost ⟨id, community, author, title, content, 0, created, .empty⟩)
  | .createComment id post parent author content =>
    .change (.addComment ⟨id, post, filled parent, author, content, created⟩)
  | .vote target user up => .change (.vote target user up)
  | .sendMessage id sender recipient content repliesTo =>
    .change (.send ⟨id, sender, recipient, content, created, filled repliesTo⟩)
  | .getFeed communities limit => .feed communities limit
  | .getComments post => .comments post
  | .getMessages user => .messages user

/-- The task of a request, unless a required id is blank. -/
def Request.plan (created : Timestamp) (r : Request) : Except Failure Task :=
  match r.required.find? fun f => Text.isBlank f.2 with
  | some f => .error (.invalid (f.1 ++ " must not be empty"))
  | none => .ok (r.task created)

/-! ### Tasks -/

/-- What is said when a change went through. -/
def Change.praise : Change → String
  | .addUser _ => "User registered successfully"
  | .addCommunity _ => "Subreddit created successfully"
  | .join _ _ => "Joined subreddit successfully"
  | .leave _ _ => "Left subreddit successfully"
  | .addPost _ => "Post created successfully"
  | .addComment _ => "Comment created successfully"
  | .vote _ _ _ => "Vote recorded successfully"
  | .send _ => "Message sent successfully"

/-- What is counted when a change went through. -/
def Change.event : Change → Outcome → Event
  | .addUser _, _ => .userRegistered
  | .addCommunity c, _ => .members c.id 0
  | .join c _, .members n => .members c n
  | .join c _, _ => .members c 0
  | .leave c _, .members n => .members c n
  | .leave c _, _ => .members c 0
  | .addPost p, _ => .postCreated p.community
  | .addComment _, _ => .commentCreated
  | .vote _ _ _, _ => .voteRecorded
  | .send _, _ => .messageSent

/-- What a task brings about: the store it leaves, the response, and what is to be counted. -/
structure Result where
  store : Store
  response : Response
  events : List Event

namespace Store

/-- The feed of some communities. -/
def feed (s : Store) (settings : FeedSettings) (now : Timestamp) (communities : List String)
    (limit : Option UInt64) : List PostView :=
  let posts := (Feed.distinct communities).flatMap s.postsIn
  let limit := (limit.or settings.defaultLimit).map UInt64.toNat
  (Feed.rank posts now settings.floor limit).map Post.view

/-- The comments on a post at top level, with the ids of the replies to them. -/
def thread (s : Store) (post : String) : List CommentView :=
  (Thread.build (s.commentsOn post)).views

/-- Carries out a task. -/
def perform (s : Store) (settings : FeedSettings) (now : Timestamp) :
    Task → Except Failure Result
  | .greet => .ok ⟨s, .pong, []⟩
  | .change c => (s.apply c).map fun r => ⟨r.1, .success c.praise, [c.event r.2]⟩
  | .feed communities limit => .ok ⟨s, .feed (s.feed settings now communities limit), []⟩
  | .comments post => .ok ⟨s, .comments (s.thread post), []⟩
  | .messages user => .ok ⟨s, .messages (s.inbox user), []⟩

end Store

/-! ### The engine -/

/-- The state of an engine: its store and what it has counted. -/
structure Engine where
  store : Store
  metrics : Metrics

namespace Engine

/-- A new engine. -/
def empty : Engine := ⟨.empty, .empty⟩

instance : Inhabited Engine := ⟨empty⟩

/-- The engine and the response once it is known what came of a request of some kind. -/
def conclude (e : Engine) (kind : Kind) (elapsed : Nat) :
    Except Failure Result → Engine × Response
  | .ok r =>
    (⟨r.store, (e.metrics.recordAll r.events).record (.completed kind elapsed)⟩, r.response)
  | .error f => ({ e with metrics := e.metrics.record (.failed kind) }, .error f.message)

/-- Handles a request. -/
def handle (settings : FeedSettings) (t : Reading) (e : Engine) (r : Request) :
    Engine × Response :=
  if r.kind = .ping then (e, .pong)
  else
    e.conclude r.kind t.elapsed
      ((r.plan t.now).bind fun task => e.store.perform settings t.now task)

/-- The engine after requests at their times, and the responses in order. -/
def run (settings : FeedSettings) (e : Engine) : List (Reading × Request) → Engine × List Response
  | [] => (e, [])
  | (t, r) :: rs =>
    let step := e.handle settings t r
    let rest := run settings step.1 rs
    (rest.1, step.2 :: rest.2)

end Engine

end Agora
