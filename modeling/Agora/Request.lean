import Agora.Entity

/-!
What clients can ask for, and what they are answered.
-/

namespace Agora

/-- The kinds of request. -/
inductive Kind where
  | ping | createUser | createCommunity | join | leave | createPost | createComment | vote
  | sendMessage | getFeed | getComments | getMessages
  deriving DecidableEq, Repr

namespace Kind

/-- All kinds, in the order in which they are named to clients. -/
def all : List Kind :=
  [.ping, .createUser, .createCommunity, .join, .leave, .createPost, .createComment, .vote,
    .sendMessage, .getFeed, .getComments, .getMessages]

/-- The name of a kind, on the wire and in metrics. -/
def name : Kind → String
  | .ping => "ping"
  | .createUser => "create_user"
  | .createCommunity => "create_subreddit"
  | .join => "join_subreddit"
  | .leave => "leave_subreddit"
  | .createPost => "create_post"
  | .createComment => "create_comment"
  | .vote => "vote"
  | .sendMessage => "send_direct_message"
  | .getFeed => "get_feed"
  | .getComments => "get_comments"
  | .getMessages => "get_direct_messages"

/-- The kind with a name. -/
def ofName? (s : String) : Option Kind := all.find? (·.name = s)

theorem ofName?_name (k : Kind) : ofName? k.name = some k := by cases k <;> decide

end Kind

/-- A request. -/
inductive Request where
  | ping
  | createUser (id username password : String)
  | createCommunity (id name description creator : String)
  | join (community user : String)
  | leave (community user : String)
  | createPost (id community author title content : String)
  | createComment (id post : String) (parent : Option String) (author content : String)
  | vote (target user : String) (up : Bool)
  | sendMessage (id sender recipient content : String) (repliesTo : Option String)
  | getFeed (communities : List String) (limit : Option UInt64)
  | getComments (post : String)
  | getMessages (user : String)
  deriving DecidableEq, Repr

/-- The kind of a request. -/
def Request.kind : Request → Kind
  | .ping => .ping
  | .createUser .. => .createUser
  | .createCommunity .. => .createCommunity
  | .join .. => .join
  | .leave .. => .leave
  | .createPost .. => .createPost
  | .createComment .. => .createComment
  | .vote .. => .vote
  | .sendMessage .. => .sendMessage
  | .getFeed .. => .getFeed
  | .getComments .. => .getComments
  | .getMessages .. => .getMessages

/-- A response. -/
inductive Response where
  | pong
  | success (message : String)
  | error (message : String)
  | feed (posts : List PostView)
  | comments (comments : List CommentView)
  | messages (messages : List Message)
  deriving DecidableEq

/-- Whether a response tells of a failure. -/
def Response.isError : Response → Bool
  | .error _ => true
  | _ => false

end Agora
