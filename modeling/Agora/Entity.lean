import Agora.Table
import Agora.Timestamp.Basic

/-!
What a forum is made of: users, communities and their members, posts and the votes on them,
comments, and messages from one user to another. Ids are texts chosen by clients. A view is what a
reader gets to see of a post or of a comment.
-/

namespace Agora

/-- A registered account. -/
structure User where
  id : String
  username : String
  password : String
  created : Timestamp
  deriving DecidableEq

/-- A community. Members come and go only by joining and leaving. -/
structure Community where
  id : String
  name : String
  description : String
  creator : String
  members : IdSet
  created : Timestamp
  deriving DecidableEq

/-- Whether a user has joined a community. -/
def Community.isMember (c : Community) (user : String) : Bool := c.members.has user

/-- A post in a community. Its karma is the number of votes up less the number of votes down, and
moves with every vote; a vote is `true` for up. -/
structure Post where
  id : String
  community : String
  author : String
  title : String
  content : String
  karma : Int64
  created : Timestamp
  votes : Table Bool
  deriving DecidableEq

/-- A post as a feed shows it: the votes of single users stay hidden. -/
structure PostView where
  id : String
  community : String
  author : String
  title : String
  content : String
  karma : Int64
  created : Timestamp
  deriving DecidableEq

/-- What a feed shows of a post. -/
def Post.view (p : Post) : PostView :=
  ⟨p.id, p.community, p.author, p.title, p.content, p.karma, p.created⟩

/-- A comment on a post, at top level or in reply to another comment. -/
structure Comment where
  id : String
  post : String
  parent : Option String
  author : String
  content : String
  created : Timestamp
  deriving DecidableEq

/-- The id of the comment that a comment replies to; an empty id stands for none. -/
def Comment.repliesTo (c : Comment) : Option String := c.parent.filter (· ≠ "")

/-- Whether a comment stands at top level. -/
def Comment.isRoot (c : Comment) : Bool := c.repliesTo.isNone

/-- A comment at top level with the ids of the replies to it. -/
structure CommentView where
  id : String
  post : String
  parent : Option String
  author : String
  content : String
  created : Timestamp
  children : List String
  deriving DecidableEq

/-- What a reader sees of a comment that has the given replies. -/
def Comment.view (c : Comment) (children : List String) : CommentView :=
  ⟨c.id, c.post, c.parent, c.author, c.content, c.created, children⟩

/-- A message, filed under the one it is sent to. -/
structure Message where
  id : String
  sender : String
  recipient : String
  content : String
  created : Timestamp
  repliesTo : Option String
  deriving DecidableEq

end Agora
