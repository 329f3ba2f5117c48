import Agora.Entity
import Agora.Json.Record

/-!
The JSON form of entities: objects with a member for each field, written in the order of the fields.
Sets are lists and tables are objects, both in the order of their keys.
-/

namespace Agora

open Json

/-- The JSON form of a point in time. -/
def Timestamp.toJson (t : Timestamp) : Json := .str t.toText

/-- The JSON form of an id that may be missing. -/
def idOrNull (id : Option String) : Json := optional Json.str id

/-- The JSON form of karma. -/
def karmaJson (k : Int64) : Json := Json.int k.toInt

/-- The JSON form of a list of ids. -/
def idList (ids : List String) : Json := .arr (ids.map Json.str)

namespace User

/-- The fields of a user. -/
def fields : Fields User :=
  ((((Fields.done User.mk).also (.required "id" .text)).also (.required "username" .text)).also
    (.required "password" .text)).also (.required "created_at" .instant)

/-- The JSON form of a user. -/
def toJson (u : User) : Json :=
  .obj [("id", .str u.id), ("username", .str u.username), ("password", .str u.password),
    ("created_at", u.created.toJson)]

/-- What messages call a user. -/
def shape : String := "struct User"

end User

namespace Community

/-- The fields of a community. -/
def fields : Fields Community :=
  ((((((Fields.done Community.mk).also (.required "id" .text)).also (.required "name" .text)).also
    (.required "description" .text)).also (.required "creator_id" .text)).also
    (.required "members" .ids)).also (.required "created_at" .instant)

/-- The JSON form of a community with its members in some order. -/
def jsonWith (c : Community) (members : List String) : Json :=
  .obj [("id", .str c.id), ("name", .str c.name), ("description", .str c.description),
    ("creator_id", .str c.creator), ("members", idList members),
    ("created_at", c.created.toJson)]

/-- The JSON form of a community. -/
def toJson (c : Community) : Json := c.jsonWith c.members.keys

/-- What messages call a community. -/
def shape : String := "struct Subreddit"

end Community

namespace Post

/-- The fields of a post. -/
def fields : Fields Post :=
  ((((((((Fields.done Post.mk).also (.required "id" .text)).also
    (.required "subreddit_id" .text)).also (.required "author_id" .text)).also
    (.required "title" .text)).also (.required "content" .text)).also
    (.required "karma" .int64)).also (.required "created_at" .instant)).also
    (.required "votes" (.table .bool))

/-- The JSON form of a post with the votes on it in some order. -/
def jsonWith (p : Post) (votes : List (String × Bool)) : Json :=
  .obj [("id", .str p.id), ("subreddit_id", .str p.community), ("author_id", .str p.author),
    ("title", .str p.title), ("content", .str p.content), ("karma", karmaJson p.karma),
    ("created_at", p.created.toJson), ("votes", .obj (votes.map fun e => (e.1, .bool e.2)))]

/-- The JSON form of a post. -/
def toJson (p : Post) : Json := p.jsonWith p.votes.entries

/-- What messages call a post. -/
def shape : String := "struct Post"

end Post

namespace PostView

/-- The fields of a post in a feed. -/
def fields : Fields PostView :=
  (((((((Fields.done PostView.mk).also (.required "id" .text)).also
    (.required "subreddit_id" .text)).also (.required "author_id" .text)).also
    (.required "title" .text)).also (.required "content" .text)).also
    (.required "karma" .int64)).also (.required "created_at" .instant)

/-- The JSON form of a post in a feed. -/
def toJson (p : PostView) : Json :=
  .obj [("id", .str p.id), ("subreddit_id", .str p.community), ("author_id", .str p.author),
    ("title", .str p.title), ("content", .str p.content), ("karma", karmaJson p.karma),
    ("created_at", p.created.toJson)]

/-- What messages call a post in a feed. -/
def shape : String := "struct PostView"

end PostView

namespace Comment

/-- The fields of a comment. -/
def fields : Fields Comment :=
  ((((((Fields.done Comment.mk).also (.required "id" .text)).also
    (.required "post_id" .text)).also (.optional "parent_id" .text)).also
    (.required "author_id" .text)).also (.required "content" .text)).also
    (.required "created_at" .instant)

/-- The JSON form of a comment. -/
def toJson (c : Comment) : Json :=
  .obj [("id", .str c.id), ("post_id", .str c.post), ("parent_id", idOrNull c.parent),
    ("author_id", .str c.author), ("content", .str c.content), ("created_at", c.created.toJson)]

/-- What messages call a comment. -/
def shape : String := "struct Comment"

end Comment

namespace CommentView

/-- The fields of a comment with its replies. -/
def fields : Fields CommentView :=
  (((((((Fields.done CommentView.mk).also (.required "id" .text)).also
    (.required "post_id" .text)).also (.optional "parent_id" .text)).also
    (.required "author_id" .text)).also (.required "content" .text)).also
    (.required "created_at" .instant)).also (.required "children" (.list .text))

/-- The JSON form of a comment with its replies. -/
def toJson (c : CommentView) : Json :=
  .obj [("id", .str c.id), ("post_id", .str c.post), ("parent_id", idOrNull c.parent),
    ("author_id", .str c.author), ("content", .str c.content), ("created_at", c.created.toJson),
    ("children", idList c.children)]

/-- What messages call a comment with its replies. -/
def shape : String := "struct CommentView"

end CommentView

namespace Message

/-- The fields of a message. -/
def fields : Fields Message :=
  ((((((Fields.done Message.mk).also (.required "id" .text)).also
    (.required "from_id" .text)).also (.required "to_id" .text)).also
    (.required "content" .text)).also (.required "created_at" .instant)).also
    (.optional "reply_to_id" .text)

/-- The JSON form of a message. -/
def toJson (m : Message) : Json :=
  .obj [("id", .str m.id), ("from_id", .str m.sender), ("to_id", .str m.recipient),
    ("content", .str m.content), ("created_at", m.created.toJson),
    ("reply_to_id", idOrNull m.repliesTo)]

/-- What messages to clients call a message. -/
def shape : String := "struct DirectMessage"

end Message

end Agora
