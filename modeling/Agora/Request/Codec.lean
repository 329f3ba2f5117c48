import Agora.Entity.Codec
import Agora.Json.Tagged
import Agora.Request

/-!
The JSON form of requests and responses: objects whose member `type` names the variant.
-/

namespace Agora

open Json

namespace Kind

/-- The variant that a request of a kind is. -/
def variant : Kind → String
  | .ping => "Ping"
  | .createUser => "CreateUser"
  | .createCommunity => "CreateSubreddit"
  | .join => "JoinSubreddit"
  | .leave => "LeaveSubreddit"
  | .createPost => "CreatePost"
  | .createComment => "CreateComment"
  | .vote => "Vote"
  | .sendMessage => "SendDirectMessage"
  | .getFeed => "GetFeed"
  | .getComments => "GetComments"
  | .getMessages => "GetDirectMessages"

/-- The tag of a request of a kind. -/
def tag (k : Kind) : String := Tagged.tagOf k.variant

/-- What messages call a request of a kind. -/
def shape : Kind → String
  | .ping => "unit variant Request::Ping"
  | .createUser => "struct variant Request::CreateUser"
  | .createCommunity => "struct variant Request::CreateSubreddit"
  | .join => "struct variant Request::JoinSubreddit"
  | .leave => "struct variant Request::LeaveSubreddit"
  | .createPost => "struct variant Request::CreatePost"
  | .createComment => "struct variant Request::CreateComment"
  | .vote => "struct variant Request::Vote"
  | .sendMessage => "struct variant Request::SendDirectMessage"
  | .getFeed => "struct variant Request::GetFeed"
  | .getComments => "struct variant Request::GetComments"
  | .getMessages => "struct variant Request::GetDirectMessages"

/-- The fields of a request of a kind. -/
def fields : Kind → Fields Request
  | .ping => .done .ping
  | .createUser =>
    (((Fields.done Request.createUser).also (.required "id" .text)).also
      (.required "username" .text)).also (.required "password" .text)
  | .createCommunity =>
    ((((Fields.done Request.createCommunity).also (.required "id" .text)).also
      (.required "name" .text)).also (.required "description" .text)).also
      (.required "creator_id" .text)
  | .join =>
    ((Fields.done Request.join).also (.required "subreddit_id" .text)).also
      (.required "user_id" .text)
  | .leave =>
    ((Fields.done Request.leave).also (.required "subreddit_id" .text)).also
      (.required "user_id" .text)
  | .createPost =>
    (((((Fields.done Request.createPost).also (.required "id" .text)).also
      (.required "subreddit_id" .text)).also (.required "author_id" .text)).also
      (.required "title" .text)).also (.required "content" .text)
  | .createComment =>
    (((((Fields.done Request.createComment).also (.required "id" .text)).also
      (.required "post_id" .text)).also (.defaulted "parent_id" .text)).also
      (.required "author_id" .text)).also (.required "content" .text)
  | .vote =>
    (((Fields.done Request.vote).also (.required "target_id" .text)).also
      (.required "user_id" .text)).also (.required "is_upvote" .bool)
  | .sendMessage =>
    (((((Fields.done Request.sendMessage).also (.required "id" .text)).also
      (.required "from_id" .text)).also (.required "to_id" .text)).also
      (.required "content" .text)).also (.defaulted "reply_to_id" .text)
  | .getFeed =>
    ((Fields.done Request.getFeed).also (.required "subreddit_ids" (.list .text))).also
      (.defaulted "limit" .uint64)
  | .getComments => (Fields.done Request.getComments).also (.required "post_id" .text)
  | .getMessages => (Fields.done Request.getMessages).also (.required "user_id" .text)

end Kind

namespace Request

/-- The variants of a request. -/
def variants : Tagged.Variants Request :=
  ⟨"internally tagged enum Request", Kind.all.map fun k => (k.tag, k.fields.whole k.shape)⟩

/-- The members of a request without its tag. -/
def members : Request → List (String × Json)
  | .ping => []
  | .createUser id username password =>
    [("id", .str id), ("username", .str username), ("password", .str password)]
  | .createCommunity id name description creator =>
    [("id", .str id), ("name", .str name), ("description", .str description),
      ("creator_id", .str creator)]
  | .join community user => [("subreddit_id", .str community), ("user_id", .str user)]
  | .leave community user => [("subreddit_id", .str community), ("user_id", .str user)]
  | .createPost id community author title content =>
    [("id", .str id), ("subreddit_id", .str community), ("author_id", .str author),
      ("title", .str title), ("content", .str content)]
  | .createComment id post parent author content =>
    [("id", .str id), ("post_id", .str post), ("parent_id", idOrNull parent),
      ("author_id", .str author), ("content", .str content)]
  | .vote target user up =>
    [("target_id", .str target), ("user_id", .str user), ("is_upvote", .bool up)]
  | .sendMessage id sender recipient content repliesTo =>
    [("id", .str id), ("from_id", .str sender), ("to_id", .str recipient),
      ("content", .str content), ("reply_to_id", idOrNull repliesTo)]
  | .getFeed communities limit =>
    [("subreddit_ids", idList communities),
      ("limit", Json.optional (fun n : UInt64 => Json.int n.toNat) limit)]
  | .getComments post => [("post_id", .str post)]
  | .getMessages user => [("user_id", .str user)]

/-- The JSON form of a request. -/
def toJson (r : Request) : Json := .obj ((Tagged.tagName, .str r.kind.tag) :: r.members)

/-- The request that a text stands for. -/
def ofText (cs : List Char) : Except Refusal Request := variants.decode (readText true cs)

/-- The request that a JSON value stands for. -/
def ofJson (j : Json) : Except Refusal Request := variants.decode (.ofJson j)

end Request

namespace Response

/-- The variants of a response. -/
def variants : Tagged.Variants Response :=
  ⟨"internally tagged enum Response",
    [("pong", (Fields.done Response.pong).whole "unit variant Response::Pong"),
      ("success", ((Fields.done Response.success).also (.required "message" .text)).whole
        "struct variant Response::Success"),
      ("error", ((Fields.done Response.error).also (.required "message" .text)).whole
        "struct variant Response::Error"),
      ("feed", ((Fields.done Response.feed).also
        (.required "posts" (.list (PostView.fields.whole PostView.shape)))).whole
        "struct variant Response::Feed"),
      ("comments", ((Fields.done Response.comments).also
        (.required "comments" (.list (CommentView.fields.whole CommentView.shape)))).whole
        "struct variant Response::Comments"),
      ("direct_messages", ((Fields.done Response.messages).also
        (.required "messages" (.list (Message.fields.whole Message.shape)))).whole
        "struct variant Response::DirectMessages")]⟩

/-- The JSON form of a response. -/
def toJson : Response → Json
  | .pong => .obj [(Tagged.tagName, .str "pong")]
  | .success message => .obj [(Tagged.tagName, .str "success"), ("message", .str message)]
  | .error message => .obj [(Tagged.tagName, .str "error"), ("message", .str message)]
  | .feed posts => .obj [(Tagged.tagName, .str "feed"), ("posts", .arr (posts.map (·.toJson)))]
  | .comments views =>
    .obj [(Tagged.tagName, .str "comments"), ("comments", .arr (views.map (·.toJson)))]
  | .messages inbox =>
    .obj [(Tagged.tagName, .str "direct_messages"), ("messages", .arr (inbox.map (·.toJson)))]

/-- The response that a text stands for. -/
def ofText (cs : List Char) : Except Refusal Response := variants.decode (readText true cs)

end Response

end Agora
