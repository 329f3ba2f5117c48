import Agora.Failure
import Agora.Vote

/-!
The store of a forum: six tables. Users, communities, posts and comments are filed under their own
ids, and an id is taken once; messages are filed under their recipient, oldest first. The vote on a
post is kept in the post. A vote on any other target is kept beside, under the id of the target.

A change either goes through or fails and leaves the store as it was.
-/

namespace Agora

/-- Everything a forum remembers. -/
structure Store where
  users : Table User
  communities : Table Community
  posts : Table Post
  comments : Table Comment
  inboxes : Table (List Message)
  sideVotes : Table (Table Bool)
  deriving DecidableEq

/-- Something to be done to a store. -/
inductive Change where
  | addUser (user : User)
  | addCommunity (community : Community)
  | join (community user : String)
  | leave (community user : String)
  | addPost (post : Post)
  | addComment (comment : Comment)
  | vote (target user : String) (up : Bool)
  | send (message : Message)
  deriving DecidableEq

/-- What a change reports: the number of members after joining or leaving, the karma of the post
after a vote on one. -/
inductive Outcome where
  | done
  | members (count : Nat)
  | karma (value : Option Int64)
  deriving DecidableEq, Repr

namespace Store

/-- The store that remembers nothing. -/
def empty : Store := ⟨.empty, .empty, .empty, .empty, .empty, .empty⟩

instance : Inhabited Store := ⟨empty⟩

/-! ### Changes -/

/-- A table with a new entry, unless the id is taken. -/
def addTo (entity : String) (t : Table α) (id : String) (a : α) : Except Failure (Table α) :=
  if t.has id then .error (.alreadyExists entity id) else .ok (t.insert id a)

/-- Registers a user. -/
def addUser (s : Store) (u : User) : Except Failure Store :=
  (addTo "user" s.users u.id u).map fun t => { s with users := t }

/-- Founds a community, which has no members at first. -/
def addCommunity (s : Store) (c : Community) : Except Failure Store :=
  (addTo "subreddit" s.communities c.id { c with members := .empty }).map fun t =>
    { s with communities := t }

/-- Replaces the members of a community, and tells how many there are then. -/
def setMembers (s : Store) (id : String) (f : IdSet → IdSet) : Except Failure (Store × Nat) :=
  match s.communities.get? id with
  | none => .error (.notFound "subreddit" id)
  | some c =>
    let members := f c.members
    .ok ({ s with communities := s.communities.insert id { c with members } }, members.size)

/-- Makes a user a member of a community. -/
def join (s : Store) (id user : String) : Except Failure (Store × Nat) :=
  s.setMembers id fun members => members.insert user ()

/-- Ends a user's membership. -/
def leave (s : Store) (id user : String) : Except Failure (Store × Nat) :=
  s.setMembers id fun members => members.erase user

/-- Files a post, which has no votes at first. -/
def addPost (s : Store) (p : Post) : Except Failure Store :=
  (addTo "post" s.posts p.id p.fresh).map fun t => { s with posts := t }

/-- Files a comment. -/
def addComment (s : Store) (c : Comment) : Except Failure Store :=
  (addTo "comment" s.comments c.id c).map fun t => { s with comments := t }

/-- Puts a message behind the others that its recipient has. -/
def send (s : Store) (m : Message) : Store :=
  let inbox := (s.inboxes.get? m.recipient).getD []
  { s with inboxes := s.inboxes.insert m.recipient (inbox ++ [m]) }

/-- The vote of a user on a post. -/
def votePost (s : Store) (p : Post) (target user : String) (up : Bool) : Store :=
  { s with posts := s.posts.insert target (p.voted user up) }

/-- The vote of a user on something that is no post. -/
def voteBeside (s : Store) (target user : String) (up : Bool) : Store :=
  let votes := (s.sideVotes.get? target).getD .empty
  { s with sideVotes := s.sideVotes.insert target (votes.insert user up) }

/-- A vote, and the karma that the post has then if the target is one. -/
def vote (s : Store) (target user : String) (up : Bool) : Store × Option Int64 :=
  match s.posts.get? target with
  | some p => (s.votePost p target user up, some (p.voted user up).karma)
  | none => (s.voteBeside target user up, none)

/-- Carries out a change. -/
def apply (s : Store) : Change → Except Failure (Store × Outcome)
  | .addUser u => (s.addUser u).map fun t => (t, .done)
  | .addCommunity c => (s.addCommunity c).map fun t => (t, .done)
  | .join c u => (s.join c u).map fun r => (r.1, .members r.2)
  | .leave c u => (s.leave c u).map fun r => (r.1, .members r.2)
  | .addPost p => (s.addPost p).map fun t => (t, .done)
  | .addComment c => (s.addComment c).map fun t => (t, .done)
  | .vote t u up => .ok ((s.vote t u up).1, .karma (s.vote t u up).2)
  | .send m => .ok (s.send m, .done)

/-- The store after an attempt at a change. -/
def after (s : Store) (c : Change) : Store :=
  match s.apply c with
  | .ok r => r.1
  | .error _ => s

/-- The store after attempts at some changes, one after the other. -/
def run (s : Store) (cs : List Change) : Store := cs.foldl after s

/-! ### Questions -/

/-- What a table holds under an id. -/
def lookUp (entity : String) (t : Table α) (id : String) : Except Failure α :=
  match t.get? id with
  | some a => .ok a
  | none => .error (.notFound entity id)

/-- The user with an id. -/
def user (s : Store) (id : String) : Except Failure User := lookUp "user" s.users id

/-- The community with an id. -/
def community (s : Store) (id : String) : Except Failure Community :=
  lookUp "subreddit" s.communities id

/-- The post with an id. -/
def post (s : Store) (id : String) : Except Failure Post := lookUp "post" s.posts id

/-- The posts in a community, in the order of their ids. -/
def postsIn (s : Store) (community : String) : List Post :=
  s.posts.values.filter (·.community = community)

/-- The comments on a post, in the order of their ids. -/
def commentsOn (s : Store) (post : String) : List Comment :=
  s.comments.values.filter (·.post = post)

/-- The messages to a user, oldest first. -/
def inbox (s : Store) (user : String) : List Message := (s.inboxes.get? user).getD []

/-- The vote of a user on a target, which is looked for among the posts first. -/
def voteOf (s : Store) (target user : String) : Option Bool :=
  match s.posts.get? target with
  | some p => p.votes.get? user
  | none => (s.sideVotes.get? target).bind (·.get? user)

end Store

end Agora
