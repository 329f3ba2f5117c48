import Agora.Proofs.Engine

/-!
What a request may touch. Of the six tables a request alters at most one, of that table at most the
entry under the id that it names, and in that entry no more than it is about: a member of a
community, a user's vote and the karma that moves with it, the end of an inbox. What is created
appears where nothing stood. All other entries are as they were, whatever came of the request.
-/

namespace Agora

/-- Two tables hold the same except under one key, where what was held and what is held then
stand in a relation. -/
structure Table.Alters (key : String) (R : Option α → Option α → Prop) (t t' : Table α) : Prop where
  others : ∀ k, k ≠ key → t'.get? k = t.get? k
  own : R (t.get? key) (t'.get? key)

/-- Two tables hold the same except under one key. -/
def Table.SameBut (key : String) (t t' : Table α) : Prop := t.Alters key (fun _ _ => True) t'

/-- An entry stays as it is, present or absent, or it was absent and is a new one then. -/
def Appears (new : α) (before after : Option α) : Prop :=
  after = before ∨ before = none ∧ after = some new

/-- An inbox stays as it is, or a message is put behind those that it held. -/
def Receives (m : Message) (before after : Option (List Message)) : Prop :=
  after = before ∨ after = some (before.getD [] ++ [m])

/-- A community stays as it is but for the membership of one user. -/
def Community.MovedBy (user : String) (c c' : Community) : Prop :=
  ∃ members, c' = { c with members } ∧ c.members.SameBut user members

/-- A post stays as it is but for its karma and the vote of one user. -/
def Post.VotedBy (user : String) (p p' : Post) : Prop :=
  ∃ karma votes, p' = { p with karma, votes } ∧ p.votes.SameBut user votes

/-- The votes kept beside for a target stay as they are, or only the vote of one user differs. -/
def BesideBy (user : String) (before after : Option (Table Bool)) : Prop :=
  after = before ∨ ∃ votes, after = some votes ∧ (before.getD .empty).SameBut user votes

/-- What a request may do to a store, at most. -/
def Request.Touches (now : Timestamp) (s s' : Store) : Request → Prop
  | .ping | .getFeed _ _ | .getComments _ | .getMessages _ => s' = s
  | .createUser id username password =>
    ∃ users, s' = { s with users } ∧
      s.users.Alters id (Appears ⟨id, username, password, now⟩) users
  | .createCommunity id name description creator =>
    ∃ communities, s' = { s with communities } ∧
      s.communities.Alters id (Appears ⟨id, name, description, creator, .empty, now⟩) communities
  | .createPost id community author title content =>
    ∃ posts, s' = { s with posts } ∧
      s.posts.Alters id (Appears ⟨id, community, author, title, content, 0, now, .empty⟩) posts
  | .createComment id post parent author content =>
    ∃ comments, s' = { s with comments } ∧
      s.comments.Alters id (Appears ⟨id, post, filled parent, author, content, now⟩) comments
  | .join community user | .leave community user =>
    ∃ communities, s' = { s with communities } ∧
      s.communities.Alters community (Option.Rel (Community.MovedBy user)) communities
  | .sendMessage id sender recipient content repliesTo =>
    ∃ inboxes, s' = { s with inboxes } ∧
      s.inboxes.Alters recipient
        (Receives ⟨id, sender, recipient, content, now, filled repliesTo⟩) inboxes
  | .vote target user _ =>
    if s.posts.has target then
      ∃ posts, s' = { s with posts } ∧
        s.posts.Alters target (Option.Rel (Post.VotedBy user)) posts
    else
      ∃ sideVotes, s' = { s with sideVotes } ∧
        s.sideVotes.Alters target (BesideBy user) sideVotes

/-! ### Entries -/

section

variable {t : Table α} {key user : String} {R : Option α → Option α → Prop}

theorem Table.alters_self (h : ∀ a, R a a) : t.Alters key R t := ⟨fun _ _ => rfl, h _⟩

theorem Table.alters_insert {a : α} (h : R (t.get? key) (some a)) :
    t.Alters key R (t.insert key a) where
  others k hk := by rw [get?_insert, if_neg (Ne.symm hk)]
  own := by rwa [get?_insert, if_pos rfl]

theorem Table.sameBut_self : t.SameBut key t := alters_self fun _ => trivial

theorem Table.sameBut_insert {a : α} : t.SameBut key (t.insert key a) := alters_insert trivial

theorem Table.sameBut_erase : t.SameBut key (t.erase key) :=
  ⟨fun k hk => by rw [get?_erase, if_neg (Ne.symm hk)], trivial⟩

theorem rel_self {P : α → α → Prop} (h : ∀ a, P a a) : ∀ a, Option.Rel P a a
  | none => .none
  | some a => .some (h a)

theorem Community.movedBy_self (c : Community) : c.MovedBy user c :=
  ⟨c.members, rfl, Table.sameBut_self⟩

theorem Post.votedBy_self (p : Post) : p.VotedBy user p :=
  ⟨p.karma, p.votes, rfl, Table.sameBut_self⟩

theorem Post.votedBy_voted (p : Post) (up : Bool) : p.VotedBy user (p.voted user up) :=
  ⟨_, _, rfl, Table.sameBut_insert⟩

end

/-! ### Requests -/

variable {r : Request} {now : Timestamp} {s s' : Store} {c : Change} {o : Outcome}

/-- A request that comes to nothing touches nothing. -/
theorem Request.touches_self (r : Request) (now : Timestamp) (s : Store) : r.Touches now s s := by
  cases r with
  | ping => rfl
  | createUser => exact ⟨s.users, rfl, Table.alters_self fun _ => .inl rfl⟩
  | createCommunity => exact ⟨s.communities, rfl, Table.alters_self fun _ => .inl rfl⟩
  | join => exact ⟨s.communities, rfl, Table.alters_self (rel_self Community.movedBy_self)⟩
  | leave => exact ⟨s.communities, rfl, Table.alters_self (rel_self Community.movedBy_self)⟩
  | createPost => exact ⟨s.posts, rfl, Table.alters_self fun _ => .inl rfl⟩
  | createComment => exact ⟨s.comments, rfl, Table.alters_self fun _ => .inl rfl⟩
  | vote target user up =>
    rw [Touches]
    split
    · exact ⟨s.posts, rfl, Table.alters_self (rel_self Post.votedBy_self)⟩
    · exact ⟨s.sideVotes, rfl, Table.alters_self fun _ => .inl rfl⟩
  | sendMessage => exact ⟨s.inboxes, rfl, Table.alters_self fun _ => .inl rfl⟩
  | getFeed => rfl
  | getComments => rfl
  | getMessages => rfl

/-- The change that a request asks for touches what the request may touch. -/
theorem Request.touches_of_allows (task : r.task now = .change c) (allows : s.Allows c s' o) :
    r.Touches now s s' := by
  cases r <;> cases task <;> cases allows
  case createUser.refl.addUser free => exact ⟨_, rfl, Table.alters_insert (.inr ⟨free, rfl⟩)⟩
  case createCommunity.refl.addCommunity free =>
    exact ⟨_, rfl, Table.alters_insert (.inr ⟨free, rfl⟩)⟩
  case join.refl.join c found =>
    refine ⟨_, rfl, Table.alters_insert ?_⟩
    rw [found]
    exact .some ⟨_, rfl, Table.sameBut_insert⟩
  case leave.refl.leave c found =>
    refine ⟨_, rfl, Table.alters_insert ?_⟩
    rw [found]
    exact .some ⟨_, rfl, Table.sameBut_erase⟩
  case createPost.refl.addPost free => exact ⟨_, rfl, Table.alters_insert (.inr ⟨free, rfl⟩)⟩
  case createComment.refl.addComment free =>
    exact ⟨_, rfl, Table.alters_insert (.inr ⟨free, rfl⟩)⟩
  case vote.refl.votePost p found =>
    rw [Touches, if_pos (by simp [Table.has, found])]
    refine ⟨_, rfl, Table.alters_insert ?_⟩
    rw [found]
    exact .some (p.votedBy_voted _)
  case vote.refl.voteBeside absent =>
    rw [Touches, if_neg (by simp [Table.has, absent])]
    exact ⟨_, rfl, Table.alters_insert (.inr ⟨_, rfl, Table.sameBut_insert⟩)⟩
  case sendMessage.refl.send => exact ⟨_, rfl, Table.alters_insert (.inr rfl)⟩

/-- Handling a request alters at most the one entry that the request names, and of that entry no
more than the request is about. -/
theorem Engine.request_alters_one_entry (settings : FeedSettings) (t : Reading) (e : Engine)
    (r : Request) : r.Touches t.now e.store (e.handle settings t r).1.store := by
  have hr := handles settings t e r
  generalize (e.handle settings t r).1 = e', (e.handle settings t r).2 = a at hr
  cases hr with
  | changed other filled task allows => exact Request.touches_of_allows task allows
  | greeted ping => exact r.touches_self t.now e.store
  | blank other blank => exact r.touches_self t.now e.store
  | refused other filled task refuses => exact r.touches_self t.now e.store
  | asked other filled answers => exact r.touches_self t.now e.store

end Agora
