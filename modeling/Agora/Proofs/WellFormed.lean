import Agora.Proofs.Engine
import Agora.Proofs.Table
import Mathlib.Data.List.Induction

/-!
What holds of a store however an engine was used. Everything is filed under its own id, a message
under its recipient; ids under which things are filed, or by which they are found, have something in
them besides white space; an empty id never stands for an absent one; and there is no inbox without
a message and no target beside the posts without a vote.

The engine has its share in this, since it looks at ids and leaves out empty ones before a change
gets to the store: a change that an engine makes is `Careful`. The rest is the store's: careful
changes keep it well formed.
-/

namespace Agora

/-- Something is left of an id when it is trimmed. -/
def Named (id : String) : Prop := Text.trim id.toList ≠ []

/-- What is left of a text without white space at its start is white just when all of it was. -/
theorem all_trimStart (cs : List Char) :
    (Text.trimStart cs).all Text.isWhite = cs.all Text.isWhite := by
  induction cs with
  | nil => rfl
  | cons c cs ih =>
    by_cases h : Text.isWhite c <;> simp_all [Text.trimStart]

theorem named_iff {id : String} : Named id ↔ Text.isBlank id = false := by
  have hend (cs : List Char) : Text.trimEnd cs = [] ↔ cs.all Text.isWhite := by
    rw [Text.trimEnd, List.reverse_eq_nil_iff, ← List.all_reverse]
    exact Text.trimStart_eq_nil_iff cs.reverse
  rw [Named, Ne, Text.trim, hend, all_trimStart, ← Text.isBlank, Bool.not_eq_true]

/-! ### What is well formed -/

/-- Every value of a table is right for the key under which it stands. -/
def Table.All (P : String → α → Prop) (t : Table α) : Prop := ∀ k a, t.get? k = some a → P k a

theorem Table.All.empty {P : String → α → Prop} : (Table.empty : Table α).All P :=
  fun _ _ h => nomatch h

theorem Table.All.insert {P : String → α → Prop} {t : Table α} (all : t.All P) {k : String} {a : α}
    (right : P k a) : (t.insert k a).All P := by
  intro j b h
  rw [Table.get?_insert] at h
  split at h
  · rename_i hk
    obtain rfl := Option.some.inj h
    exact hk ▸ right
  · exact all j b h

theorem Table.All.erase {P : String → α → Prop} {t : Table α} (all : t.All P) (k : String) :
    (t.erase k).All P := by
  intro j b h
  rw [Table.get?_erase] at h
  split at h
  · exact nomatch h
  · exact all j b h

/-- Users whose ids are named. -/
def IdSet.AllNamed (ids : IdSet) : Prop := ids.All fun user _ => Named user

/-- Votes of users whose ids are named. -/
def VotersNamed (votes : Table Bool) : Prop := votes.All fun user _ => Named user

/-- A user under the right id. -/
structure User.FiledAt (id : String) (u : User) : Prop where
  own : u.id = id
  named : Named id

/-- A community under the right id. -/
structure Community.FiledAt (id : String) (c : Community) : Prop where
  own : c.id = id
  named : Named id
  members : c.members.AllNamed

/-- A post under the right id. -/
structure Post.FiledAt (id : String) (p : Post) : Prop where
  own : p.id = id
  named : Named id
  community : Named p.community
  voters : VotersNamed p.votes

/-- A comment under the right id. -/
structure Comment.FiledAt (id : String) (c : Comment) : Prop where
  own : c.id = id
  named : Named id
  post : Named c.post
  parent : c.parent ≠ some ""

/-- A message in the inbox of a user. -/
structure Message.FiledAt (user : String) (m : Message) : Prop where
  own : m.recipient = user
  named : Named m.id
  repliesTo : m.repliesTo ≠ some ""

/-- The inbox of a user. -/
structure InboxOf (user : String) (ms : List Message) : Prop where
  named : Named user
  used : ms ≠ []
  messages : ∀ m ∈ ms, m.FiledAt user

/-- Votes on something that was no post when they were given. -/
structure VotesOn (target : String) (votes : Table Bool) : Prop where
  named : Named target
  used : votes ≠ .empty
  voters : VotersNamed votes

/-- A store in which everything is where it belongs, under ids that are named. -/
structure Store.WellFormed (s : Store) : Prop where
  users : s.users.All User.FiledAt
  communities : s.communities.All Community.FiledAt
  posts : s.posts.All Post.FiledAt
  comments : s.comments.All Comment.FiledAt
  inboxes : s.inboxes.All InboxOf
  sideVotes : s.sideVotes.All VotesOn

/-- What a change must bring along for a store to stay well formed. -/
def Change.Careful : Change → Prop
  | .addUser u => Named u.id
  | .addCommunity c => Named c.id
  | .join _ user => Named user
  | .leave _ _ => True
  | .addPost p => Named p.id ∧ Named p.community
  | .addComment c => Named c.id ∧ Named c.post ∧ c.parent ≠ some ""
  | .vote target user _ => Named target ∧ Named user
  | .send m => Named m.id ∧ Named m.recipient ∧ m.repliesTo ≠ some ""

/-! ### One change -/

namespace Store

section

variable {s s' : Store} {c : Change} {o : Outcome}

theorem WellFormed.empty : Store.empty.WellFormed :=
  ⟨.empty, .empty, .empty, .empty, .empty, .empty⟩

/-- A community that is filed rightly stays so with other members who are named. -/
theorem WellFormed.withMembers (h : s.WellFormed) {id : String} {d : Community}
    (found : s.communities.get? id = some d) {members : IdSet} (named : members.AllNamed) :
    (s.withMembers id d members).WellFormed :=
  have hd := h.communities id d found
  { h with communities := h.communities.insert ⟨hd.own, hd.named, named⟩ }

theorem WellFormed.votePost (h : s.WellFormed) {target user : String} {p : Post}
    (found : s.posts.get? target = some p) (named : Named user) (up : Bool) :
    (s.votePost p target user up).WellFormed :=
  have hp := h.posts target p found
  { h with
    posts := h.posts.insert ⟨hp.own, hp.named, hp.community, hp.voters.insert named⟩ }

theorem insert_ne_empty (t : Table α) (k : String) (a : α) : t.insert k a ≠ .empty := by
  intro heq
  have hget := congrArg (·.get? k) heq
  simp at hget

theorem WellFormed.voteBeside (h : s.WellFormed) {target user : String} (named : Named target)
    (voter : Named user) (up : Bool) : (s.voteBeside target user up).WellFormed := by
  have hvoters : VotersNamed ((s.sideVotes.get? target).getD .empty) := by
    cases hvotes : s.sideVotes.get? target with
    | none => exact .empty
    | some votes => exact (h.sideVotes target votes hvotes).voters
  exact { h with
    sideVotes := h.sideVotes.insert ⟨named, insert_ne_empty _ _ _, hvoters.insert voter⟩ }

theorem WellFormed.send (h : s.WellFormed) {m : Message} (own : m.FiledAt m.recipient)
    (named : Named m.recipient) : (s.send m).WellFormed := by
  have hmessages : ∀ n ∈ (s.inboxes.get? m.recipient).getD [] ++ [m], n.FiledAt m.recipient := by
    intro n hn
    rcases List.mem_append.1 hn with hold | hnew
    · cases hinbox : s.inboxes.get? m.recipient with
      | none => rw [hinbox] at hold; exact nomatch hold
      | some ms =>
        rw [hinbox] at hold
        exact (h.inboxes m.recipient ms hinbox).messages n hold
    · obtain rfl := List.mem_singleton.1 hnew
      exact own
  exact { h with
    inboxes := h.inboxes.insert ⟨named, List.append_ne_nil_of_right_ne_nil _ (by simp), hmessages⟩ }

/-- A careful change that goes through keeps a store well formed. -/
theorem WellFormed.allows (h : s.WellFormed) (careful : c.Careful) (allows : s.Allows c s' o) :
    s'.WellFormed := by
  cases allows with
  | addUser free => exact { h with users := h.users.insert ⟨rfl, careful⟩ }
  | addCommunity free => exact { h with communities := h.communities.insert ⟨rfl, careful, .empty⟩ }
  | join found => exact h.withMembers found ((h.communities _ _ found).members.insert careful)
  | leave found => exact h.withMembers found ((h.communities _ _ found).members.erase _)
  | addPost free =>
    obtain ⟨hid, hcommunity⟩ := careful
    exact { h with posts := h.posts.insert ⟨rfl, hid, hcommunity, .empty⟩ }
  | addComment free =>
    obtain ⟨hid, hpost, hparent⟩ := careful
    exact { h with comments := h.comments.insert ⟨rfl, hid, hpost, hparent⟩ }
  | votePost found => exact h.votePost found careful.2 _
  | voteBeside absent => exact h.voteBeside careful.1 careful.2 _
  | send =>
    obtain ⟨hid, hrecipient, hreply⟩ := careful
    exact h.send ⟨rfl, hid, hreply⟩ hrecipient

end

end Store

/-! ### One request -/

theorem filled_ne_empty (id : Option String) : filled id ≠ some "" := by
  intro h
  simp [filled] at h

/-- What gets past the checks of an engine is careful. -/
theorem careful_of_task {r : Request} {now : Timestamp} {c : Change} (filled : r.blank? = none)
    (task : r.task now = .change c) : c.Careful := by
  have hnamed : ∀ f ∈ r.required, Named f.2 := by
    intro f hf
    have hfind := List.find?_eq_none.1 filled f hf
    exact named_iff.2 (Bool.not_eq_true _ ▸ hfind)
  cases r with
  | ping => exact nomatch task
  | getFeed communities limit => exact nomatch task
  | getComments post => exact nomatch task
  | getMessages user => exact nomatch task
  | _ =>
    cases task
    simp_all [Request.required, Change.Careful, filled_ne_empty]

namespace Engine

theorem wellFormed_handle {settings : FeedSettings} {t : Reading} {e : Engine} {r : Request}
    (h : e.store.WellFormed) : (e.handle settings t r).1.store.WellFormed := by
  have hhandles := handles settings t e r
  generalize (e.handle settings t r).1 = e', (e.handle settings t r).2 = a at hhandles
  cases hhandles with
  | changed other filled task allows => exact h.allows (careful_of_task filled task) allows
  | _ => exact h

/-- However an engine was used, its store is well formed. -/
theorem wellFormed_run (settings : FeedSettings) (rs : List (Reading × Request)) :
    (Engine.empty.run settings rs).1.store.WellFormed := by
  induction rs using List.reverseRecOn with
  | nil => exact .empty
  | append_singleton rs x ih =>
    rw [run_concat]
    exact wellFormed_handle ih

end Engine

end Agora
