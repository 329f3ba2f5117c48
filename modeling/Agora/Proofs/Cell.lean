import Agora.Proofs.Store

/-!
A store as cells. Each change is about one cell: what is filed under one id among things of one
kind. A post and the votes kept beside under its id are in one cell, since a vote looks at both. A
change leaves every other cell as it is, and what comes of it depends on nothing but its own cell.
So changes of different cells do not notice each other.
-/

namespace Agora

/-- The names of the cells of a store. -/
inductive Key where
  | user (id : String)
  | community (id : String)
  | target (id : String)
  | comment (id : String)
  | inbox (id : String)
  deriving DecidableEq, Repr

/-- What a cell holds. -/
inductive Cell where
  | user (u : Option User)
  | community (c : Option Community)
  | target (p : Option Post) (beside : Option (Table Bool))
  | comment (c : Option Comment)
  | inbox (messages : Option (List Message))

/-- The cell that a change is about. -/
def Change.key : Change → Key
  | .addUser u => .user u.id
  | .addCommunity c => .community c.id
  | .join id _ => .community id
  | .leave id _ => .community id
  | .addPost p => .target p.id
  | .addComment c => .comment c.id
  | .vote target _ _ => .target target
  | .send m => .inbox m.recipient

namespace Store

/-- The cell of a store with a name. -/
def cell (s : Store) : Key → Cell
  | .user id => .user (s.users.get? id)
  | .community id => .community (s.communities.get? id)
  | .target id => .target (s.posts.get? id) (s.sideVotes.get? id)
  | .comment id => .comment (s.comments.get? id)
  | .inbox id => .inbox (s.inboxes.get? id)

/-- A store is determined by its cells. -/
theorem eq_of_cells {s t : Store} (h : ∀ k, s.cell k = t.cell k) : s = t := by
  obtain ⟨users, communities, posts, comments, inboxes, sideVotes⟩ := s
  obtain ⟨users', communities', posts', comments', inboxes', sideVotes'⟩ := t
  have husers : users = users' := Table.ext fun id => Cell.user.inj (h (.user id))
  have hcommunities : communities = communities' :=
    Table.ext fun id => Cell.community.inj (h (.community id))
  have hposts : posts = posts' := Table.ext fun id => (Cell.target.inj (h (.target id))).1
  have hcomments : comments = comments' := Table.ext fun id => Cell.comment.inj (h (.comment id))
  have hinboxes : inboxes = inboxes' := Table.ext fun id => Cell.inbox.inj (h (.inbox id))
  have hbeside : sideVotes = sideVotes' := Table.ext fun id => (Cell.target.inj (h (.target id))).2
  rw [husers, hcommunities, hposts, hcomments, hinboxes, hbeside]

/-! ### One change -/

/-- A change that goes through leaves the other cells as they are. -/
theorem Allows.cell_of_ne {s s' : Store} {c : Change} {o : Outcome} {k : Key}
    (h : s.Allows c s' o) (other : c.key ≠ k) : s'.cell k = s.cell k := by
  cases h <;> cases k <;>
    simp_all [cell, Change.key, withMembers, Store.votePost, Store.voteBeside, Store.send]

/-- What comes of a change that goes through depends on its own cell. -/
theorem Allows.congr {s s' t : Store} {c : Change} {o : Outcome} (h : s.Allows c s' o)
    (same : t.cell c.key = s.cell c.key) :
    ∃ t', t.Allows c t' o ∧ t'.cell c.key = s'.cell c.key := by
  cases h with
  | @addUser u free =>
    have hu : t.users.get? u.id = s.users.get? u.id := Cell.user.inj same
    exact ⟨_, .addUser (hu.trans free), by simp [cell, Change.key]⟩
  | @addCommunity c free =>
    have hc : t.communities.get? c.id = s.communities.get? c.id := Cell.community.inj same
    exact ⟨_, .addCommunity (hc.trans free), by simp [cell, Change.key]⟩
  | @join id user c found =>
    have hc : t.communities.get? id = s.communities.get? id := Cell.community.inj same
    exact ⟨_, .join (hc.trans found), by simp [cell, Change.key, withMembers]⟩
  | @leave id user c found =>
    have hc : t.communities.get? id = s.communities.get? id := Cell.community.inj same
    exact ⟨_, .leave (hc.trans found), by simp [cell, Change.key, withMembers]⟩
  | @addPost p free =>
    obtain ⟨hp, hbeside⟩ := Cell.target.inj same
    exact ⟨_, .addPost (hp.trans free), by simp [cell, Change.key, hbeside]⟩
  | @addComment c free =>
    have hc : t.comments.get? c.id = s.comments.get? c.id := Cell.comment.inj same
    exact ⟨_, .addComment (hc.trans free), by simp [cell, Change.key]⟩
  | @votePost target user up p found =>
    obtain ⟨hp, hbeside⟩ := Cell.target.inj same
    exact ⟨_, .votePost (hp.trans found), by simp [cell, Change.key, Store.votePost, hbeside]⟩
  | @voteBeside target user up absent =>
    obtain ⟨hp, hbeside⟩ := Cell.target.inj same
    exact ⟨_, .voteBeside (hp.trans absent),
      by simp [cell, Change.key, Store.voteBeside, hp, hbeside]⟩
  | @send m =>
    have hm : t.inboxes.get? m.recipient = s.inboxes.get? m.recipient := Cell.inbox.inj same
    exact ⟨_, .send, by simp [cell, Change.key, Store.send, hm]⟩

theorem Refuses.congr {s t : Store} {c : Change} {f : Failure} (h : s.Refuses c f)
    (same : t.cell c.key = s.cell c.key) : t.Refuses c f := by
  cases h with
  | addUser taken => exact .addUser (by simp_all [cell, Change.key, Table.has])
  | addCommunity taken => exact .addCommunity (by simp_all [cell, Change.key, Table.has])
  | join absent => exact .join (by simp_all [cell, Change.key])
  | leave absent => exact .leave (by simp_all [cell, Change.key])
  | addPost taken => exact .addPost (by simp_all [cell, Change.key, Table.has])
  | addComment taken => exact .addComment (by simp_all [cell, Change.key, Table.has])

/-! ### Attempts at changes -/

/-- What an attempt at a change reports: its outcome, or why it is refused. -/
def report (s : Store) (c : Change) : Except Failure Outcome := (s.apply c).map (·.2)

theorem report_of_allows {s s' : Store} {c : Change} {o : Outcome} (h : s.Allows c s' o) :
    s.report c = .ok o := by
  rw [report, apply_of_allows h]
  rfl

theorem report_of_refuses {s : Store} {c : Change} {f : Failure} (h : s.Refuses c f) :
    s.report c = .error f := by
  rw [report, apply_of_refuses h]
  rfl

/-- An attempt at a change leaves the other cells as they are. -/
theorem cell_after_of_ne (s : Store) {c : Change} {k : Key} (other : c.key ≠ k) :
    (s.after c).cell k = s.cell k := by
  rcases allows_or_refuses s c with ⟨s', o, h⟩ | ⟨f, h⟩
  · rw [after_of_allows h, h.cell_of_ne other]
  · rw [after_of_refuses h]

/-- What an attempt at a change reports, and what it leaves in its own cell, depends on nothing
but that cell. -/
theorem congr_of_cell {s t : Store} {c : Change} (same : t.cell c.key = s.cell c.key) :
    t.report c = s.report c ∧ (t.after c).cell c.key = (s.after c).cell c.key := by
  rcases allows_or_refuses s c with ⟨s', o, h⟩ | ⟨f, h⟩
  · obtain ⟨t', ht, hcell⟩ := h.congr same
    rw [report_of_allows h, report_of_allows ht, after_of_allows h, after_of_allows ht]
    exact ⟨rfl, hcell⟩
  · have ht := h.congr same
    rw [report_of_refuses h, report_of_refuses ht, after_of_refuses h, after_of_refuses ht]
    exact ⟨rfl, same⟩

end Store

end Agora
