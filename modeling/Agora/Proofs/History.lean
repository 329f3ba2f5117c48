import Agora.Proofs.Store
import Agora.Proofs.Tally

/-!
What a run of changes leaves under one id. A post stands under an id from the first change that
files one there; from then on nothing but the votes on the id moves it. A vote on an id without a
post is kept beside, and what is kept beside stays as it is once a post stands under the id.
-/

namespace Agora

/-- The votes on a target among some changes, each with its voter. -/
def votesOn (target : String) (cs : List Change) : List (String × Bool) :=
  cs.filterMap fun
    | .vote t user up => if t = target then some (user, up) else none
    | _ => none

/-- What a change makes of the post under an id, if there is one. -/
def Change.onPost (id : String) : Change → Option Post → Option Post
  | .addPost q, none => if q.id = id then some q.fresh else none
  | .vote target user up, some p => some (if target = id then p.voted user up else p)
  | _, post => post

theorem votesOn_append (target : String) (cs ds : List Change) :
    votesOn target (cs ++ ds) = votesOn target cs ++ votesOn target ds := List.filterMap_append

theorem votesOn_cons (target : String) (c : Change) (cs : List Change) :
    votesOn target (c :: cs) = votesOn target [c] ++ votesOn target cs :=
  votesOn_append target [c] cs

theorem onPost_some (c : Change) (id : String) (p : Post) :
    c.onPost id (some p) = some (p.votedAll (votesOn id [c])) := by
  cases c with
  | vote target user up =>
    by_cases h : target = id <;> simp [Change.onPost, votesOn, Post.votedAll, h]
  | _ => rfl

theorem onPost_addPost_of_ne {q : Post} {id : String} (h : q.id ≠ id) (post : Option Post) :
    (Change.addPost q).onPost id post = post := by
  cases post with
  | none => exact if_neg h
  | some p => rfl

namespace Store

variable {s : Store} {id : String}

/-! ### The post under an id -/

theorem posts_after (s : Store) (c : Change) (id : String) :
    (s.after c).posts.get? id = c.onPost id (s.posts.get? id) := by
  rcases allows_or_refuses s c with ⟨t, o, h⟩ | ⟨f, h⟩
  · rw [after_of_allows h]
    cases h with
    | @addPost p free =>
      rw [Table.get?_insert]
      split
      · rename_i heq
        rw [← heq, free]; exact (if_pos rfl).symm
      · rename_i hne
        exact (onPost_addPost_of_ne hne _).symm
    | @votePost target user up p found =>
      rw [votePost, Table.get?_insert]
      split
      · rename_i heq
        rw [← heq, found]; exact congrArg some (if_pos rfl).symm
      · rename_i hne
        cases s.posts.get? id with
        | none => rfl
        | some q => exact congrArg some (if_neg hne).symm
    | @voteBeside target user up absent =>
      cases h : s.posts.get? id with
      | none => exact h
      | some q =>
        have hne : target ≠ id := fun heq => nomatch (heq ▸ absent).symm.trans h
        exact h.trans (congrArg some (if_neg hne).symm)
    | _ => rfl
  · rw [after_of_refuses h]
    cases h with
    | @addPost p taken =>
      cases h : s.posts.get? id with
      | none =>
        have hne : p.id ≠ id := fun heq => by simp [Table.has, heq, h] at taken
        exact (if_neg hne).symm
      | some q => rfl
    | _ => rfl

/-- Once a post stands under an id, it takes the votes on the id and nothing else. -/
theorem posts_run_of_some {p : Post} (h : s.posts.get? id = some p) (cs : List Change) :
    (s.run cs).posts.get? id = some (p.votedAll (votesOn id cs)) := by
  induction cs generalizing s p with
  | nil => exact h
  | cons c cs ih =>
    have hc : (s.after c).posts.get? id = some (p.votedAll (votesOn id [c])) := by
      rw [posts_after, h, onPost_some]
    rw [run_cons, ih hc, votesOn_cons id c cs, votedAll_append]

/-- Some changes file a post under an id: those of `before` come first, then the one that does,
then those of `later`. -/
def Files (s : Store) (id : String) (cs before later : List Change) : Prop :=
  ∃ q t, cs = before ++ .addPost q :: later ∧ q.id = id ∧
    (s.run before).apply (.addPost q) = .ok (t, .done)

theorem posts_of_files {cs before later : List Change} (h : s.Files id cs before later) :
    (s.run before).posts.get? id = none ∧
      ∃ q : Post, (s.run cs).posts.get? id = some (q.fresh.votedAll (votesOn id later)) := by
  obtain ⟨q, t, rfl, rfl, hok⟩ := h
  obtain ⟨free, hafter⟩ := after_addPost hok
  have hfiled : ((s.run before).posts.insert q.id q.fresh).get? q.id = some q.fresh := by
    rw [Table.get?_insert, if_pos rfl]
  refine ⟨free, q, ?_⟩
  rw [run_append, run_cons, hafter, posts_run_of_some hfiled]

/-- A post that was not there at first was filed by one of the changes. -/
theorem exists_files {p : Post} (absent : s.posts.get? id = none) {cs : List Change}
    (h : (s.run cs).posts.get? id = some p) : ∃ before later, s.Files id cs before later := by
  induction cs generalizing s with
  | nil => exact nomatch absent.symm.trans h
  | cons c cs ih =>
    rw [run_cons] at h
    cases hc : (s.after c).posts.get? id with
    | none =>
      obtain ⟨before, later, q, t, rfl, hid, hok⟩ := ih hc h
      exact ⟨c :: before, later, q, t, rfl, hid, hok⟩
    | some r =>
      rw [posts_after, absent] at hc
      cases c with
      | addPost q =>
        have hid : q.id = id := by
          by_contra hne
          exact nomatch (if_neg hne).symm.trans hc
        exact ⟨[], cs, q, _, rfl, hid, apply_of_allows (.addPost (hid ▸ absent))⟩
      | _ => exact nomatch hc

/-! ### The votes kept beside -/

/-- The vote of a user on a target that is kept beside the posts. -/
def sideVote (s : Store) (target user : String) : Option Bool :=
  (s.sideVotes.get? target).bind (·.get? user)

theorem sideVote_voteBeside (s : Store) (target t user u : String) (up : Bool) :
    (s.voteBeside t u up).sideVote target user =
      if t = target ∧ u = user then some up else s.sideVote target user := by
  rw [sideVote, voteBeside, Table.get?_insert]
  by_cases ht : t = target
  · rw [if_pos ht, Option.bind_some, Table.get?_insert]
    by_cases hu : u = user
    · rw [if_pos hu, if_pos ⟨ht, hu⟩]
    · rw [if_neg hu, if_neg fun h => hu h.2, sideVote, ht]
      cases s.sideVotes.get? target <;> rfl
  · rw [if_neg ht, if_neg fun h => ht h.1]; rfl

theorem latest_votesOn_singleton (target user t u : String) (up : Bool) :
    latest user (votesOn target [.vote t u up]) =
      if t = target ∧ u = user then some up else none := by
  by_cases ht : t = target <;> by_cases hu : u = user <;> simp [votesOn, latest, ownVotes, ht, hu]

/-- A vote goes beside just when no post stands under its target. -/
theorem sideVote_after (s : Store) (c : Change) (target user : String) :
    (s.after c).sideVote target user =
      if s.posts.has target then s.sideVote target user
      else (latest user (votesOn target [c])).or (s.sideVote target user) := by
  have keep : ∀ t : Store, t.sideVotes = s.sideVotes → votesOn target [c] = [] →
      t.sideVote target user = if s.posts.has target then s.sideVote target user
        else (latest user (votesOn target [c])).or (s.sideVote target user) := by
    intro t ht hv
    rw [hv, latest_nil, Option.none_or, ite_self, sideVote, ht]; rfl
  rcases allows_or_refuses s c with ⟨t, o, h⟩ | ⟨f, h⟩
  · rw [after_of_allows h]
    cases h with
    | @votePost t u up p found =>
      by_cases ht : t = target
      · rw [if_pos (by simp [Table.has, ← ht, found])]; rfl
      · exact keep _ rfl (by simp [votesOn, ht])
    | @voteBeside t u up absent =>
      rw [sideVote_voteBeside, latest_votesOn_singleton]
      by_cases h : t = target ∧ u = user
      · rw [if_pos h, if_pos h, if_neg (by simp [Table.has, ← h.1, absent])]; rfl
      · rw [if_neg h, if_neg h, Option.none_or, ite_self]
    | _ => exact keep _ rfl rfl
  · rw [after_of_refuses h]
    cases h with
    | _ => exact keep _ rfl rfl

/-- While no post stands under a target, what is kept beside is the latest vote. -/
theorem sideVote_run_of_none {cs : List Change} (target user : String)
    (absent : (s.run cs).posts.get? target = none) :
    (s.run cs).sideVote target user =
      (latest user (votesOn target cs)).or (s.sideVote target user) := by
  induction cs generalizing s with
  | nil => rfl
  | cons c cs ih =>
    have hs : s.posts.has target = false := by
      rw [Table.has_eq_false]
      cases h : s.posts.get? target with
      | none => rfl
      | some p => exact nomatch (posts_run_of_some h (c :: cs)).symm.trans absent
    rw [run_cons, ih absent, sideVote_after, hs, votesOn_cons target c cs, latest_append,
      Option.or_assoc]
    rfl

/-- Once a post stands under a target, what is kept beside stays as it is. -/
theorem sideVote_run_of_some {p : Post} {target : String} (h : s.posts.get? target = some p)
    (cs : List Change) (user : String) :
    (s.run cs).sideVote target user = s.sideVote target user := by
  induction cs generalizing s p with
  | nil => rfl
  | cons c cs ih =>
    have hc : (s.after c).posts.get? target = some _ := posts_run_of_some h [c]
    rw [run_cons, ih hc, sideVote_after, if_pos (by simp [Table.has, h])]

end Store

end Agora
