import Agora.Store

/-!
What each change does to a store, said as rules: which changes a store allows, with the one table
that each of them touches, and which it refuses, with the failure. `apply` follows the rules, so
that nothing else needs to look into it.
-/

namespace Agora.Store

/-- A community with other members. -/
def withMembers (s : Store) (id : String) (c : Community) (members : IdSet) : Store :=
  { s with communities := s.communities.insert id { c with members } }

/-- The changes that a store allows, what they make of it and what they report. -/
inductive Allows (s : Store) : Change → Store → Outcome → Prop
  | addUser {u : User} (free : s.users.get? u.id = none) :
    Allows s (.addUser u) { s with users := s.users.insert u.id u } .done
  | addCommunity {c : Community} (free : s.communities.get? c.id = none) :
    Allows s (.addCommunity c)
      { s with communities := s.communities.insert c.id { c with members := .empty } } .done
  | join {id user : String} {c : Community} (found : s.communities.get? id = some c) :
    Allows s (.join id user) (s.withMembers id c (c.members.insert user ()))
      (.members (c.members.insert user ()).size)
  | leave {id user : String} {c : Community} (found : s.communities.get? id = some c) :
    Allows s (.leave id user) (s.withMembers id c (c.members.erase user))
      (.members (c.members.erase user).size)
  | addPost {p : Post} (free : s.posts.get? p.id = none) :
    Allows s (.addPost p) { s with posts := s.posts.insert p.id p.fresh } .done
  | addComment {c : Comment} (free : s.comments.get? c.id = none) :
    Allows s (.addComment c) { s with comments := s.comments.insert c.id c } .done
  | votePost {target user : String} {up : Bool} {p : Post} (found : s.posts.get? target = some p) :
    Allows s (.vote target user up) (s.votePost p target user up)
      (.karma (some (p.voted user up).karma))
  | voteBeside {target user : String} {up : Bool} (absent : s.posts.get? target = none) :
    Allows s (.vote target user up) (s.voteBeside target user up) (.karma none)
  | send {m : Message} : Allows s (.send m) (s.send m) .done

/-- The changes that a store refuses, and why. -/
inductive Refuses (s : Store) : Change → Failure → Prop
  | addUser {u : User} (taken : s.users.has u.id) :
    Refuses s (.addUser u) (.alreadyExists "user" u.id)
  | addCommunity {c : Community} (taken : s.communities.has c.id) :
    Refuses s (.addCommunity c) (.alreadyExists "subreddit" c.id)
  | join {id user : String} (absent : s.communities.get? id = none) :
    Refuses s (.join id user) (.notFound "subreddit" id)
  | leave {id user : String} (absent : s.communities.get? id = none) :
    Refuses s (.leave id user) (.notFound "subreddit" id)
  | addPost {p : Post} (taken : s.posts.has p.id) :
    Refuses s (.addPost p) (.alreadyExists "post" p.id)
  | addComment {c : Comment} (taken : s.comments.has c.id) :
    Refuses s (.addComment c) (.alreadyExists "comment" c.id)

/-! ### Single operations -/

theorem addTo_of_free {entity : String} {t : Table α} {id : String} (a : α)
    (free : t.get? id = none) : addTo entity t id a = .ok (t.insert id a) := by
  simp [addTo, Table.has, free]

theorem addTo_of_taken {entity : String} {t : Table α} {id : String} (a : α) (taken : t.has id) :
    addTo entity t id a = .error (.alreadyExists entity id) := by
  rw [addTo, if_pos taken]

theorem setMembers_of_found {s : Store} {id : String} {c : Community}
    (found : s.communities.get? id = some c) (f : IdSet → IdSet) :
    s.setMembers id f = .ok (s.withMembers id c (f c.members), (f c.members).size) := by
  rw [setMembers, found]; rfl

theorem setMembers_of_absent {s : Store} {id : String} (absent : s.communities.get? id = none)
    (f : IdSet → IdSet) : s.setMembers id f = .error (.notFound "subreddit" id) := by
  rw [setMembers, absent]

/-! ### All changes -/

theorem apply_of_allows {s s' : Store} {c : Change} {o : Outcome} (h : s.Allows c s' o) :
    s.apply c = .ok (s', o) := by
  cases h with
  | addUser free => rw [apply, addUser, addTo_of_free _ free]; rfl
  | addCommunity free => rw [apply, addCommunity, addTo_of_free _ free]; rfl
  | join found => rw [apply, join, setMembers_of_found found]; rfl
  | leave found => rw [apply, leave, setMembers_of_found found]; rfl
  | addPost free => rw [apply, addPost, addTo_of_free _ free]; rfl
  | addComment free => rw [apply, addComment, addTo_of_free _ free]; rfl
  | votePost found => rw [apply, vote, found]
  | voteBeside absent => rw [apply, vote, absent]
  | send => rfl

theorem apply_of_refuses {s : Store} {c : Change} {f : Failure} (h : s.Refuses c f) :
    s.apply c = .error f := by
  cases h with
  | addUser taken => rw [apply, addUser, addTo_of_taken _ taken]; rfl
  | addCommunity taken => rw [apply, addCommunity, addTo_of_taken _ taken]; rfl
  | join absent => rw [apply, join, setMembers_of_absent absent]; rfl
  | leave absent => rw [apply, leave, setMembers_of_absent absent]; rfl
  | addPost taken => rw [apply, addPost, addTo_of_taken _ taken]; rfl
  | addComment taken => rw [apply, addComment, addTo_of_taken _ taken]; rfl

theorem free_or_taken (t : Table α) (id : String) : t.get? id = none ∨ t.has id := by
  cases h : t.get? id <;> simp [Table.has, h]

/-- Every change is either allowed or refused. -/
theorem allows_or_refuses (s : Store) (c : Change) :
    (∃ s' o, s.Allows c s' o) ∨ ∃ f, s.Refuses c f := by
  cases c with
  | addUser u =>
    exact (free_or_taken s.users u.id).imp (⟨_, _, .addUser ·⟩) (⟨_, .addUser ·⟩)
  | addCommunity c =>
    exact (free_or_taken s.communities c.id).imp (⟨_, _, .addCommunity ·⟩) (⟨_, .addCommunity ·⟩)
  | join id user =>
    cases h : s.communities.get? id with
    | none => exact .inr ⟨_, .join h⟩
    | some c => exact .inl ⟨_, _, .join h⟩
  | leave id user =>
    cases h : s.communities.get? id with
    | none => exact .inr ⟨_, .leave h⟩
    | some c => exact .inl ⟨_, _, .leave h⟩
  | addPost p =>
    exact (free_or_taken s.posts p.id).imp (⟨_, _, .addPost ·⟩) (⟨_, .addPost ·⟩)
  | addComment c =>
    exact (free_or_taken s.comments c.id).imp (⟨_, _, .addComment ·⟩) (⟨_, .addComment ·⟩)
  | vote target user up =>
    cases h : s.posts.get? target with
    | none => exact .inl ⟨_, _, .voteBeside h⟩
    | some p => exact .inl ⟨_, _, .votePost h⟩
  | send m => exact .inl ⟨_, _, .send⟩

theorem apply_eq_ok_iff {s s' : Store} {c : Change} {o : Outcome} :
    s.apply c = .ok (s', o) ↔ s.Allows c s' o := by
  refine ⟨fun h => ?_, apply_of_allows⟩
  rcases allows_or_refuses s c with ⟨t, p, ha⟩ | ⟨f, hr⟩
  · have heq := (apply_of_allows ha).symm.trans h
    simp only [Except.ok.injEq, Prod.mk.injEq] at heq
    obtain ⟨rfl, rfl⟩ := heq
    exact ha
  · exact nomatch (apply_of_refuses hr).symm.trans h

/-! ### Runs -/

theorem after_of_allows {s s' : Store} {c : Change} {o : Outcome} (h : s.Allows c s' o) :
    s.after c = s' := by
  rw [after, apply_of_allows h]

theorem after_of_refuses {s : Store} {c : Change} {f : Failure} (h : s.Refuses c f) :
    s.after c = s := by
  rw [after, apply_of_refuses h]

/-- A post that goes through finds its id free, and touches nothing but the posts. -/
theorem after_addPost {s t : Store} {q : Post} {o : Outcome}
    (h : s.apply (.addPost q) = .ok (t, o)) :
    s.posts.get? q.id = none ∧
      s.after (.addPost q) = { s with posts := s.posts.insert q.id q.fresh } := by
  have hallow := apply_eq_ok_iff.1 h
  rw [after_of_allows hallow]
  cases hallow with
  | addPost free => exact ⟨free, rfl⟩

theorem run_cons (s : Store) (c : Change) (cs : List Change) :
    s.run (c :: cs) = (s.after c).run cs := rfl

theorem run_append (s : Store) (cs ds : List Change) : s.run (cs ++ ds) = (s.run cs).run ds :=
  List.foldl_append ..

end Agora.Store
