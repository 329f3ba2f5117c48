import Agora.Proofs.Refusal
import Agora.Proofs.Table

/-!
What the engine counts against what its store holds. A change that goes through moves the store and
the counters together, a request that fails or only asks moves neither, and each request is counted
once, by its duration or as an error. So the two agree after any run from nothing.
-/

namespace Agora

/-- What is shown of a counter under a label: nothing before it is touched. -/
def touched (n : Nat) : Option Nat := if n = 0 then none else some n

/-- The counters and gauges tell what the store holds. -/
structure Metrics.Mirrors (m : Metrics) (s : Store) : Prop where
  users : m.users = s.users.size
  posts : m.posts = s.posts.size
  comments : m.comments = s.comments.size
  messages : m.messages = (s.inboxes.values.map List.length).sum
  postsIn : ∀ community, m.postsIn.get? community = touched (s.postsIn community).length
  postsSum : m.postsIn.values.sum = m.posts
  membersOf : ∀ community, m.membersOf.get? community =
    (s.communities.get? community).map fun c => min c.members.size (2 ^ 63 - 1)

/-- The counters tell how requests were answered. -/
structure Metrics.Logs (m : Metrics) (log : List (Request × Response)) : Prop where
  votes : m.votes = log.countP fun x => x.1.kind = .vote && !x.2.isError
  errors : ∀ kind : Kind, m.errors.get? kind.name =
    touched (log.countP fun x => x.1.kind = kind && x.2.isError)
  handled : m.durations.count + m.errors.values.sum = log.countP fun x => x.1.kind ≠ .ping

/-! ### Labelled counters -/

namespace Metrics

@[simp] theorem getD_touched (n : Nat) : (touched n).getD 0 = n := by
  unfold touched; split <;> simp_all

theorem get?_increment {t : Table Nat} {l : String} {n : Nat} (h : t.get? l = touched n)
    (label : String) :
    (increment t label).get? l = touched (n + if label = l then 1 else 0) := by
  rw [increment, Table.get?_insert]
  split
  · rename_i heq
    rw [heq, h, getD_touched]; rfl
  · exact h

theorem sum_increment (t : Table Nat) (label : String) :
    (increment t label).values.sum = t.values.sum + 1 := by
  have h := Table.sum_insert id t label ((t.get? label).getD 0 + 1)
  rw [increment]
  simp only [List.map_id, Option.map_id, id] at h
  omega

theorem name_inj {k l : Kind} (h : k.name = l.name) : k = l := by
  have hk := Kind.ofName?_name k
  rw [h, Kind.ofName?_name] at hk
  exact (Option.some.inj hk).symm

/-! ### The store and its mirror -/

theorem length_postsIn (s : Store) (community : String) :
    (s.postsIn community).length = s.posts.values.countP (·.community = community) := by
  rw [Store.postsIn, List.countP_eq_length_filter]

theorem mirrors_empty : empty.Mirrors .empty where
  users := rfl
  posts := rfl
  comments := rfl
  messages := rfl
  postsIn := fun _ => rfl
  postsSum := rfl
  membersOf := fun _ => rfl

theorem membersOf_insert {m : Metrics} {s : Store} (h : m.Mirrors s) (id : String) (c : Community)
    (members : IdSet) (community : String) :
    (m.membersOf.insert id (min members.size memberLimit)).get? community =
      ((s.communities.insert id { c with members }).get? community).map
        fun c => min c.members.size (2 ^ 63 - 1) := by
  rw [Table.get?_insert, Table.get?_insert]
  split
  · rfl
  · exact h.membersOf community

theorem length_postsIn_insert {s : Store} {p : Post} (free : s.posts.get? p.id = none)
    (community : String) :
    ({ s with posts := s.posts.insert p.id p.fresh }.postsIn community).length =
      (s.postsIn community).length + if p.community = community then 1 else 0 := by
  rw [length_postsIn, length_postsIn, Table.countP_insert_of_none _ free]
  simp only [decide_eq_true_eq]
  rfl

theorem length_postsIn_votePost {s : Store} {target : String} {p : Post}
    (found : s.posts.get? target = some p) (user : String) (up : Bool) (community : String) :
    ((s.votePost p target user up).postsIn community).length = (s.postsIn community).length := by
  rw [length_postsIn, length_postsIn, Store.votePost, Table.countP_insert_of_some _ found]
  rfl

theorem sum_inboxes_send (s : Store) (m : Message) :
    ((s.send m).inboxes.values.map List.length).sum =
      (s.inboxes.values.map List.length).sum + 1 := by
  have h := Table.sum_insert List.length s.inboxes m.recipient
    ((s.inboxes.get? m.recipient).getD [] ++ [m])
  rw [Store.send]
  cases hr : s.inboxes.get? m.recipient <;> simp [hr] at h ⊢ <;> omega

/-- A change that goes through moves the counters along with the store. -/
theorem Mirrors.record_event {m : Metrics} {s s' : Store} {c : Change} {o : Outcome}
    (h : m.Mirrors s) (allows : s.Allows c s' o) : (m.record (c.event o)).Mirrors s' := by
  cases allows with
  | @addUser u free =>
    have husers : m.users + 1 = (s.users.insert u.id u).size := by
      rw [h.users, Table.size_insert_of_none free]
    exact { h with users := husers }
  | @addCommunity c free =>
    exact { h with membersOf := membersOf_insert h c.id c .empty }
  | @join id user c found =>
    exact { h with membersOf := membersOf_insert h id c _ }
  | @leave id user c found =>
    exact { h with membersOf := membersOf_insert h id c _ }
  | @addPost p free =>
    have hposts : m.posts + 1 = (s.posts.insert p.id p.fresh).size := by
      rw [h.posts, Table.size_insert_of_none free]
    refine { h with posts := hposts, postsIn := fun community => ?_, postsSum := ?_ }
    · rw [length_postsIn_insert free]
      exact get?_increment (h.postsIn community) p.community
    · exact (sum_increment ..).trans (congrArg (· + 1) h.postsSum)
  | @addComment c free =>
    have hcomments : m.comments + 1 = (s.comments.insert c.id c).size := by
      rw [h.comments, Table.size_insert_of_none free]
    exact { h with comments := hcomments }
  | @votePost target user up p found =>
    have hposts : m.posts = (s.posts.insert target (p.voted user up)).size := by
      rw [h.posts, Table.size_insert_of_some found]
    refine { h with posts := hposts, postsIn := fun community => ?_ }
    rw [length_postsIn_votePost found]
    exact h.postsIn community
  | voteBeside absent => exact { h with }
  | @send x => exact { h with messages := by rw [sum_inboxes_send, ← h.messages]; rfl }

/-! ### The log -/

theorem logs_empty : empty.Logs [] where
  votes := rfl
  errors := fun _ => rfl
  handled := rfl

/-- Of the events that a change brings about, none is an error or a duration. -/
theorem record_event_rest (m : Metrics) (c : Change) (o : Outcome) :
    (m.record (c.event o)).errors = m.errors ∧ (m.record (c.event o)).durations = m.durations := by
  cases c <;> cases o <;> exact ⟨rfl, rfl⟩

theorem votes_record_event {r : Request} {now : Timestamp} {c : Change} (m : Metrics)
    (task : r.task now = .change c) (o : Outcome) :
    (m.record (c.event o)).votes = m.votes + if r.kind = .vote then 1 else 0 := by
  cases r <;> cases task <;> cases o <;> rfl

theorem kind_ne_vote_of_answers {r : Request} {now : Timestamp} {s : Store}
    {settings : FeedSettings} {a : Response} (h : s.Answers settings now (r.task now) a) :
    r.kind ≠ .vote := by
  cases r with
  | vote target user up =>
    have hvote : s.Answers settings now (.change (.vote target user up)) a := h
    nomatch hvote
  | _ => simp [Request.kind]

theorem countP_concat (p : Request × Response → Bool) (log : List (Request × Response))
    (x : Request × Response) : (log ++ [x]).countP p = log.countP p + if p x then 1 else 0 := by
  rw [List.countP_append, List.countP_singleton]

/-- A failed request is counted among the errors of its kind. -/
theorem Logs.failed {m : Metrics} {log : List (Request × Response)} {r : Request}
    (h : m.Logs log) (other : r.kind ≠ .ping) (f : Failure) :
    (m.record (.failed r.kind)).Logs (log ++ [(r, .error f.message)]) where
  votes := by
    rw [countP_concat, ← h.votes]
    simp [record, Response.isError]
  errors := fun kind => by
    have hinc := get?_increment (h.errors kind) r.kind.name
    rw [countP_concat]
    by_cases hk : r.kind = kind
    · simpa [record, hk, Response.isError] using hinc
    · simpa [record, hk, Response.isError, mt name_inj hk] using hinc
  handled := by
    have hsum := sum_increment m.errors r.kind.name
    rw [countP_concat, if_pos (by simpa using other), ← h.handled, record, hsum, Nat.add_assoc]

/-- A request that is answered otherwise is counted by its duration, and as a vote if it is one. -/
theorem Logs.completed {m n : Metrics} {log : List (Request × Response)} {r : Request}
    {a : Response} (h : m.Logs log) (other : r.kind ≠ .ping) (fine : a.isError = false)
    (elapsed : Nat) (votes : n.votes = m.votes + if r.kind = .vote then 1 else 0)
    (errors : n.errors = m.errors) (durations : n.durations = m.durations) :
    (n.record (.completed r.kind elapsed)).Logs (log ++ [(r, a)]) where
  votes := by
    rw [countP_concat, ← h.votes]
    simpa [record, fine] using votes
  errors := fun kind => by
    rw [countP_concat]
    simpa [record, fine, errors] using h.errors kind
  handled := by
    rw [countP_concat, if_pos (by simpa using other), ← h.handled, record, errors, durations,
      Histogram.observe, Nat.add_right_comm]

theorem Logs.greeted {m : Metrics} {log : List (Request × Response)} {r : Request} (h : m.Logs log)
    (ping : r.kind = .ping) : m.Logs (log ++ [(r, .pong)]) where
  votes := by rw [countP_concat, ← h.votes]; simp [ping]
  errors := fun kind => by rw [countP_concat, h.errors]; simp [Response.isError]
  handled := by rw [countP_concat, ← h.handled]; simp [ping]

end Metrics

namespace Engine

/-- The counters of an engine agree with its store and with the requests it has answered. -/
structure Balanced (e : Engine) (log : List (Request × Response)) : Prop where
  mirrors : e.metrics.Mirrors e.store
  logs : e.metrics.Logs log

theorem Balanced.handle {e : Engine} {log : List (Request × Response)} (h : e.Balanced log)
    (settings : FeedSettings) (t : Reading) (r : Request) :
    (e.handle settings t r).1.Balanced (log ++ [(r, (e.handle settings t r).2)]) := by
  have hr := handles settings t e r
  generalize (e.handle settings t r).1 = e', (e.handle settings t r).2 = a at hr
  cases hr with
  | greeted ping => exact ⟨h.mirrors, h.logs.greeted ping⟩
  | blank other blank => exact ⟨{ h.mirrors with }, h.logs.failed other _⟩
  | refused other filled task refuses => exact ⟨{ h.mirrors with }, h.logs.failed other _⟩
  | @changed c s o other filled task allows =>
    obtain ⟨herrors, hdurations⟩ := Metrics.record_event_rest e.metrics c o
    exact ⟨{ h.mirrors.record_event allows with },
      h.logs.completed other rfl _ (Metrics.votes_record_event _ task o) herrors hdurations⟩
  | asked other filled answers =>
    refine ⟨{ h.mirrors with }, h.logs.completed other (isError_of_answers answers) _ ?_ rfl rfl⟩
    rw [if_neg (Metrics.kind_ne_vote_of_answers answers)]; rfl

theorem Balanced.run {settings : FeedSettings} {e : Engine} {log : List (Request × Response)}
    (h : e.Balanced log) (rs : List (Reading × Request)) :
    (e.run settings rs).1.Balanced (log ++ (rs.map (·.2)).zip (e.run settings rs).2) := by
  induction rs generalizing e log with
  | nil => simpa [Engine.run] using h
  | cons x rs ih =>
    have hstep := h.handle settings x.1 x.2
    have hrest := ih hstep
    simpa [Engine.run, List.append_assoc] using hrest

/-- After any run from nothing every request has been answered, and the counters agree with the
store and with the answers. -/
theorem counters_agree_after_run (settings : FeedSettings) (rs : List (Reading × Request)) :
    (empty.run settings rs).2.length = rs.length ∧
      (empty.run settings rs).1.Balanced ((rs.map (·.2)).zip (empty.run settings rs).2) := by
  have h : empty.Balanced [] := ⟨Metrics.mirrors_empty, Metrics.logs_empty⟩
  exact ⟨length_run settings empty rs, by simpa using h.run rs⟩

end Engine

end Agora
