import Agora.Exposition
import Agora.Proofs.Independence

/-!
The credentials of users, which are their names and passwords, are stored and nothing else. Taking
them out of a request and out of the store at the start takes them out of the store at the end, and
makes no difference to the response or to what is counted. So runs that differ in credentials alone
look the same from outside, whatever the credentials are.
-/

namespace Agora

/-- A user without credentials. -/
def User.bare (u : User) : User := { u with username := "", password := "" }

/-- A request without credentials. -/
def Request.bare : Request → Request
  | .createUser id _ _ => .createUser id "" ""
  | r => r

/-- A change without credentials. -/
def Change.bare : Change → Change
  | .addUser u => .addUser u.bare
  | c => c

/-- A store without credentials. -/
def Store.bare (s : Store) : Store := { s with users := s.users.map fun _ u => u.bare }

/-- An engine without credentials. -/
def Engine.bare (e : Engine) : Engine := ⟨e.store.bare, e.metrics⟩

/-! ### Changes -/

namespace Store

variable {s s' : Store} {c : Change} {o : Outcome}

/-- A store allows a change whatever the credentials in the store and in the change. -/
theorem Allows.bare (h : s.Allows c s' o) : s.bare.Allows c.bare s'.bare o := by
  cases h with
  | @addUser u free =>
    have free' : s.bare.users.get? u.bare.id = none := by
      rw [Store.bare, Table.get?_map, User.bare, free]; rfl
    have heq : ({ s with users := s.users.insert u.id u } : Store).bare =
        { s.bare with users := s.bare.users.insert u.bare.id u.bare } := by
      rw [Store.bare, Table.map_insert User.bare]; rfl
    rw [heq]
    exact .addUser free'
  | addCommunity free => exact .addCommunity free
  | join found => exact .join found
  | leave found => exact .leave found
  | addPost free => exact .addPost free
  | addComment free => exact .addComment free
  | votePost found => exact .votePost found
  | voteBeside absent => exact .voteBeside absent
  | send => exact .send

theorem Refuses.bare {f : Failure} (h : s.Refuses c f) : s.bare.Refuses c.bare f := by
  cases h with
  | @addUser u taken =>
    have taken' : s.bare.users.has u.bare.id := by
      rw [Store.bare, Table.has_map]; exact taken
    exact .addUser taken'
  | addCommunity taken => exact .addCommunity taken
  | join absent => exact .join absent
  | leave absent => exact .leave absent
  | addPost taken => exact .addPost taken
  | addComment taken => exact .addComment taken

end Store

theorem praise_bare (c : Change) : c.bare.praise = c.praise := by cases c <;> rfl

theorem event_bare (c : Change) (o : Outcome) : c.bare.event o = c.event o := by cases c <;> rfl

/-! ### Requests -/

theorem kind_bare (r : Request) : r.bare.kind = r.kind := by cases r <;> rfl

theorem blank?_bare (r : Request) : r.bare.blank? = r.blank? := by cases r <;> rfl

theorem task_bare_of_change {r : Request} {now : Timestamp} {c : Change}
    (task : r.task now = .change c) : r.bare.task now = .change c.bare := by
  cases r <;> cases task <;> rfl

theorem bare_of_answers {s : Store} {settings : FeedSettings} {now : Timestamp} {r : Request}
    {a : Response} (answers : s.Answers settings now (r.task now) a) : r.bare = r := by
  cases r with
  | createUser id username password => exact nomatch answers
  | _ => rfl

namespace Engine

/-- Handling a request does with credentials what it does without, and leaves them alone. -/
theorem handle_bare (settings : FeedSettings) (t : Reading) (e : Engine) (r : Request) :
    e.bare.handle settings t r.bare =
      ((e.handle settings t r).1.bare, (e.handle settings t r).2) := by
  have hr := handles settings t e r
  generalize (e.handle settings t r).1 = e', (e.handle settings t r).2 = a at hr
  cases hr with
  | greeted ping => exact handle_of_ping (kind_bare r ▸ ping)
  | blank other blank =>
    rw [handle_of_blank (kind_bare r ▸ other) ((blank?_bare r).trans blank), kind_bare]
    rfl
  | @refused c f other filled task refuses =>
    rw [handle_of_filled (kind_bare r ▸ other) ((blank?_bare r).trans filled),
      task_bare_of_change task, kind_bare]
    have hperform : e.bare.store.perform settings t.now (.change c.bare) = .error f :=
      perform_change_of_refuses refuses.bare
    exact congrArg (e.bare.conclude r.kind t.elapsed) hperform
  | @changed c s o other filled task allows =>
    rw [handle_of_filled (kind_bare r ▸ other) ((blank?_bare r).trans filled),
      task_bare_of_change task, kind_bare]
    have hperform : e.bare.store.perform settings t.now (.change c.bare) =
        .ok ⟨s.bare, .success c.bare.praise, [c.bare.event o]⟩ :=
      perform_change_of_allows allows.bare
    rw [praise_bare, event_bare] at hperform
    exact congrArg (e.bare.conclude r.kind t.elapsed) hperform
  | asked other filled answers =>
    rw [bare_of_answers answers, handle_of_filled other filled]
    generalize r.task t.now = task at answers
    cases answers <;> rfl

/-- Engines that look alike without credentials look alike after requests that are the same
without credentials, and respond alike. -/
theorem Alike.handle_bare {e e' : Engine} (h : e.bare.Alike e'.bare) (settings : FeedSettings)
    (now : Timestamp) (d d' : Nat) {r r' : Request} (same : r.bare = r'.bare) :
    (e.handle settings ⟨now, d⟩ r).1.bare.Alike (e'.handle settings ⟨now, d'⟩ r').1.bare ∧
      (e.handle settings ⟨now, d⟩ r).2 = (e'.handle settings ⟨now, d'⟩ r').2 := by
  have hstep := h.handle settings now d d' r.bare
  rw [Engine.handle_bare, same, Engine.handle_bare] at hstep
  exact hstep

/-- Requests with their times, without credentials and without how long they took. -/
def bareLog (rs : List (Reading × Request)) : List (Timestamp × Request) :=
  rs.map fun x => (x.1.now, x.2.bare)

theorem Alike.run_bare {e e' : Engine} (h : e.bare.Alike e'.bare) (settings : FeedSettings)
    {rs qs : List (Reading × Request)} (same : bareLog rs = bareLog qs) :
    (e.run settings rs).1.bare.Alike (e'.run settings qs).1.bare ∧
      (e.run settings rs).2 = (e'.run settings qs).2 := by
  induction rs generalizing e e' qs with
  | nil =>
    obtain rfl := List.map_eq_nil_iff.1 same.symm
    exact ⟨h, rfl⟩
  | cons x rs ih =>
    obtain ⟨y, qs, rfl, hy, hqs⟩ := List.map_eq_cons_iff.1 same.symm
    obtain ⟨⟨now, d⟩, r⟩ := x
    obtain ⟨⟨now', d'⟩, r'⟩ := y
    obtain ⟨rfl, hbare⟩ := Prod.mk.inj hy
    obtain ⟨hstep, hanswer⟩ := h.handle_bare settings _ d d' hbare.symm
    obtain ⟨hrest, hanswers⟩ := ih hstep hqs.symm
    exact ⟨hrest, congrArg₂ List.cons hanswer hanswers⟩

end Engine

/-- What is shown of counters and gauges is told by the counters. -/
theorem Exposition.blocks_of_counts {m n : Metrics} (same : m.counts = n.counts) :
    (blocks m).filter (·.measure ≠ .histogram) = (blocks n).filter (·.measure ≠ .histogram) := by
  have shown (m : Metrics) : (blocks m).filter (·.measure ≠ .histogram) =
      (blocks m.counts).filter (·.measure ≠ .histogram) := by
    simp [blocks, counter, family, histogram, Metrics.counts]
  rw [shown m, shown n, same]

/-- Two runs from nothing with the same requests at the same times, but for the credentials of
users: every request gets the same response, and at every point the same has been counted, the
same is shown of each counter and gauge, and the same is stored, but for the credentials. How long
requests take is of no account. -/
theorem Engine.credentials_show_nowhere (settings : FeedSettings)
    (rs qs : List (Reading × Request)) (same : bareLog rs = bareLog qs) :
    (empty.run settings rs).2 = (empty.run settings qs).2 ∧
    ∀ n, let e := (empty.run settings (rs.take n)).1
      let e' := (empty.run settings (qs.take n)).1
      e.metrics.counts = e'.metrics.counts ∧
      (Exposition.blocks e.metrics).filter (·.measure ≠ .histogram) =
        (Exposition.blocks e'.metrics).filter (·.measure ≠ .histogram) ∧
      e.store.bare = e'.store.bare := by
  have start : empty.bare.Alike empty.bare := ⟨rfl, rfl⟩
  refine ⟨(start.run_bare settings same).2, fun n => ?_⟩
  have hprefix : bareLog (rs.take n) = bareLog (qs.take n) := by
    simp only [bareLog, List.map_take] at same ⊢
    rw [same]
  obtain ⟨⟨hstore, hcounts⟩, -⟩ := start.run_bare settings hprefix
  exact ⟨hcounts, Exposition.blocks_of_counts hcounts, hstore⟩

/-- Someone registers, and someone else tries to take the same id. -/
def registering (name password other : String) : List (Reading × Request) :=
  [(⟨.epoch, 5⟩, .createUser "u" name password), (⟨.epoch, 7⟩, .createUser "u" other ""),
    (⟨.epoch, 9⟩, .sendMessage "m" "u" "u" "hello" none)]

theorem credentials_of_registering :
    Engine.bareLog (registering "ann" "secret" "bob") = Engine.bareLog (registering "" "" "u") ∧
      (Engine.empty.run {} (registering "ann" "secret" "bob")).2 =
        (Engine.empty.run {} (registering "" "" "u")).2 ∧
      (Engine.empty.run {} (registering "ann" "secret" "bob")).1.store.bare =
        (Engine.empty.run {} (registering "" "" "u")).1.store.bare ∧
      (Engine.empty.run {} (registering "ann" "secret" "bob")).1.store ≠
        (Engine.empty.run {} (registering "" "" "u")).1.store := by
  have same : Engine.bareLog (registering "ann" "secret" "bob") =
      Engine.bareLog (registering "" "" "u") := by decide
  obtain ⟨hanswers, hpoints⟩ := Engine.credentials_show_nowhere {} _ _ same
  obtain ⟨-, -, hstore⟩ := hpoints 3
  exact ⟨same, hanswers, hstore, by decide⟩

end Agora
