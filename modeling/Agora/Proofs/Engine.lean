import Agora.Engine
import Agora.Proofs.Store

/-!
What can come of a request, said as rules. A ping is answered at once. Any other request has a blank
id, or asks for a change that the store refuses, and is answered with the failure; or its change is
made; or it is a question. Nothing else needs to look into the handling of requests.
-/

namespace Agora

/-- The first required id of a request that is blank. -/
def Request.blank? (r : Request) : Option (String × String) :=
  r.required.find? fun f => Text.isBlank f.2

theorem kind_eq_ping_iff {r : Request} : r.kind = .ping ↔ r = .ping := by
  cases r <;> simp [Request.kind]

theorem task_eq_greet_iff {r : Request} {now : Timestamp} : r.task now = .greet ↔ r = .ping := by
  cases r <;> simp [Request.task]

/-- The answers of a store to the tasks that are questions. -/
inductive Store.Answers (s : Store) (settings : FeedSettings) (now : Timestamp) :
    Task → Response → Prop
  | feed {communities : List String} {limit : Option UInt64} :
    Answers s settings now (.feed communities limit) (.feed (s.feed settings now communities limit))
  | comments {post : String} : Answers s settings now (.comments post) (.comments (s.thread post))
  | messages {user : String} : Answers s settings now (.messages user) (.messages (s.inbox user))

namespace Engine

/-- The engine after a request that failed. -/
def failed (e : Engine) (kind : Kind) : Engine :=
  { e with metrics := e.metrics.record (.failed kind) }

/-- The engine after a request that left a store and events to be counted. -/
def completed (e : Engine) (kind : Kind) (elapsed : Nat) (s : Store) (events : List Event) :
    Engine :=
  ⟨s, (e.metrics.recordAll events).record (.completed kind elapsed)⟩

/-- What can come of a request: the engine that is left, and the response. -/
inductive Handles (settings : FeedSettings) (t : Reading) (e : Engine) (r : Request) :
    Engine → Response → Prop
  | greeted (ping : r.kind = .ping) : Handles settings t e r e .pong
  | blank {f : String × String} (other : r.kind ≠ .ping) (blank : r.blank? = some f) :
    Handles settings t e r (e.failed r.kind)
      (.error (Failure.invalid (f.1 ++ " must not be empty")).message)
  | refused {c : Change} {f : Failure} (other : r.kind ≠ .ping) (filled : r.blank? = none)
    (task : r.task t.now = .change c) (refuses : e.store.Refuses c f) :
    Handles settings t e r (e.failed r.kind) (.error f.message)
  | changed {c : Change} {s : Store} {o : Outcome} (other : r.kind ≠ .ping)
    (filled : r.blank? = none) (task : r.task t.now = .change c) (allows : e.store.Allows c s o) :
    Handles settings t e r (e.completed r.kind t.elapsed s [c.event o]) (.success c.praise)
  | asked {a : Response} (other : r.kind ≠ .ping) (filled : r.blank? = none)
    (answers : e.store.Answers settings t.now (r.task t.now) a) :
    Handles settings t e r (e.completed r.kind t.elapsed e.store []) a

theorem perform_change_of_refuses {s : Store} {settings : FeedSettings} {now : Timestamp}
    {c : Change} {f : Failure} (h : s.Refuses c f) :
    s.perform settings now (.change c) = .error f := by
  rw [Store.perform, Store.apply_of_refuses h]; rfl

theorem perform_change_of_allows {s s' : Store} {settings : FeedSettings} {now : Timestamp}
    {c : Change} {o : Outcome} (h : s.Allows c s' o) :
    s.perform settings now (.change c) = .ok ⟨s', .success c.praise, [c.event o]⟩ := by
  rw [Store.perform, Store.apply_of_allows h]; rfl

theorem plan_of_blank {r : Request} {f : String × String} (now : Timestamp)
    (h : r.blank? = some f) : r.plan now = .error (.invalid (f.1 ++ " must not be empty")) := by
  rw [Request.plan, ← Request.blank?, h]

theorem plan_of_filled {r : Request} (now : Timestamp) (h : r.blank? = none) :
    r.plan now = .ok (r.task now) := by
  rw [Request.plan, ← Request.blank?, h]

theorem handle_of_ping {settings : FeedSettings} {t : Reading} {e : Engine} {r : Request}
    (h : r.kind = .ping) : e.handle settings t r = (e, .pong) := by
  rw [handle, if_pos h]

theorem handle_of_blank {settings : FeedSettings} {t : Reading} {e : Engine} {r : Request}
    {f : String × String} (other : r.kind ≠ .ping) (blank : r.blank? = some f) :
    e.handle settings t r = (e.failed r.kind,
      .error (Failure.invalid (f.1 ++ " must not be empty")).message) := by
  rw [handle, if_neg other, plan_of_blank _ blank]; rfl

theorem handle_of_filled {settings : FeedSettings} {t : Reading} {e : Engine} {r : Request}
    (other : r.kind ≠ .ping) (filled : r.blank? = none) :
    e.handle settings t r = e.conclude r.kind t.elapsed
      (e.store.perform settings t.now (r.task t.now)) := by
  rw [handle, if_neg other, plan_of_filled _ filled]; rfl

/-- The rules cover every request. -/
theorem handles (settings : FeedSettings) (t : Reading) (e : Engine) (r : Request) :
    Handles settings t e r (e.handle settings t r).1 (e.handle settings t r).2 := by
  by_cases other : r.kind = .ping
  · rw [handle_of_ping other]
    exact .greeted other
  · cases hblank : r.blank? with
    | some f =>
      rw [handle_of_blank other hblank]
      exact .blank other hblank
    | none =>
      rw [handle_of_filled other hblank]
      cases htask : r.task t.now with
      | greet => exact absurd (kind_eq_ping_iff.2 (task_eq_greet_iff.1 htask)) other
      | change c =>
        rcases Store.allows_or_refuses e.store c with ⟨s, o, h⟩ | ⟨f, h⟩
        · rw [perform_change_of_allows h]
          exact .changed other hblank htask h
        · rw [perform_change_of_refuses h]
          exact .refused other hblank htask h
      | feed communities limit => exact .asked other hblank (by rw [htask]; exact .feed)
      | comments post => exact .asked other hblank (by rw [htask]; exact .comments)
      | messages user => exact .asked other hblank (by rw [htask]; exact .messages)

/-! ### Runs -/

theorem length_run (settings : FeedSettings) (e : Engine) (rs : List (Reading × Request)) :
    (e.run settings rs).2.length = rs.length := by
  induction rs generalizing e with
  | nil => rfl
  | cons x rs ih => rw [run, List.length_cons, List.length_cons, ih]

theorem run_append (settings : FeedSettings) (e : Engine) (rs qs : List (Reading × Request)) :
    e.run settings (rs ++ qs) =
      (((e.run settings rs).1.run settings qs).1,
        (e.run settings rs).2 ++ ((e.run settings rs).1.run settings qs).2) := by
  induction rs generalizing e with
  | nil => rfl
  | cons x rs ih => rw [List.cons_append, run, ih, run]; rfl

theorem run_concat (settings : FeedSettings) (e : Engine) (rs : List (Reading × Request))
    (t : Reading) (r : Request) :
    e.run settings (rs ++ [(t, r)]) =
      (((e.run settings rs).1.handle settings t r).1,
        (e.run settings rs).2 ++ [((e.run settings rs).1.handle settings t r).2]) :=
  run_append settings e rs [(t, r)]

end Engine

end Agora
