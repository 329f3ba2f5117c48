import Agora.Proofs.Cell
import Agora.Proofs.Engine

/-!
What a request does, as a function of the store alone. What has been counted so far has no say in
how a request is handled: events are added to it, and that is all. A request for a change either
has a blank id, and then it does the same in every store, which is nothing, or it attempts one
change; either way it notices and touches one cell of the store.
-/

namespace Agora

/-- What a request does: the store it leaves, the response, and what is counted, in order. -/
structure Effect where
  store : Store
  response : Response
  events : List Event

/-- What a request does to a store. -/
def Store.effect (settings : FeedSettings) (t : Reading) (r : Request) (s : Store) : Effect :=
  if r.kind = .ping then ⟨s, .pong, []⟩
  else
    match (r.plan t.now).bind fun task => s.perform settings t.now task with
    | .ok x => ⟨x.store, x.response, x.events ++ [.completed r.kind t.elapsed]⟩
    | .error f => ⟨s, .error f.message, [.failed r.kind]⟩

/-- Handling a request is its effect on the store, and its events are added to those counted. -/
theorem Engine.handle_eq_effect (settings : FeedSettings) (t : Reading) (e : Engine)
    (r : Request) :
    e.handle settings t r =
      (⟨(e.store.effect settings t r).store,
        e.metrics.recordAll (e.store.effect settings t r).events⟩,
        (e.store.effect settings t r).response) := by
  rw [handle, Store.effect]
  split
  · rfl
  · cases h : (r.plan t.now).bind fun task => e.store.perform settings t.now task with
    | error f => rfl
    | ok x => simp [conclude, Metrics.recordAll]

/-! ### Requests for a change -/

/-- The cell that a request for a change is about. -/
def Request.key : Request → Option Key
  | .createUser id _ _ => some (.user id)
  | .createCommunity id _ _ _ => some (.community id)
  | .join community _ => some (.community community)
  | .leave community _ => some (.community community)
  | .createPost id _ _ _ _ => some (.target id)
  | .createComment id _ _ _ _ => some (.comment id)
  | .vote target _ _ => some (.target target)
  | .sendMessage _ _ recipient _ _ => some (.inbox recipient)
  | _ => none

theorem change_of_key {r : Request} {k : Key} (h : r.key = some k) (now : Timestamp) :
    r.kind ≠ .ping ∧ ∃ c, r.task now = .change c ∧ c.key = k := by
  cases r <;> cases h <;> exact ⟨by simp [Request.kind], _, rfl, rfl⟩

/-- The response to an attempt at a change. -/
def Change.answer (c : Change) : Except Failure Outcome → Response
  | .ok _ => .success c.praise
  | .error f => .error f.message

/-- What is counted after an attempt at a change. -/
def Change.noted (c : Change) (kind : Kind) (elapsed : Nat) : Except Failure Outcome → List Event
  | .ok o => [c.event o, .completed kind elapsed]
  | .error _ => [.failed kind]

/-- A request for a change has a blank id, and comes to nothing, or it attempts the change. -/
theorem effect_of_key {r : Request} {k : Key} (key : r.key = some k) (settings : FeedSettings)
    (t : Reading) :
    (∃ a, ∀ s : Store, s.effect settings t r = ⟨s, a, [.failed r.kind]⟩) ∨
      ∃ c : Change, r.task t.now = .change c ∧ c.key = k ∧ ∀ s : Store, s.effect settings t r =
        ⟨s.after c, c.answer (s.report c), c.noted r.kind t.elapsed (s.report c)⟩ := by
  obtain ⟨other, c, htask, hkey⟩ := change_of_key key t.now
  cases hblank : r.blank? with
  | some f =>
    refine .inl ⟨.error (Failure.invalid (f.1 ++ " must not be empty")).message, fun s => ?_⟩
    rw [Store.effect, if_neg other, Engine.plan_of_blank _ hblank]
    rfl
  | none =>
    refine .inr ⟨c, htask, hkey, fun s => ?_⟩
    rw [Store.effect, if_neg other, Engine.plan_of_filled _ hblank, htask]
    rcases s.allows_or_refuses c with ⟨s', o, h⟩ | ⟨f, h⟩
    · rw [Store.report_of_allows h, Store.after_of_allows h]
      simp only [Except.bind, Engine.perform_change_of_allows h]
      rfl
    · rw [Store.report_of_refuses h, Store.after_of_refuses h]
      simp only [Except.bind, Engine.perform_change_of_refuses h]
      rfl

/-- A request for a change leaves all cells but its own as they are. -/
theorem cell_effect_of_ne {r : Request} {k j : Key} (key : r.key = some k) (other : k ≠ j)
    (settings : FeedSettings) (t : Reading) (s : Store) :
    (s.effect settings t r).store.cell j = s.cell j := by
  rcases effect_of_key key settings t with ⟨a, heffect⟩ | ⟨c, -, rfl, heffect⟩
  · rw [heffect]
  · rw [heffect]
    exact s.cell_after_of_ne other

/-- What a request for a change does depends on nothing but its own cell. -/
theorem effect_congr {r : Request} {k : Key} (key : r.key = some k) {s s' : Store}
    (same : s'.cell k = s.cell k) (settings : FeedSettings) (t : Reading) :
    ((s'.effect settings t r).response = (s.effect settings t r).response ∧
      (s'.effect settings t r).events = (s.effect settings t r).events) ∧
      (s'.effect settings t r).store.cell k = (s.effect settings t r).store.cell k := by
  rcases effect_of_key key settings t with ⟨a, heffect⟩ | ⟨c, -, rfl, heffect⟩
  · rw [heffect, heffect]
    exact ⟨⟨rfl, rfl⟩, same⟩
  · obtain ⟨hreport, hcell⟩ := Store.congr_of_cell same
    rw [heffect, heffect, hreport]
    exact ⟨⟨rfl, rfl⟩, hcell⟩

end Agora
