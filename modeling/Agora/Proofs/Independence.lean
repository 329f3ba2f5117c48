import Agora.Proofs.Effect
import Agora.Proofs.Table
import Agora.Proofs.Tally

/-!
Requests that do not get in each other's way. Two requests for changes of different cells, two
memberships of different users and two votes of different users may be handled in either order:
each gets the same response, and the store and the counters end up the same. How long requests
take is set aside, since it may differ from one run to the other.

Requests for different cells do not notice each other. Memberships of one community and votes on
one target do touch the same cell, but different entries in it; of what is counted for them only
the number of members depends on the order, and it is told anew by whichever comes last.
-/

namespace Agora

/-! ### Counters -/

/-- Two events that do not tell different numbers of members of one community. -/
def Event.Agrees (a b : Event) : Prop :=
  ∀ community n m, a = .members community n → b = .members community m → n = m

namespace Metrics

/-- What has been counted, without how long requests took. -/
def counts (m : Metrics) : Metrics := { m with durations := ⟨0.0, m.durations.count, []⟩ }

theorem counts_record (m : Metrics) (a : Event) :
    (m.record a).counts = (m.counts.record a).counts := by
  cases a <;> rfl

theorem increment_comm (t : Table Nat) (k j : String) :
    increment (increment t k) j = increment (increment t j) k := by
  by_cases h : k = j
  · rw [h]
  · rw [increment, increment, increment, increment, Table.get?_insert, if_neg h, Table.get?_insert,
      if_neg (Ne.symm h), Table.insert_comm h]

/-- Events that agree may be counted in either order. -/
theorem record_comm {a b : Event} (agree : a.Agrees b) (m : Metrics) :
    ((m.record a).record b).counts = ((m.record b).record a).counts := by
  cases a with
  | postCreated c =>
    cases b with
    | postCreated d => simp only [record, increment_comm]
    | _ => rfl
  | failed k =>
    cases b with
    | failed l => simp only [record, increment_comm]
    | _ => rfl
  | members c n =>
    cases b with
    | members d n' =>
      by_cases h : c = d
      · subst h
        rw [agree c n n' rfl rfl]
      · simp only [record, Table.insert_comm h]
    | _ => rfl
  | completed k n =>
    cases b with
    | completed l n' => simp only [record, Histogram.observe, counts]
    | _ => rfl
  | _ => cases b <;> rfl

theorem counts_recordAll (m : Metrics) (events : List Event) :
    (m.recordAll events).counts = events.foldl (fun n a => (n.record a).counts) m.counts := by
  induction events generalizing m with
  | nil => rfl
  | cons a events ih => rw [recordAll, List.foldl_cons, ← recordAll, ih, counts_record]; rfl

/-- Events that agree with each other may be counted in any order. -/
theorem counts_recordAll_perm {as bs : List Event} (perm : as.Perm bs)
    (agree : ∀ a ∈ as, ∀ b ∈ as, a.Agrees b) (m : Metrics) :
    (m.recordAll as).counts = (m.recordAll bs).counts := by
  rw [counts_recordAll, counts_recordAll]
  refine perm.foldl_eq' (fun a ha b hb n => ?_) m.counts
  rw [← counts_record, ← counts_record, record_comm (agree a ha b hb)]

end Metrics

/-! ### Effects in either order -/

/-- Two things done to a store, one after the other, come to the same in either order. -/
structure Swap (first second : Store → Effect) (s : Store) : Prop where
  store : (second (first s).store).store = (first (second s).store).store
  response₁ : (first (second s).store).response = (first s).response
  response₂ : (second (first s).store).response = (second s).response
  counts : ∀ m : Metrics,
    (m.recordAll ((first s).events ++ (second (first s).store).events)).counts =
      (m.recordAll ((second s).events ++ (first (second s).store).events)).counts

theorem Swap.symm {first second : Store → Effect} {s : Store} (h : Swap first second s) :
    Swap second first s :=
  ⟨h.store.symm, h.response₂, h.response₁, fun m => (h.counts m).symm⟩

/-- Nothing more than the store is to be looked at if each does after the other what it does
without it. -/
theorem swap_of_unmoved {first second : Store → Effect} {s : Store}
    (store : (second (first s).store).store = (first (second s).store).store)
    (unmoved₁ : (first (second s).store).response = (first s).response ∧
      (first (second s).store).events = (first s).events)
    (unmoved₂ : (second (first s).store).response = (second s).response ∧
      (second (first s).store).events = (second s).events)
    (agree : ∀ a ∈ (first s).events ++ (second s).events,
      ∀ b ∈ (first s).events ++ (second s).events, a.Agrees b) :
    Swap first second s where
  store := store
  response₁ := unmoved₁.1
  response₂ := unmoved₂.1
  counts := fun m => by
    rw [unmoved₁.2, unmoved₂.2]
    exact Metrics.counts_recordAll_perm List.perm_append_comm agree m

section

variable {settings : FeedSettings} {t t₁ t₂ : Reading} {r r₁ r₂ : Request} {k k₁ k₂ : Key}
  {s : Store}

/-- A number of members that is told for a request is of the community that it is about, and is
the only one told. -/
theorem gauge_of_mem {community : String} {n : Nat} (key : r.key = some k)
    (h : .members community n ∈ (s.effect settings t r).events) :
    k = .community community ∧
      ∀ m, .members community m ∈ (s.effect settings t r).events → m = n := by
  rcases effect_of_key key settings t with ⟨a, heffect⟩ | ⟨c, -, rfl, heffect⟩
  · rw [heffect] at h
    simp at h
  · rw [heffect] at h ⊢
    cases hreport : s.report c with
    | error f => simp [hreport, Change.noted] at h
    | ok o =>
      simp only [hreport, Change.noted, List.mem_cons, List.not_mem_nil, or_false,
        reduceCtorEq] at h ⊢
      rw [← h]
      refine ⟨?_, fun m hm => (Event.members.inj hm).2⟩
      cases c <;> cases o <;> simp_all [Change.event, Change.key]

theorem agrees_of_mem (key : r.key = some k) {a b : Event}
    (ha : a ∈ (s.effect settings t r).events) (hb : b ∈ (s.effect settings t r).events) :
    a.Agrees b := by
  rintro community n m rfl rfl
  exact ((gauge_of_mem key ha).2 m hb).symm

/-- Requests for different cells, or of which one counts no members, tell of no community both. -/
theorem agrees_of_mem_append (key₁ : r₁.key = some k₁) (key₂ : r₂.key = some k₂)
    (apart : k₁ ≠ k₂) {a b : Event}
    (ha : a ∈ (s.effect settings t₁ r₁).events ++ (s.effect settings t₂ r₂).events)
    (hb : b ∈ (s.effect settings t₁ r₁).events ++ (s.effect settings t₂ r₂).events) :
    a.Agrees b := by
  rcases List.mem_append.1 ha with ha | ha <;> rcases List.mem_append.1 hb with hb | hb
  · exact agrees_of_mem key₁ ha hb
  · rintro community n m rfl rfl
    exact absurd ((gauge_of_mem key₁ ha).1.trans (gauge_of_mem key₂ hb).1.symm) apart
  · rintro community n m rfl rfl
    exact absurd ((gauge_of_mem key₁ hb).1.trans (gauge_of_mem key₂ ha).1.symm) apart
  · exact agrees_of_mem key₂ ha hb

/-! ### Different cells -/

theorem swap_of_key_ne (key₁ : r₁.key = some k₁) (key₂ : r₂.key = some k₂) (apart : k₁ ≠ k₂) :
    Swap (·.effect settings t₁ r₁) (·.effect settings t₂ r₂) s := by
  have hfirst (j : Key) (hj : k₁ ≠ j) := cell_effect_of_ne key₁ hj settings t₁
  have hsecond (j : Key) (hj : k₂ ≠ j) := cell_effect_of_ne key₂ hj settings t₂
  obtain ⟨hunmoved₁, hcell₁⟩ := effect_congr key₁ (hsecond k₁ apart.symm s) settings t₁
  obtain ⟨hunmoved₂, hcell₂⟩ := effect_congr key₂ (hfirst k₂ apart s) settings t₂
  refine swap_of_unmoved (Store.eq_of_cells fun j => ?_) hunmoved₁ hunmoved₂
    fun a ha b hb => agrees_of_mem_append key₁ key₂ apart ha hb
  -- a cell is the first request's, or the second's, or left alone by both
  by_cases h₁ : k₁ = j
  · subst h₁
    rw [hsecond k₁ apart.symm, hcell₁]
  · by_cases h₂ : k₂ = j
    · subst h₂
      rw [hcell₂, hfirst k₂ h₁]
    · rw [hsecond j h₂, hfirst j h₁, hfirst j h₁, hsecond j h₂]

/-- A request that comes to nothing wherever it is made may be made before any other. -/
theorem swap_of_idle {first : Store → Effect} {a : Response} {kind : Kind}
    (idle : ∀ s, first s = ⟨s, a, [.failed kind]⟩) (key : r.key = some k) :
    Swap first (·.effect settings t r) s := by
  refine swap_of_unmoved (by simp only [idle]) (by simp only [idle, and_self])
    (by simp only [idle, and_self]) fun x hx y hy => ?_
  rw [idle] at hx hy
  rcases List.mem_append.1 hx with hx | hx
  · rw [List.mem_singleton.1 hx]
    exact fun _ _ _ h => nomatch h
  rcases List.mem_append.1 hy with hy | hy
  · rw [List.mem_singleton.1 hy]
    exact fun _ _ _ _ h => nomatch h
  exact agrees_of_mem key hx hy

/-! ### Votes on one target -/

theorem Store.vote_comm (s : Store) (target : String) {u₁ u₂ : String} (other : u₁ ≠ u₂)
    (up₁ up₂ : Bool) :
    ((s.vote target u₁ up₁).1.vote target u₂ up₂).1 =
      ((s.vote target u₂ up₂).1.vote target u₁ up₁).1 := by
  cases h : s.posts.get? target with
  | none =>
    simp only [Store.vote, h, Store.voteBeside, Table.get?_insert, if_true, Option.getD_some,
      Table.insert_insert, Table.insert_comm other]
  | some p =>
    simp only [Store.vote, h, Store.votePost, Table.get?_insert, if_true, Table.insert_insert,
      Post.voted_comm p other]

theorem swap_votes (s : Store) (target : String) {u₁ u₂ : String} (other : u₁ ≠ u₂)
    (up₁ up₂ : Bool) :
    Swap (·.effect settings t₁ (.vote target u₁ up₁)) (·.effect settings t₂ (.vote target u₂ up₂))
      s := by
  rcases effect_of_key (r := .vote target u₁ up₁) rfl settings t₁ with
    ⟨a₁, hidle⟩ | ⟨c₁, htask₁, -, heffect₁⟩
  · exact swap_of_idle hidle rfl
  rcases effect_of_key (r := .vote target u₂ up₂) rfl settings t₂ with
    ⟨a₂, hidle⟩ | ⟨c₂, htask₂, -, heffect₂⟩
  · exact (swap_of_idle hidle rfl).symm
  cases htask₁
  cases htask₂
  refine swap_of_unmoved ?_ ?_ ?_ fun a ha b hb => ?_
  · simp only [heffect₁, heffect₂]
    exact s.vote_comm target other up₁ up₂
  · simp only [heffect₁]
    exact ⟨rfl, rfl⟩
  · simp only [heffect₂]
    exact ⟨rfl, rfl⟩
  · rintro community n m rfl rfl
    simp only [heffect₁, heffect₂] at ha
    have hevents : .members community n ∈ [Event.voteRecorded, .completed .vote t₁.elapsed,
      .voteRecorded, .completed .vote t₂.elapsed] := ha
    simp at hevents

/-! ### Members of one community -/

/-- A change that does something to the members of a community. -/
structure Change.Moves (c : Change) (id : String) (f : IdSet → IdSet) : Prop where
  allows : ∀ {s : Store} {co : Community}, s.communities.get? id = some co →
    s.Allows c (s.withMembers id co (f co.members)) (.members (f co.members).size)
  refuses : ∀ {s : Store}, s.communities.get? id = none →
    s.Refuses c (.notFound "subreddit" id)
  event : ∀ n, c.event (.members n) = .members id n

theorem moves_join (id user : String) : (Change.join id user).Moves id (·.insert user ()) :=
  ⟨.join, .join, fun _ => rfl⟩

theorem moves_leave (id user : String) : (Change.leave id user).Moves id (·.erase user) :=
  ⟨.leave, .leave, fun _ => rfl⟩

/-- A request of a user to become a member of a community, or to be one no longer. -/
def Request.Membership (r : Request) (id user : String) : Prop :=
  r = .join id user ∨ r = .leave id user

/-- What becomes of the members when a user joins or leaves. -/
def movesOf (r : Request) (user : String) (members : IdSet) : IdSet :=
  if r.kind = .join then members.insert user () else members.erase user

theorem movesOf_comm (r₁ r₂ : Request) {u₁ u₂ : String} (other : u₁ ≠ u₂) (members : IdSet) :
    movesOf r₂ u₂ (movesOf r₁ u₁ members) = movesOf r₁ u₁ (movesOf r₂ u₂ members) := by
  unfold movesOf
  split <;> split
  · exact Table.insert_comm other () ()
  · exact (Table.insert_erase_comm other.symm ()).symm
  · exact Table.insert_erase_comm other ()
  · exact members.erase_comm u₁ u₂

theorem Request.Membership.key {id user : String} (h : r.Membership id user) :
    r.key = some (.community id) := by
  rcases h with rfl | rfl <;> rfl

theorem Request.Membership.moves {id user : String} (h : r.Membership id user) {now : Timestamp}
    {c : Change} (task : r.task now = .change c) : c.Moves id (movesOf r user) := by
  rcases h with rfl | rfl
  · cases task
    exact moves_join id user
  · cases task
    exact moves_leave id user

theorem withMembers_withMembers (s : Store) (id : String) (c : Community) (ms ms' : IdSet) :
    (s.withMembers id c ms).withMembers id { c with members := ms } ms' =
      s.withMembers id c ms' := by
  simp only [Store.withMembers, Table.insert_insert]

/-- The number of members that was told last is the one that is kept. -/
theorem counts_of_gauges (m : Metrics) (id : String) (n₁ n₂ n : Nat) (l₁ l₂ : Kind) (d₁ d₂ : Nat) :
    (m.recordAll [.members id n₁, .completed l₁ d₁, .members id n, .completed l₂ d₂]).counts =
      (m.recordAll [.members id n₂, .completed l₂ d₂, .members id n, .completed l₁ d₁]).counts := by
  simp only [Metrics.recordAll, List.foldl_cons, List.foldl_nil, Metrics.record, Metrics.counts,
    Histogram.observe, Table.insert_insert]

theorem swap_memberships {id u₁ u₂ : String} (m₁ : r₁.Membership id u₁)
    (m₂ : r₂.Membership id u₂) (other : u₁ ≠ u₂) :
    Swap (·.effect settings t₁ r₁) (·.effect settings t₂ r₂) s := by
  rcases effect_of_key m₁.key settings t₁ with ⟨a₁, hidle⟩ | ⟨c₁, htask₁, -, heffect₁⟩
  · exact swap_of_idle hidle m₂.key
  rcases effect_of_key m₂.key settings t₂ with ⟨a₂, hidle⟩ | ⟨c₂, htask₂, -, heffect₂⟩
  · exact (swap_of_idle hidle m₁.key).symm
  have moves₁ := m₁.moves htask₁
  have moves₂ := m₂.moves htask₂
  cases hfound : s.communities.get? id with
  | none =>
    have hafter₁ := Store.after_of_refuses (moves₁.refuses hfound)
    have hafter₂ := Store.after_of_refuses (moves₂.refuses hfound)
    have hreport₁ := Store.report_of_refuses (moves₁.refuses hfound)
    have hreport₂ := Store.report_of_refuses (moves₂.refuses hfound)
    refine swap_of_unmoved ?_ ?_ ?_ fun a ha b hb => ?_
    · simp only [heffect₁, heffect₂, hafter₁, hafter₂]
    · simp only [heffect₁, heffect₂, hafter₂, and_self]
    · simp only [heffect₁, heffect₂, hafter₁, and_self]
    · rintro community n m rfl rfl
      simp [heffect₁, heffect₂, hreport₁, hreport₂, Change.noted] at ha
  | some co =>
    -- the second of the two finds the members that the first has left
    have hmembers (members : IdSet) :
        (s.withMembers id co members).communities.get? id = some { co with members } := by
      simp [Store.withMembers]
    have hallows₁ := moves₁.allows hfound
    have hallows₂ := moves₂.allows hfound
    have hallows₁₂ := moves₂.allows (hmembers (movesOf r₁ u₁ co.members))
    have hallows₂₁ := moves₁.allows (hmembers (movesOf r₂ u₂ co.members))
    rw [withMembers_withMembers] at hallows₁₂ hallows₂₁
    rw [movesOf_comm r₁ r₂ other] at hallows₁₂
    constructor
    · simp only [heffect₁, heffect₂, Store.after_of_allows hallows₁,
        Store.after_of_allows hallows₂, Store.after_of_allows hallows₁₂,
        Store.after_of_allows hallows₂₁]
    · simp only [heffect₁, heffect₂, Store.after_of_allows hallows₂,
        Store.report_of_allows hallows₁, Store.report_of_allows hallows₂₁, Change.answer]
    · simp only [heffect₁, heffect₂, Store.after_of_allows hallows₁,
        Store.report_of_allows hallows₂, Store.report_of_allows hallows₁₂, Change.answer]
    · intro m
      simp only [heffect₁, heffect₂, Store.after_of_allows hallows₁,
        Store.after_of_allows hallows₂, Store.report_of_allows hallows₁,
        Store.report_of_allows hallows₂, Store.report_of_allows hallows₁₂,
        Store.report_of_allows hallows₂₁, Change.noted, moves₁.event, moves₂.event,
        List.cons_append, List.nil_append]
      exact counts_of_gauges m id _ _ _ _ _ _ _

/-! ### Requests in either order -/

/-- Requests that may be handled in either order: they are about different cells, or about the
memberships of different users in one community, or they are votes of different users. -/
inductive Request.Independent : Request → Request → Prop
  | keys {r₁ r₂ : Request} {k₁ k₂ : Key} (key₁ : r₁.key = some k₁) (key₂ : r₂.key = some k₂)
    (apart : k₁ ≠ k₂) : Independent r₁ r₂
  | memberships {r₁ r₂ : Request} {id u₁ u₂ : String} (first : r₁.Membership id u₁)
    (second : r₂.Membership id u₂) (other : u₁ ≠ u₂) : Independent r₁ r₂
  | votes {target u₁ u₂ : String} {up₁ up₂ : Bool} (other : u₁ ≠ u₂) :
    Independent (.vote target u₁ up₁) (.vote target u₂ up₂)

theorem swap_of_independent (h : r₁.Independent r₂) (settings : FeedSettings) (t₁ t₂ : Reading)
    (s : Store) : Swap (·.effect settings t₁ r₁) (·.effect settings t₂ r₂) s := by
  cases h with
  | keys key₁ key₂ apart => exact swap_of_key_ne key₁ key₂ apart
  | memberships first second other => exact swap_memberships first second other
  | votes other => exact swap_votes s _ other _ _

end

/-- How long a request took shows in nothing but the durations. -/
theorem effect_elapsed (settings : FeedSettings) (now : Timestamp) (d d' : Nat) (r : Request)
    (s : Store) :
    (s.effect settings ⟨now, d⟩ r).store = (s.effect settings ⟨now, d'⟩ r).store ∧
      (s.effect settings ⟨now, d⟩ r).response = (s.effect settings ⟨now, d'⟩ r).response ∧
      ∀ m : Metrics, (m.recordAll (s.effect settings ⟨now, d⟩ r).events).counts =
        (m.recordAll (s.effect settings ⟨now, d'⟩ r).events).counts := by
  unfold Store.effect
  split
  · exact ⟨rfl, rfl, fun _ => rfl⟩
  · dsimp only
    cases (r.plan now).bind fun task => s.perform settings now task with
    | error f => exact ⟨rfl, rfl, fun _ => rfl⟩
    | ok x =>
      refine ⟨rfl, rfl, fun m => ?_⟩
      simp only [Metrics.recordAll, List.foldl_append, List.foldl_cons, List.foldl_nil,
        Metrics.record, Metrics.counts, Histogram.observe]

namespace Engine

/-- Engines that differ in nothing but how long requests took. -/
structure Alike (e e' : Engine) : Prop where
  store : e.store = e'.store
  counts : e.metrics.counts = e'.metrics.counts

theorem Alike.handle {e e' : Engine} (h : e.Alike e') (settings : FeedSettings) (now : Timestamp)
    (d d' : Nat) (r : Request) :
    (e.handle settings ⟨now, d⟩ r).1.Alike (e'.handle settings ⟨now, d'⟩ r).1 ∧
      (e.handle settings ⟨now, d⟩ r).2 = (e'.handle settings ⟨now, d'⟩ r).2 := by
  obtain ⟨hstore, hresponse, hcounts⟩ := effect_elapsed settings now d d' r e'.store
  rw [handle_eq_effect, handle_eq_effect, h.store]
  refine ⟨⟨hstore, ?_⟩, hresponse⟩
  calc (e.metrics.recordAll (e'.store.effect settings ⟨now, d⟩ r).events).counts
      = (e'.metrics.recordAll (e'.store.effect settings ⟨now, d⟩ r).events).counts := by
        rw [Metrics.counts_recordAll, h.counts, ← Metrics.counts_recordAll]
    _ = (e'.metrics.recordAll (e'.store.effect settings ⟨now, d'⟩ r).events).counts :=
        hcounts e'.metrics

/-- Two requests one after the other. -/
theorem handle_handle (settings : FeedSettings) (e : Engine) (t₁ t₂ : Reading) (r₁ r₂ : Request) :
    (e.handle settings t₁ r₁).1.handle settings t₂ r₂ =
      (⟨((e.store.effect settings t₁ r₁).store.effect settings t₂ r₂).store,
        e.metrics.recordAll ((e.store.effect settings t₁ r₁).events ++
          ((e.store.effect settings t₁ r₁).store.effect settings t₂ r₂).events)⟩,
        ((e.store.effect settings t₁ r₁).store.effect settings t₂ r₂).response) := by
  rw [handle_eq_effect, handle_eq_effect]
  simp only [Metrics.recordAll, List.foldl_append]

/-- Independent requests may be handled in either order, each at its own time: whatever the engine
has stored and counted before, each request gets the same response either way, and the engine ends
up with the same store and the same counters. How long they take is of no account. -/
theorem independent_requests_commute (settings : FeedSettings) (e : Engine) {r₁ r₂ : Request}
    (independent : r₁.Independent r₂) (now₁ now₂ : Timestamp) (d₁ d₂ d₁' d₂' : Nat) :
    ∃ (e₁₂ e₂₁ : Engine) (a₁ a₂ : Response),
      e.run settings [(⟨now₁, d₁⟩, r₁), (⟨now₂, d₂⟩, r₂)] = (e₁₂, [a₁, a₂]) ∧
      e.run settings [(⟨now₂, d₂'⟩, r₂), (⟨now₁, d₁'⟩, r₁)] = (e₂₁, [a₂, a₁]) ∧
      e₁₂.store = e₂₁.store ∧ e₁₂.metrics.counts = e₂₁.metrics.counts := by
  -- first both orders with the same durations, then other durations for the second order
  obtain ⟨hstore, hresponse₁, hresponse₂, hcounts⟩ :=
    swap_of_independent independent settings ⟨now₁, d₁⟩ ⟨now₂, d₂⟩ e.store
  obtain ⟨halike, hsecond⟩ := Alike.handle ⟨rfl, rfl⟩ settings now₂ d₂ d₂' r₂ (e := e)
  obtain ⟨halike', hfirst⟩ := halike.handle settings now₁ d₁ d₁' r₁
  rw [handle_handle] at halike' hfirst
  have hanswer₁ : (e.handle settings ⟨now₁, d₁⟩ r₁).2 =
      ((e.handle settings ⟨now₂, d₂'⟩ r₂).1.handle settings ⟨now₁, d₁'⟩ r₁).2 := by
    rw [← hfirst, handle_eq_effect]
    exact hresponse₁.symm
  have hanswer₂ : ((e.handle settings ⟨now₁, d₁⟩ r₁).1.handle settings ⟨now₂, d₂⟩ r₂).2 =
      (e.handle settings ⟨now₂, d₂'⟩ r₂).2 := by
    rw [← hsecond, handle_handle, handle_eq_effect]
    exact hresponse₂
  refine ⟨((e.handle settings ⟨now₁, d₁⟩ r₁).1.handle settings ⟨now₂, d₂⟩ r₂).1,
    ((e.handle settings ⟨now₂, d₂'⟩ r₂).1.handle settings ⟨now₁, d₁'⟩ r₁).1, _, _, rfl, ?_, ?_, ?_⟩
  · rw [hanswer₁, hanswer₂]
    rfl
  · rw [handle_handle]
    exact hstore.trans halike'.store
  · rw [handle_handle]
    exact (hcounts e.metrics).trans halike'.counts

/-- An engine that knows one community, with one member. -/
def joined : Engine :=
  let c : Community := ⟨"s", "n", "d", "a", Table.empty.insert "a" (), .epoch⟩
  ⟨{ Store.empty with communities := Table.empty.insert "s" c }, .empty⟩

theorem run_of_leave_and_join :
    Request.Independent (.leave "s" "a") (.join "s" "b") ∧
      ∃ (e₁₂ e₂₁ : Engine) (a₁ a₂ : Response),
        joined.run {} [(⟨.epoch, 5⟩, .leave "s" "a"), (⟨.epoch, 7⟩, .join "s" "b")] =
          (e₁₂, [a₁, a₂]) ∧
        joined.run {} [(⟨.epoch, 8⟩, .join "s" "b"), (⟨.epoch, 6⟩, .leave "s" "a")] =
          (e₂₁, [a₂, a₁]) ∧
        e₁₂.store = e₂₁.store ∧ e₁₂.metrics.counts = e₂₁.metrics.counts := by
  have independent : Request.Independent (.leave "s" "a") (.join "s" "b") :=
    .memberships (.inr rfl) (.inl rfl) (by decide)
  exact ⟨independent, independent_requests_commute {} joined independent .epoch .epoch 5 7 6 8⟩

end Engine

end Agora
