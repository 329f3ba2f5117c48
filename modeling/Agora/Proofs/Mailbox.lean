import Agora.Mailbox
import Agora.Proofs.Engine
import Mathlib.Data.List.Induction
import Mathlib.Data.List.Infix
import Mathlib.Data.List.Nodup
import Mathlib.Data.List.Perm.Subperm
import Mathlib.Tactic.IntervalCases

/-!
What a mailbox promises, whatever its clients do and in whatever order things happen. The queue
keeps its bound; requests are handled one at a time in the order in which they got into the queue;
a response belongs to the request at its place in that order; a request is handled once at most,
and never if its sender learns that the mailbox is closed or that there is no reply.

The rules for a single step come first, then what each step keeps, then whole runs.
-/

namespace Agora

/-- Whether an answer says that there will be no response. -/
def Answer.isRefusal : Answer → Bool
  | .response _ => false
  | .closed => true
  | .noReply => true

namespace Mailbox

/-! ### Steps -/

/-- The mailbox once the engine has handled its oldest request. -/
def served (settings : FeedSettings) (m : Mailbox) (t : Reading) (e : Envelope)
    (rest : List Envelope) : Mailbox :=
  { m with
    queue := rest
    engine := (m.engine.handle settings t e.request).1
    answers := (e.ticket, .response (m.engine.handle settings t e.request).2) :: m.answers
    handled := (t, e) :: m.handled }

/-- What may happen to a mailbox, and what becomes of it. -/
inductive Moves (settings : FeedSettings) (m : Mailbox) : Action → Mailbox → Prop
  | send {e : Envelope} (running : m.running = true) :
    Moves settings m (.send e) { m with waiting := m.waiting ++ [e] }
  | turnAway {e : Envelope} (stopped : m.running = false) :
    Moves settings m (.send e) { m with answers := (e.ticket, .closed) :: m.answers }
  | enter {e : Envelope} {before after : List Envelope} (waits : m.waiting = before ++ e :: after)
    (free : m.queue.length < m.room) :
    Moves settings m (.enter e.ticket)
      { m with waiting := before ++ after, queue := m.queue ++ [e], entered := e :: m.entered }
  | handle {t : Reading} {e : Envelope} {rest : List Envelope} (queued : m.queue = e :: rest) :
    Moves settings m (.handle t) (m.served settings t e rest)
  | giveUp {ticket : Nat} :
    Moves settings m (.giveUp ticket) { m with waiting := m.waiting.filter (·.ticket ≠ ticket) }
  | abort : Moves settings m .abort m.stopped
  | release : Moves settings m .release { m with released := true }
  | finish : Moves settings m .finish m.stopped

theorem moves_of_step {settings : FeedSettings} {m m' : Mailbox} {a : Action}
    (h : m.step settings a = some m') : Moves settings m a m' := by
  cases a with
  | send e =>
    rw [step] at h
    split at h
    · exact nomatch h
    · split at h
      · rename_i running
        exact Option.some.inj h ▸ .send running
      · rename_i stopped
        exact Option.some.inj h ▸ .turnAway (by simpa using stopped)
  | enter ticket =>
    rw [step] at h
    split at h
    · rename_i e found
      split at h
      · rename_i free
        obtain ⟨before, after, -, hwaits, herase⟩ :=
          List.exists_erase_eq (List.mem_of_find?_eq_some found)
        have hticket : e.ticket = ticket := by simpa using List.find?_some found
        rw [herase] at h
        exact Option.some.inj h ▸ hticket ▸ .enter hwaits free
      · exact nomatch h
    · exact nomatch h
  | handle t =>
    rw [step] at h
    split at h
    · rename_i e rest queued
      exact Option.some.inj h ▸ .handle queued
    · exact nomatch h
  | giveUp ticket => exact Option.some.inj h ▸ .giveUp
  | abort =>
    rw [step] at h
    split at h
    · exact Option.some.inj h ▸ .abort
    · exact nomatch h
  | release =>
    rw [step] at h
    split at h
    · exact Option.some.inj h ▸ .release
    · exact nomatch h
  | finish =>
    rw [step] at h
    split at h
    · exact Option.some.inj h ▸ .finish
    · exact nomatch h

theorem run_concat_eq_some {settings : FeedSettings} {m m'' : Mailbox} {as : List Action}
    {a : Action} (h : m.run settings (as ++ [a]) = some m'') :
    ∃ m', m.run settings as = some m' ∧ Moves settings m' a m'' := by
  rw [run, List.foldlM_append] at h
  obtain ⟨m', hm', hstep⟩ := Option.bind_eq_some_iff.1 h
  rw [List.foldlM_cons] at hstep
  obtain ⟨n, hn, hnil⟩ := Option.bind_eq_some_iff.1 hstep
  obtain rfl : n = m'' := Option.some.inj hnil
  exact ⟨m', hm', moves_of_step hn⟩

/-! ### Views of the history -/

/-- What was handled, with the readings of the clocks, oldest first. -/
def applied (m : Mailbox) : List (Reading × Envelope) := m.handled.reverse

/-- What the engine was asked, in order. -/
def calls (m : Mailbox) : List (Reading × Request) := m.applied.map fun x => (x.1, x.2.request)

/-- The requests in the hands of the mailbox: those in the queue, then those that wait. -/
def pending (m : Mailbox) : List Envelope := m.queue ++ m.waiting

/-- The tickets of requests whose senders learned that there will be no response. -/
def refused (m : Mailbox) : List Nat := (m.answers.filter (·.2.isRefusal)).map (·.1)

/-- The tickets of all requests whose fate the mailbox knows or has in its hands. -/
def tickets (m : Mailbox) : List Nat :=
  m.applied.map (·.2.ticket) ++ m.pending.map (·.ticket) ++ m.refused

/-- The requests that clients send, in order. -/
def sent (as : List Action) : List Envelope :=
  as.filterMap fun
    | .send e => some e
    | _ => none

theorem sent_append (as bs : List Action) : sent (as ++ bs) = sent as ++ sent bs :=
  List.filterMap_append

/-- Whoever sends is the last in the hands of the mailbox. -/
theorem pending_sent (m : Mailbox) (e : Envelope) :
    m.queue ++ (m.waiting ++ [e]) = m.pending ++ [e] := (List.append_assoc ..).symm

/-- Whoever gets into the queue stays in the hands of the mailbox. -/
theorem pending_entered {m : Mailbox} {e : Envelope} {before after : List Envelope}
    (waits : m.waiting = before ++ e :: after) :
    (m.queue ++ [e] ++ (before ++ after)).Perm m.pending := by
  rw [pending, waits, List.append_assoc, List.singleton_append]
  exact List.perm_middle.symm.append_left _

/-- Who gives up leaves the others as they are. -/
theorem pending_givenUp (m : Mailbox) (ticket : Nat) :
    (m.queue ++ m.waiting.filter (·.ticket ≠ ticket)).Sublist m.pending :=
  List.filter_sublist.append_left _

theorem mem_refused {m : Mailbox} {ticket : Nat} :
    ticket ∈ m.refused ↔ (ticket, .closed) ∈ m.answers ∨ (ticket, .noReply) ∈ m.answers := by
  constructor
  · intro h
    obtain ⟨⟨t, a⟩, hmem, rfl⟩ := List.mem_map.1 h
    obtain ⟨hanswer, hrefusal⟩ := List.mem_filter.1 hmem
    cases a with
    | response r => exact nomatch hrefusal
    | closed => exact .inl hanswer
    | noReply => exact .inr hanswer
  · rintro (h | h)
    · exact List.mem_map.2 ⟨_, List.mem_filter.2 ⟨h, rfl⟩, rfl⟩
    · exact List.mem_map.2 ⟨_, List.mem_filter.2 ⟨h, rfl⟩, rfl⟩

theorem refused_stopped (m : Mailbox) :
    m.stopped.refused.Perm (m.pending.map (·.ticket) ++ m.refused) := by
  have hsplit : m.stopped.refused =
      (m.waiting.map (·.ticket)).reverse ++ ((m.queue.map (·.ticket)).reverse ++ m.refused) := by
    simp [refused, stopped, Answer.isRefusal, Function.comp_def, List.filter_map]
  rw [hsplit, ← List.append_assoc, pending, List.map_append]
  refine List.Perm.append_right _ ?_
  exact ((List.reverse_perm _).append (List.reverse_perm _)).trans List.perm_append_comm

/-! ### What every step keeps -/

/-- What holds of a mailbox of some capacity, once it has stood in front of an engine while some
things happened. -/
structure Sound (settings : FeedSettings) (e₀ : Engine) (capacity : Nat) (as : List Action)
    (m : Mailbox) : Prop where
  room : m.room = roomFor capacity
  bounded : m.queue.length ≤ m.room
  engine : m.engine = (e₀.run settings m.calls).1
  replies : ∀ ticket r, (ticket, .response r) ∈ m.answers → ∃ (i : Nat) (t : Reading) (q : Request),
    m.applied[i]? = some (t, ⟨ticket, q⟩) ∧ (e₀.run settings m.calls).2[i]? = some r
  -- an engine that is stopped drops the queue, so the order of entry then goes on further
  taken : m.applied.map (·.2) ++ m.queue <+: m.entered.reverse
  inOrder : m.running = true → m.entered.reverse = m.applied.map (·.2) ++ m.queue
  idle : m.running = false → m.queue = [] ∧ m.waiting = []
  fromClients : ∀ e ∈ m.applied.map (·.2) ++ m.pending, e ∈ sent as
  -- each sending leaves one ticket in one place at most; a sender that gives up takes it along
  once : m.tickets.Subperm ((sent as).map (·.ticket))

section Step

variable {settings : FeedSettings} {e₀ : Engine} {capacity : Nat} {as : List Action} {m : Mailbox}

theorem Sound.start {m : Mailbox} (h : start? e₀ capacity = some m) :
    Sound settings e₀ capacity [] m := by
  rw [start?] at h
  split at h
  · obtain rfl := Option.some.inj h
    exact ⟨rfl, Nat.zero_le _, rfl, fun _ _ hmem => (nomatch hmem), List.prefix_rfl, fun _ => rfl,
      fun hrun => (nomatch hrun), fun _ hmem => (nomatch hmem), .refl _⟩
  · exact nomatch h

/-- What holds of a mailbox depends on what the clients have sent only, not on what else has
happened. -/
theorem Sound.quiet (h : Sound settings e₀ capacity as m) {a : Action} (quiet : sent [a] = []) :
    Sound settings e₀ capacity (as ++ [a]) m := by
  have hsent : sent (as ++ [a]) = sent as := by rw [sent_append, quiet, List.append_nil]
  refine { h with fromClients := ?_, once := ?_ }
  · rw [hsent]
    exact h.fromClients
  · rw [hsent]
    exact h.once

theorem Sound.send (h : Sound settings e₀ capacity as m) (e : Envelope)
    (running : m.running = true) :
    Sound settings e₀ capacity (as ++ [.send e]) { m with waiting := m.waiting ++ [e] } := by
  have hsent : sent (as ++ [.send e]) = sent as ++ [e] := sent_append ..
  refine { h with idle := ?_, fromClients := ?_, once := ?_ }
  · intro stopped
    exact nomatch running.symm.trans stopped
  · intro x hx
    have hx : x ∈ m.applied.map (·.2) ++ m.pending ∨ x = e := by
      simpa [applied, pending, or_assoc] using hx
    rw [hsent, List.mem_append, List.mem_singleton]
    exact hx.imp_left (h.fromClients x)
  · have hperm : (m.tickets ++ [e.ticket]).Perm
        (m.applied.map (·.2.ticket) ++ (m.queue ++ (m.waiting ++ [e])).map (·.ticket) ++
          m.refused) := by
      rw [m.pending_sent e, tickets, List.map_append]
      simp only [List.append_assoc]
      exact (List.perm_append_comm.append_left _).append_left _
    rw [hsent, List.map_append]
    exact hperm.symm.subperm.trans (h.once.append (.refl _))

theorem Sound.turnAway (h : Sound settings e₀ capacity as m) (e : Envelope) :
    Sound settings e₀ capacity (as ++ [.send e])
      { m with answers := (e.ticket, .closed) :: m.answers } := by
  have hsent : sent (as ++ [.send e]) = sent as ++ [e] := sent_append ..
  refine { h with replies := ?_, fromClients := ?_, once := ?_ }
  · intro ticket r hmem
    exact h.replies ticket r (by simpa using hmem)
  · intro x hx
    rw [hsent]
    exact List.mem_append_left _ (h.fromClients x hx)
  · have hperm : (m.tickets ++ [e.ticket]).Perm
        (m.applied.map (·.2.ticket) ++ m.pending.map (·.ticket) ++ (e.ticket :: m.refused)) := by
      rw [tickets, List.append_assoc]
      exact List.perm_append_comm.append_left _
    rw [hsent, List.map_append]
    exact hperm.symm.subperm.trans (h.once.append (.refl _))

theorem Sound.enter (h : Sound settings e₀ capacity as m) {e : Envelope}
    {before after : List Envelope} (waits : m.waiting = before ++ e :: after)
    (free : m.queue.length < m.room) :
    Sound settings e₀ capacity as
      { m with
        waiting := before ++ after
        queue := m.queue ++ [e]
        entered := e :: m.entered } := by
  have hpending := pending_entered waits
  have running : m.running = true := by
    by_contra hstopped
    have hnone := (h.idle (by simpa using hstopped)).2
    simp [waits] at hnone
  have horder : (e :: m.entered).reverse = m.applied.map (·.2) ++ (m.queue ++ [e]) := by
    rw [List.reverse_cons, h.inOrder running, List.append_assoc]
  refine { h with
    bounded := ?_, taken := ?_, inOrder := fun _ => horder
    idle := ?_, fromClients := ?_, once := ?_ }
  · rw [List.length_append]; exact free
  · exact horder ▸ List.prefix_rfl
  · intro stopped
    exact nomatch running.symm.trans stopped
  · intro x hx
    exact h.fromClients x ((hpending.append_left _).mem_iff.1 hx)
  · have hperm := ((hpending.map (·.ticket)).append_left (m.applied.map (·.2.ticket))).append_right
      m.refused
    exact hperm.subperm.trans h.once

theorem applied_served (settings : FeedSettings) (m : Mailbox) (t : Reading) (e : Envelope)
    (rest : List Envelope) : (m.served settings t e rest).applied = m.applied ++ [(t, e)] :=
  List.reverse_cons ..

theorem calls_served (settings : FeedSettings) (m : Mailbox) (t : Reading) (e : Envelope)
    (rest : List Envelope) : (m.served settings t e rest).calls = m.calls ++ [(t, e.request)] := by
  rw [calls, applied_served, List.map_append]; rfl

theorem flow_served (settings : FeedSettings) (t : Reading) {e : Envelope} {rest : List Envelope}
    (queued : m.queue = e :: rest) :
    (m.served settings t e rest).applied.map (·.2) ++ (m.served settings t e rest).queue =
      m.applied.map (·.2) ++ m.queue := by
  rw [applied_served, queued, List.map_append, List.append_assoc]; rfl

theorem pending_of_queued (settings : FeedSettings) (t : Reading) {e : Envelope}
    {rest : List Envelope} (queued : m.queue = e :: rest) :
    m.pending = e :: (m.served settings t e rest).pending := by
  rw [pending, queued]; rfl

theorem Sound.served (h : Sound settings e₀ capacity as m) (t : Reading) {e : Envelope}
    {rest : List Envelope} (queued : m.queue = e :: rest) :
    Sound settings e₀ capacity as (m.served settings t e rest) := by
  have hflow := flow_served settings t queued
  have hrun := Engine.run_concat settings e₀ m.calls t e.request
  rw [← h.engine, ← calls_served settings m t e rest] at hrun
  refine ⟨h.room, ?_, by rw [hrun]; rfl, ?_, ?_, ?_, ?_, ?_, ?_⟩
  · have hbound := h.bounded
    rw [queued] at hbound
    exact (Nat.le_succ _).trans hbound
  · intro ticket r hmem
    rw [hrun, applied_served]
    have hlength : (e₀.run settings m.calls).2.length = m.applied.length := by
      rw [Engine.length_run, calls, List.length_map]
    rcases List.mem_cons.1 hmem with heq | hmem
    · obtain ⟨rfl, rfl⟩ : ticket = e.ticket ∧ r = (m.engine.handle settings t e.request).2 := by
        simpa using heq
      refine ⟨m.applied.length, t, e.request, List.getElem?_concat_length, ?_⟩
      rw [← hlength, List.getElem?_concat_length]
    · obtain ⟨i, u, q, hi, hr⟩ := h.replies ticket r hmem
      refine ⟨i, u, q, ?_, ?_⟩
      · rw [List.getElem?_append_left (List.getElem?_eq_some_iff.1 hi).1, hi]
      · rw [List.getElem?_append_left (List.getElem?_eq_some_iff.1 hr).1, hr]
  · rw [hflow]
    exact h.taken
  · intro running
    rw [hflow]
    exact h.inOrder running
  · intro stopped
    exact nomatch queued.symm.trans (h.idle stopped).1
  · intro x hx
    rw [pending, ← List.append_assoc, hflow, List.append_assoc] at hx
    exact h.fromClients x hx
  · have htickets : (m.served settings t e rest).tickets = m.tickets := by
      rw [tickets, tickets, pending_of_queued settings t queued, applied_served, List.map_append,
        List.append_assoc (m.applied.map _)]
      rfl
    rw [htickets]
    exact h.once

theorem Sound.giveUp (h : Sound settings e₀ capacity as m) (ticket : Nat) :
    Sound settings e₀ capacity as
      { m with waiting := m.waiting.filter (·.ticket ≠ ticket) } := by
  have hpending := m.pending_givenUp ticket
  refine { h with idle := ?_, fromClients := ?_, once := ?_ }
  · intro stopped
    obtain ⟨hqueue, hwaiting⟩ := h.idle stopped
    exact ⟨hqueue, by rw [hwaiting]; rfl⟩
  · intro x hx
    exact h.fromClients x ((hpending.append_left _).subset hx)
  · have hsub := ((hpending.map (·.ticket)).append_left (m.applied.map (·.2.ticket))).append_right
      m.refused
    exact hsub.subperm.trans h.once

theorem Sound.stopped (h : Sound settings e₀ capacity as m) :
    Sound settings e₀ capacity as m.stopped := by
  refine { h with
    bounded := Nat.zero_le _, replies := ?_, taken := ?_, inOrder := ?_
    idle := fun _ => ⟨rfl, rfl⟩, fromClients := ?_, once := ?_ }
  · intro ticket r hmem
    refine h.replies ticket r ?_
    simpa [Mailbox.stopped] using hmem
  · have hfewer : m.applied.map Prod.snd ++ [] <+: m.applied.map Prod.snd ++ m.queue := by simp
    exact hfewer.trans h.taken
  · intro running
    exact nomatch running
  · intro x hx
    have hx : x ∈ m.applied.map Prod.snd := by rwa [pending, Mailbox.stopped, List.append_nil,
      List.append_nil] at hx
    exact h.fromClients x (List.mem_append_left _ hx)
  · have hsplit : m.stopped.tickets = m.applied.map (·.2.ticket) ++ m.stopped.refused :=
      congrArg (· ++ m.stopped.refused) (List.append_nil _)
    have hperm : m.stopped.tickets.Perm m.tickets := by
      rw [hsplit, tickets, List.append_assoc]
      exact (refused_stopped m).append_left _
    exact hperm.subperm.trans h.once

theorem Sound.release (h : Sound settings e₀ capacity as m) :
    Sound settings e₀ capacity as { m with released := true } := { h with }

theorem Sound.step (h : Sound settings e₀ capacity as m) {a : Action} {m' : Mailbox}
    (moves : Moves settings m a m') : Sound settings e₀ capacity (as ++ [a]) m' := by
  cases moves with
  | @send e running => exact h.send e running
  | @turnAway e stopped => exact h.turnAway e
  | enter waits free => exact (h.enter waits free).quiet rfl
  | @handle t e rest queued => exact (h.served t queued).quiet rfl
  | @giveUp ticket => exact (h.giveUp ticket).quiet rfl
  | abort => exact h.stopped.quiet rfl
  | release => exact h.release.quiet rfl
  | finish => exact h.stopped.quiet rfl

theorem Sound.run {m₀ m : Mailbox} (start : start? e₀ capacity = some m₀)
    (run : m₀.run settings as = some m) : Sound settings e₀ capacity as m := by
  induction as using List.reverseRecOn generalizing m with
  | nil => exact Option.some.inj run ▸ .start start
  | append_singleton as a ih =>
    obtain ⟨m', hrun, hmoves⟩ := run_concat_eq_some run
    exact (ih hrun).step hmoves

theorem Sound.nodup_tickets (h : Sound settings e₀ capacity as m)
    (apart : ((sent as).map (·.ticket)).Nodup) : m.tickets.Nodup := by
  obtain ⟨ts, hperm, hsub⟩ := h.once
  exact hperm.nodup_iff.1 (apart.sublist hsub)

/-- Who has had an answer has nothing left in the hands of the mailbox. -/
theorem Sound.ticket_ne_of_answered (h : Sound settings e₀ capacity as m)
    (apart : ((sent as).map (·.ticket)).Nodup) {ticket : Nat} {a : Answer}
    (answered : (ticket, a) ∈ m.answers) {e : Envelope} (pending : e ∈ m.pending) :
    e.ticket ≠ ticket := by
  rintro rfl
  have hnodup := h.nodup_tickets apart
  rw [tickets, List.nodup_append, List.nodup_append] at hnodup
  obtain ⟨⟨-, -, happlied⟩, -, hrefused⟩ := hnodup
  have hmem : e.ticket ∈ m.pending.map (·.ticket) := List.mem_map_of_mem pending
  cases a with
  | response r =>
    obtain ⟨i, t, q, hi, -⟩ := h.replies _ r answered
    have hold : e.ticket ∈ m.applied.map (·.2.ticket) :=
      List.mem_map.2 ⟨_, List.mem_of_getElem? hi, rfl⟩
    exact happlied _ hold _ hmem rfl
  | closed =>
    exact hrefused _ (List.mem_append_right _ hmem) _ (mem_refused.2 (.inl answered)) rfl
  | noReply =>
    exact hrefused _ (List.mem_append_right _ hmem) _ (mem_refused.2 (.inr answered)) rfl

/-! ### Clients that wait -/

/-- A client sends only once it has had an answer to each of its earlier requests; `mine` tells
which tickets are the client's. -/
def Patient (settings : FeedSettings) (m₀ : Mailbox) (as : List Action) (mine : Nat → Bool) :
    Prop :=
  ∀ earlier e later m, as = earlier ++ .send e :: later → m₀.run settings earlier = some m →
    mine e.ticket → ∀ x ∈ sent earlier, mine x.ticket → ∃ a, (x.ticket, a) ∈ m.answers

/-- A client has one request at most in the hands of the mailbox, and its requests were handled in
the order in which they were sent. -/
structure InTurn (mine : Nat → Bool) (as : List Action) (m : Mailbox) : Prop where
  single : (m.pending.filter (mine ·.ticket)).length ≤ 1
  order : ((m.applied.map (·.2) ++ m.pending).filter (mine ·.ticket)).Sublist
    ((sent as).filter (mine ·.ticket))

theorem eq_of_perm_of_length_le_one {xs ys : List α} (perm : xs.Perm ys) (short : ys.length ≤ 1) :
    xs = ys := by
  match ys, short with
  | [], _ => exact perm.eq_nil
  | [y], _ => exact List.perm_singleton.1 perm

theorem Patient.of_concat {m₀ : Mailbox} {mine : Nat → Bool} {a : Action}
    (h : Patient settings m₀ (as ++ [a]) mine) : Patient settings m₀ as mine :=
  fun earlier e later m has => h earlier e (later ++ [a]) m (by rw [has]; simp)

/-- A step that is no request of the client's takes nothing ahead of its turn. -/
theorem InTurn.of_sublist {mine : Nat → Bool} {a : Action} {m' : Mailbox} (h : InTurn mine as m)
    (single : (m'.pending.filter (mine ·.ticket)).length ≤ 1)
    (order : ((m'.applied.map (·.2) ++ m'.pending).filter (mine ·.ticket)).Sublist
      ((m.applied.map (·.2) ++ m.pending).filter (mine ·.ticket))) :
    InTurn mine (as ++ [a]) m' := by
  refine ⟨single, order.trans (h.order.trans ?_)⟩
  rw [sent_append]
  exact (List.sublist_append_left ..).filter _

theorem InTurn.step {mine : Nat → Bool} {a : Action} {m' : Mailbox} (h : InTurn mine as m)
    (moves : Moves settings m a m')
    (patient : ∀ e, a = .send e → mine e.ticket → m.pending.filter (mine ·.ticket) = []) :
    InTurn mine (as ++ [a]) m' := by
  cases moves with
  | @send e running =>
    refine ⟨?_, ?_⟩
    · rw [pending, m.pending_sent e, List.filter_append, List.length_append]
      by_cases he : mine e.ticket
      · rw [patient e rfl he, List.length_nil, Nat.zero_add]
        exact List.length_filter_le ..
      · simpa [he] using h.single
    · have hflow := h.order.append (List.Sublist.refl ([e].filter (mine ·.ticket)))
      rw [← List.filter_append, ← List.filter_append, List.append_assoc] at hflow
      rw [sent_append, pending, m.pending_sent e]
      exact hflow
  | turnAway stopped => exact h.of_sublist h.single (.refl _)
  | @enter e before after waits free =>
    -- whoever overtakes another in the queue overtakes nobody of the same client
    have hsame := eq_of_perm_of_length_le_one ((pending_entered waits).filter (mine ·.ticket))
      h.single
    refine h.of_sublist (hsame ▸ h.single) ?_
    rw [List.filter_append, List.filter_append, pending, hsame]
    exact .refl _
  | @handle t e rest queued =>
    have hflow := flow_served settings t queued
    refine h.of_sublist ?_ ?_
    · have hsingle := h.single
      rw [pending_of_queued settings t queued] at hsingle
      exact (((List.sublist_cons_self ..).filter _).length_le).trans hsingle
    · rw [pending, ← List.append_assoc, hflow, List.append_assoc]
      exact .refl _
  | @giveUp ticket =>
    have hpending := m.pending_givenUp ticket
    exact h.of_sublist ((hpending.filter _).length_le.trans h.single)
      ((hpending.append_left _).filter _)
  | abort => exact h.of_sublist (Nat.zero_le _) (((List.nil_sublist _).append_left _).filter _)
  | release => exact h.of_sublist h.single (.refl _)
  | finish => exact h.of_sublist (Nat.zero_le _) (((List.nil_sublist _).append_left _).filter _)

theorem InTurn.run {m₀ m : Mailbox} {mine : Nat → Bool} (start : start? e₀ capacity = some m₀)
    (run : m₀.run settings as = some m) (apart : ((sent as).map (·.ticket)).Nodup)
    (patient : Patient settings m₀ as mine) : InTurn mine as m := by
  induction as using List.reverseRecOn generalizing m with
  | nil =>
    obtain rfl := Option.some.inj run
    have hsound : Sound settings e₀ capacity [] m₀ := .start start
    have hnone : ∀ e, e ∉ m₀.applied.map (·.2) ++ m₀.pending := fun e he =>
      nomatch hsound.fromClients e he
    have hflow := List.eq_nil_iff_forall_not_mem.2 hnone
    refine ⟨?_, ?_⟩
    · rw [(List.append_eq_nil_iff.1 hflow).2]; exact Nat.zero_le _
    · rw [hflow]; exact .refl _
  | append_singleton as a ih =>
    obtain ⟨m', hrun, hmoves⟩ := run_concat_eq_some run
    have hsound : Sound settings e₀ capacity as m' := .run start hrun
    rw [sent_append, List.map_append] at apart
    have apart' := apart.of_append_left
    -- what the client sent before has an answer, so nothing of it is left in the mailbox
    refine (ih hrun apart' patient.of_concat).step hmoves fun e ha hmine => ?_
    subst ha
    refine List.filter_eq_nil_iff.2 fun x hx hmx => ?_
    have hsent : x ∈ sent as := hsound.fromClients x (List.mem_append_right _ hx)
    obtain ⟨b, hb⟩ := patient as e [] m' rfl hrun hmine x hsent hmx
    exact hsound.ticket_ne_of_answered apart' hb hx rfl

/-! ### Whole runs -/

theorem handled_suffix_of_moves {a : Action} {m' : Mailbox} (moves : Moves settings m a m') :
    m.handled <:+ m'.handled := by
  cases moves with
  | @handle t e rest queued => exact List.suffix_cons ..
  | _ => exact List.suffix_rfl

theorem applied_prefix_of_run {m' : Mailbox} {bs : List Action}
    (run : m.run settings bs = some m') : m.applied <+: m'.applied := by
  refine List.reverse_prefix.2 ?_
  induction bs using List.reverseRecOn generalizing m' with
  | nil => exact Option.some.inj run ▸ List.suffix_rfl
  | append_singleton bs a ih =>
    obtain ⟨n, hrun, hmoves⟩ := run_concat_eq_some run
    exact (ih hrun).trans (handled_suffix_of_moves hmoves)

end Step

/-- Whatever clients do and however things follow one another: the queue keeps its bound; what was
handled was handled in the order of the queue, and the engine is where those requests bring it; no
request is handled twice; a response belongs to the request at its place; what ends without response
was not handled; what is sent after a moment is handled after all that was handled by then; and the
requests of a client that waits for each answer are handled in the order in which it sent them. -/
theorem applied_once_in_order (settings : FeedSettings) (e₀ : Engine) (capacity : Nat)
    (m₀ m : Mailbox) (as : List Action) (start : start? e₀ capacity = some m₀)
    (run : m₀.run settings as = some m) (apart : ((sent as).map (·.ticket)).Nodup) :
    m.queue.length ≤ max capacity 1 ∧
    m.applied.map (·.2) ++ m.queue <+: m.entered.reverse ∧
    (m.running = true → m.entered.reverse = m.applied.map (·.2) ++ m.queue) ∧
    m.engine = (e₀.run settings m.calls).1 ∧
    (m.applied.map (·.2.ticket)).Nodup ∧
    (∀ ticket r, (ticket, .response r) ∈ m.answers → ∃ (i : Nat) (t : Reading) (q : Request),
      m.applied[i]? = some (t, ⟨ticket, q⟩) ∧ ⟨ticket, q⟩ ∈ sent as ∧
        (e₀.run settings m.calls).2[i]? = some r) ∧
    (∀ ticket, (ticket, .closed) ∈ m.answers ∨ (ticket, .noReply) ∈ m.answers →
      ∀ x ∈ m.applied, x.2.ticket ≠ ticket) ∧
    (∀ earlier later m₁, as = earlier ++ later → m₀.run settings earlier = some m₁ →
      m₁.applied <+: m.applied ∧ ∀ x ∈ m₁.applied, ∀ e ∈ sent later, x.2.ticket ≠ e.ticket) ∧
    (∀ mine : Nat → Bool, Patient settings m₀ as mine →
      ((m.applied.map (·.2)).filter (mine ·.ticket)).Sublist
        ((sent as).filter (mine ·.ticket))) := by
  have h : Sound settings e₀ capacity as m := .run start run
  have hnodup := h.nodup_tickets apart
  rw [tickets, List.nodup_append, List.nodup_append] at hnodup
  obtain ⟨⟨happlied, -, -⟩, -, hrefused⟩ := hnodup
  refine ⟨h.bounded.trans h.room.le, h.taken, h.inOrder, h.engine, happlied, ?_, ?_, ?_, ?_⟩
  · intro ticket r hmem
    obtain ⟨i, t, q, hi, hr⟩ := h.replies ticket r hmem
    have hfrom : (⟨ticket, q⟩ : Envelope) ∈ m.applied.map (·.2) :=
      List.mem_map.2 ⟨_, List.mem_of_getElem? hi, rfl⟩
    exact ⟨i, t, q, hi, h.fromClients _ (List.mem_append_left _ hfrom), hr⟩
  · rintro ticket hanswer x hx rfl
    exact hrefused _ (List.mem_append_left _ (List.mem_map_of_mem hx)) _ (mem_refused.2 hanswer) rfl
  · rintro earlier later m₁ rfl hearlier
    have hsound : Sound settings e₀ capacity earlier m₁ := .run start hearlier
    rw [Mailbox.run, List.foldlM_append] at run
    obtain ⟨n, hn, hlater⟩ := Option.bind_eq_some_iff.1 run
    obtain rfl : m₁ = n := Option.some.inj (hearlier.symm.trans hn)
    refine ⟨applied_prefix_of_run hlater, fun x hx e he => ?_⟩
    rw [sent_append, List.map_append, List.nodup_append] at apart
    have hfrom := hsound.fromClients x.2 (List.mem_append_left _ (List.mem_map_of_mem hx))
    exact apart.2.2 _ (List.mem_map_of_mem hfrom) _ (List.mem_map_of_mem he)
  · intro mine patient
    have hturn : InTurn mine as m := .run start run apart patient
    exact ((List.sublist_append_left ..).filter _).trans hturn.order

/-- A queue with room for one. The third client gets in before the second, the first to be answered
sends again, and then the engine is stopped with a request in the queue and one that waits. -/
def crowded : List Action :=
  [.send ⟨1, .createUser "u" "n" "p"⟩, .send ⟨2, .createUser "u" "m" "q"⟩, .send ⟨3, .ping⟩,
    .enter 1, .handle ⟨.epoch, 5⟩, .enter 3, .handle ⟨.epoch, 7⟩, .send ⟨4, .getMessages "u"⟩,
    .enter 2, .handle ⟨.epoch, 9⟩, .send ⟨5, .ping⟩, .enter 5, .abort, .send ⟨6, .ping⟩]

/-- A mailbox that is made with no capacity has room for one. -/
def narrow : Mailbox := ⟨1, .empty, true, false, [], [], [], [], []⟩

theorem answers_run_crowded :
    (narrow.run {} crowded).map (fun m => (m.answers, m.applied.map (·.2.ticket))) =
      some ([(6, .closed), (4, .closed), (5, .noReply),
        (2, .response (.error "user already exists: u")), (3, .response .pong),
        (1, .response (.success "User registered successfully"))], [1, 3, 2]) := by
  decide

/-- Before the client with the tickets 1 and 4 sends for the second time it has its answer. -/
theorem patient_crowded : Patient {} narrow crowded fun ticket => ticket = 1 || ticket = 4 := by
  rintro earlier e later m hsplit hrun hmine x hx hmx
  have hbound : earlier.length < 14 := by
    have hlength := congrArg List.length hsplit
    simp [crowded] at hlength
    omega
  have hearlier : earlier = crowded.take earlier.length := by rw [hsplit, List.take_left]
  have hnext : crowded[earlier.length]? = some (.send e) := by
    rw [hsplit, List.getElem?_append_right (Nat.le_refl _), Nat.sub_self]; rfl
  generalize earlier.length = n at hbound hearlier hnext
  subst hearlier
  -- of the fourteen places only two hold a request of the client's, and the first has none before
  interval_cases n <;> simp [crowded] at hnext <;> subst hnext <;> simp at hmine
  · exact nomatch hx
  · have hanswers : (narrow.run {} (crowded.take 7)).map (·.answers) =
        some [(3, .response .pong), (1, .response (.success "User registered successfully"))] := by
      decide
    rw [hrun] at hanswers
    have hown : ∀ x ∈ sent (crowded.take 7), (x.ticket = 1 || x.ticket = 4) → x.ticket = 1 := by
      decide
    refine ⟨.response (.success "User registered successfully"), ?_⟩
    have hm : m.answers = _ := Option.some.inj hanswers
    rw [hown x hx hmx, hm]
    decide

theorem applied_once_of_crowded :
    start? .empty 0 = some narrow ∧ ((sent crowded).map (·.ticket)).Nodup ∧
      ∃ m, narrow.run {} crowded = some m ∧ m.queue.length ≤ 1 ∧
        m.applied.map (·.2.ticket) = [1, 3, 2] ∧ (∀ x ∈ m.applied, x.2.ticket ≠ 5) ∧
        (∃ i : Nat, (Engine.empty.run {} m.calls).2[i]? = some .pong) ∧
        ((m.applied.map (·.2)).filter fun e => e.ticket = 1 || e.ticket = 4).Sublist
          [⟨1, .createUser "u" "n" "p"⟩, ⟨4, .getMessages "u"⟩] := by
  have start : start? .empty 0 = some narrow := rfl
  have apart : ((sent crowded).map (·.ticket)).Nodup := by decide
  obtain ⟨m, run, hm⟩ := Option.map_eq_some_iff.1 answers_run_crowded
  obtain ⟨hanswers, happlied⟩ := Prod.mk.inj hm
  obtain ⟨hbound, -, -, -, -, hown, hlost, -, hturn⟩ :=
    applied_once_in_order {} .empty 0 narrow m crowded start run apart
  obtain ⟨i, -, -, -, -, hi⟩ := hown 3 .pong (by rw [hanswers]; decide)
  exact ⟨start, apart, m, run, hbound, happlied, hlost 5 (by rw [hanswers]; decide), ⟨i, hi⟩,
    hturn _ patient_crowded⟩

end Mailbox

end Agora
