import Agora.Proofs.Connection
import Agora.Proofs.Engine
import Agora.Proofs.Mailbox
import Agora.Session

/-!
A rehearsed run is a run of the parts that it puts together. While nothing is set up to fail and
events are counted, a session handles a request as its engine does, which takes the time of what it
creates from the clock of the session. So its engine is always one that has handled some requests
one after the other; its requests are answered as by a mailbox in front of that engine, also when it
is stopped with the store held up; and its clients get what a connection to that engine gives them.
-/

namespace Agora

/-- A step that is taken from outside: nothing is set up to fail, and nothing is changed in the
store past the engine. -/
def Scene.Outside : Scene → Prop
  | .change _ => False
  | .setFault _ (some _) => False
  | _ => True

namespace Session

/-! ### Handling -/

/-- Nothing is set up to fail, and events are counted. -/
structure Plain (s : Session) : Prop where
  counting : s.counting = true
  flawless : ∀ operation, s.faults.get? operation = none

/-- What the engine reads off its clocks for a request: feeds are ranked for the time of the world,
everything else takes its time from the clock of the session, and nothing takes any time. -/
def reading (s : Session) (r : Request) : Reading :=
  ⟨if r.kind = .getFeed then s.now else s.clock, 0⟩

variable {s s' : Session}

theorem fault?_plain (plain : s.Plain) (task : Task) : s.fault? task = none := by
  rw [fault?]
  cases task.operation? with
  | none => rfl
  | some operation => rw [Option.bind_some, plain.flawless, Option.map_none]

theorem conclude_plain (plain : s.Plain) (kind : Kind) (r : Except Failure Result) :
    s.conclude kind r =
      ({ s with engine := (s.engine.conclude kind 0 r).1 }, (s.engine.conclude kind 0 r).2) := by
  rw [conclude, plain.counting]
  rfl

theorem exists_ticked (s : Session) (task : Task) : ∃ clock, s.ticked task = { s with clock } := by
  rw [ticked]
  split
  · exact ⟨_, rfl⟩
  · exact ⟨s.clock, rfl⟩

/-- What is asked of the store is the same whichever of the two clocks is looked at for what does
not depend on it. -/
theorem perform_reading (s : Session) (r : Request) :
    s.engine.store.perform s.settings s.now (r.task s.clock) =
      s.engine.store.perform s.settings (s.reading r).now (r.task (s.reading r).now) := by
  cases r <;> rfl

/-- A session handles a request as its engine does. -/
theorem handle_plain (plain : s.Plain) (r : Request) :
    ∃ clock, s.handle r =
      ({ s with engine := (s.engine.handle s.settings (s.reading r) r).1, clock := clock },
        (s.engine.handle s.settings (s.reading r) r).2) := by
  rw [handle]
  by_cases other : r.kind = .ping
  · rw [if_pos other, Engine.handle_of_ping other]
    exact ⟨s.clock, rfl⟩
  · rw [if_neg other]
    cases hblank : r.blank? with
    | some f =>
      rw [Engine.plan_of_blank _ hblank, Engine.handle_of_blank other hblank]
      dsimp only
      rw [conclude_plain plain]
      exact ⟨s.clock, rfl⟩
    | none =>
      rw [Engine.plan_of_filled _ hblank, Engine.handle_of_filled other hblank]
      dsimp only
      rw [fault?_plain plain, ← perform_reading]
      dsimp only
      obtain ⟨clock, hticked⟩ := exists_ticked s (r.task s.clock)
      have plain' : Plain { s with clock } := ⟨plain.counting, plain.flawless⟩
      rw [hticked, conclude_plain plain']
      exact ⟨clock, rfl⟩

/-- An operation of the store that is set up to fail fails: the request is answered with the message
that was set up, is counted as one that failed if events are counted, and leaves the store alone. -/
theorem handle_of_fault {r : Request} (other : r.kind ≠ .ping) (filled : r.blank? = none)
    {f : Failure} (fault : s.fault? (r.task s.clock) = some f) :
    s.handle r =
      ({ s with engine := if s.counting then s.engine.failed r.kind else s.engine },
        .error f.message) := by
  rw [handle, if_neg other, Engine.plan_of_filled _ filled]
  dsimp only
  rw [fault]
  dsimp only
  rw [conclude]
  cases s.counting <;> rfl

/-! ### Runs -/

/-- A session goes on to another one by requests that its engine handles. -/
structure GoesOn (s s' : Session) : Prop where
  plain : s'.Plain
  settings : s'.settings = s.settings
  log : ∃ rs : List (Reading × Request), s'.engine = (s.engine.run s.settings rs).1

theorem GoesOn.rfl (plain : s.Plain) : s.GoesOn s := ⟨plain, .refl _, [], .refl _⟩

theorem GoesOn.trans {s'' : Session} (h : s.GoesOn s') (h' : s'.GoesOn s'') : s.GoesOn s'' := by
  obtain ⟨-, hsettings, rs, hrs⟩ := h
  obtain ⟨plain, hsettings', rs', hrs'⟩ := h'
  refine ⟨plain, hsettings'.trans hsettings, rs ++ rs', ?_⟩
  rw [Engine.run_append, hrs', hrs, hsettings]

theorem goesOn_handle (plain : s.Plain) (r : Request) : s.GoesOn (s.handle r).1 := by
  obtain ⟨clock, hhandle⟩ := handle_plain plain r
  rw [hhandle]
  exact ⟨⟨plain.counting, plain.flawless⟩, .refl _, [(s.reading r, r)], .refl _⟩

theorem goesOn_submit (plain : s.Plain) (r : Request) : s.GoesOn (s.submit r).1 := by
  rw [submit]
  split
  · exact goesOn_handle plain r
  · exact .rfl plain

theorem goesOn_submitAll (plain : s.Plain) (rs : List Request) : s.GoesOn (s.submitAll rs).1 := by
  induction rs generalizing s with
  | nil => exact .rfl plain
  | cons r rs ih =>
    have hstep := goesOn_submit plain r
    exact hstep.trans (ih hstep.plain)

theorem goesOn_stop (h : s.GoesOn s') : s.GoesOn { s' with running := false } :=
  ⟨⟨h.plain.counting, h.plain.flawless⟩, h.settings, h.log⟩

/-- A session answers a client as long as its engine runs. -/
def attend (s : Session) (r : Request) : Option (Session × Response) :=
  if s.running then some (s.handle r) else none

theorem goesOn_serve (plain : s.Plain) (lines : List (List Char)) :
    s.GoesOn (Connection.serve attend s lines).1 := by
  induction lines generalizing s with
  | nil => exact .rfl plain
  | cons line lines ih =>
    rw [Connection.serve]
    split
    · exact ih plain
    · exact ih plain
    · rename_i r hread
      rw [attend]
      cases hrunning : s.running with
      | true =>
        have hstep := goesOn_handle plain r
        exact hstep.trans (ih hstep.plain)
      | false => exact .rfl plain

theorem goesOn_step (plain : s.Plain) {scene : Scene} (outside : scene.Outside) :
    s.GoesOn (s.step scene).1 := by
  cases scene with
  | request r => exact goesOn_submit plain r
  | ping => exact goesOn_submit plain .ping
  | name => exact .rfl plain
  | connect bytes =>
    rw [step, connect]
    split
    · exact .rfl plain
    · exact goesOn_serve plain _
  | burst rs => exact goesOn_submitAll plain rs
  | hang rs =>
    rw [step, hang]
    split
    · exact goesOn_stop (goesOn_submitAll plain _)
    · exact .rfl plain
  | abandon rs =>
    rw [step, abandon]
    split
    · have hfree := goesOn_submitAll plain (s.upToStore rs).1
      exact hfree.trans (goesOn_submitAll hfree.plain _)
    · exact .rfl plain
  | stop => exact goesOn_stop (.rfl plain)
  | setClock clock tick => exact ⟨⟨plain.counting, plain.flawless⟩, .refl _, [], .refl _⟩
  | setFault operation message =>
    cases message with
    | some message => exact outside.elim
    | none =>
      refine ⟨⟨plain.counting, fun other => ?_⟩, .refl _, [], .refl _⟩
      have hother : (s.faults.erase operation).get? other = none := by
        rw [Table.get?_erase, plain.flawless, ite_self]
      exact hother
  | metrics => exact .rfl plain
  | change c => exact outside.elim
  | query q =>
    rw [step]
    split
    · exact .rfl plain
    · exact .rfl plain

/-- The session after some steps. -/
def after (s : Session) (scenes : List Scene) : Session :=
  scenes.foldl (fun s scene => (s.step scene).1) s

theorem goesOn_after (plain : s.Plain) {scenes : List Scene}
    (outside : ∀ scene ∈ scenes, scene.Outside) : s.GoesOn (s.after scenes) := by
  induction scenes generalizing s with
  | nil => exact .rfl plain
  | cons scene scenes ih =>
    obtain ⟨hscene, hscenes⟩ := List.forall_mem_cons.1 outside
    have hstep := goesOn_step plain hscene
    exact hstep.trans (ih hstep.plain hscenes)

/-- Whatever is done to a session from outside, its engine is one that has handled some requests one
after the other and nothing else. -/
theorem engine_after (name : String) (capacity : Nat) (settings : FeedSettings)
    (network : Option String) (clock now : Timestamp) {scenes : List Scene}
    (outside : ∀ scene ∈ scenes, scene.Outside) :
    ∃ rs, ((start name capacity settings true network clock now).after scenes).engine =
      (Engine.empty.run settings rs).1 :=
  (goesOn_after ⟨rfl, fun _ => rfl⟩ outside).log

end Session

/-! ### Mailboxes -/

namespace Mailbox

variable {settings : FeedSettings} {m m' m'' : Mailbox}

theorem run_append {as bs : List Action} (h : m.run settings as = some m')
    (h' : m'.run settings bs = some m'') : m.run settings (as ++ bs) = some m'' := by
  rw [run, List.foldlM_append, ← run, h]
  exact h'

theorem run_cons {a : Action} {as : List Action} (h : m.step settings a = some m')
    (h' : m'.run settings as = some m'') : m.run settings (a :: as) = some m'' := by
  rw [run, List.foldlM_cons, h]
  exact h'

@[simp]
theorem run_nil : m.run settings [] = some m := rfl

/-- Whoever sends waits, while the engine runs. -/
theorem run_sends (running : m.running = true) (held : m.released = false) (es : List Envelope) :
    m.run settings (es.map .send) = some { m with waiting := m.waiting ++ es } := by
  induction es generalizing m with
  | nil => rw [List.append_nil]; rfl
  | cons e es ih =>
    have hstep : m.step settings (.send e) = some { m with waiting := m.waiting ++ [e] } := by
      simp [step, held, running]
    have hlater := @ih { m with waiting := m.waiting ++ [e] } running held
    rw [List.append_assoc] at hlater
    exact run_cons hstep hlater

/-- Whoever has waited longest gets in, as long as there is room. -/
theorem run_enters {es rest : List Envelope} (waits : m.waiting = es ++ rest)
    (free : m.queue.length + es.length ≤ m.room) :
    m.run settings (es.map fun e => .enter e.ticket) = some { m with
      waiting := rest
      queue := m.queue ++ es
      entered := es.reverse ++ m.entered } := by
  induction es generalizing m with
  | nil =>
    obtain rfl : m.waiting = rest := waits
    rw [List.append_nil]
    rfl
  | cons e es ih =>
    rw [List.length_cons] at free
    have hroom : m.queue.length < m.room := by omega
    have hstep : m.step settings (.enter e.ticket) = some { m with
        waiting := es ++ rest
        queue := m.queue ++ [e]
        entered := e :: m.entered } := by
      simp [step, waits, hroom]
    have hlater := @ih { m with
        waiting := es ++ rest
        queue := m.queue ++ [e]
        entered := e :: m.entered } rfl (by simp; omega)
    rw [List.append_assoc] at hlater
    rw [List.reverse_cons, List.append_assoc]
    exact run_cons hstep hlater

/-- A mailbox at rest serves a request at once. -/
theorem run_one (running : m.running = true) (held : m.released = false) (nobody : m.waiting = [])
    (idle : m.queue = []) (room : 0 < m.room) (e : Envelope) (t : Reading) :
    m.run settings [.send e, .enter e.ticket, .handle t] =
      some { m.served settings t e [] with entered := e :: m.entered } := by
  have hsent := @run_sends settings m running held [e]
  have hentered := @run_enters settings { m with waiting := m.waiting ++ [e] } [e] []
    (by simp [nobody]) (by rw [idle]; exact room)
  have hhandled : Mailbox.step settings { m with
      waiting := []
      queue := m.queue ++ [e]
      entered := [e].reverse ++ m.entered } (.handle t) =
        some { m.served settings t e [] with entered := e :: m.entered } := by
    simp [step, idle, served, nobody]
  exact run_append (run_append hsent hentered) (run_cons hhandled run_nil)

/-- A mailbox comes to another one when some requests are answered. -/
structure Brings (settings : FeedSettings) (m : Mailbox) (es : List Envelope) (as : List Answer)
    (m' : Mailbox) : Prop where
  actions : ∃ actions, m.run settings actions = some m'
  each : es.length = as.length
  answers : m'.answers = ((es.map (·.ticket)).zip as).reverse ++ m.answers

theorem Brings.trans {es es' : List Envelope} {as as' : List Answer}
    (h : Brings settings m es as m') (h' : Brings settings m' es' as' m'') :
    Brings settings m (es ++ es') (as ++ as') m'' := by
  obtain ⟨⟨actions, hrun⟩, heach, hanswers⟩ := h
  obtain ⟨⟨actions', hrun'⟩, heach', hanswers'⟩ := h'
  refine ⟨⟨_, run_append hrun hrun'⟩, by simp [heach, heach'], ?_⟩
  rw [hanswers', hanswers, List.map_append, List.zip_append (by simpa using heach),
    List.reverse_append, List.append_assoc]

/-- A mailbox that is stopped after some requests got in and others found no room: the former get no
reply, the latter find it closed. -/
theorem exists_brings_abort (running : m.running = true) (held : m.released = false)
    (nobody : m.waiting = []) (idle : m.queue = []) {caught late : List Envelope}
    (free : caught.length ≤ m.room) :
    ∃ m', m.Brings settings (caught ++ late)
        (caught.map (fun _ => .noReply) ++ late.map fun _ => .closed) m' ∧
      m'.engine = m.engine ∧ m'.running = false ∧ m'.room = m.room ∧ m'.released = false ∧
      m'.waiting = [] ∧ m'.queue = [] := by
  have hsent := @run_sends settings m running held (caught ++ late)
  have hentered := @run_enters settings { m with waiting := m.waiting ++ (caught ++ late) }
    caught late (by rw [nobody]; rfl) (by rw [idle]; simpa using free)
  have hstopped : Mailbox.step settings { m with
      waiting := late
      queue := m.queue ++ caught
      entered := caught.reverse ++ m.entered } .abort = some (stopped { m with
        waiting := late
        queue := m.queue ++ caught
        entered := caught.reverse ++ m.entered }) := if_pos running
  have habort := run_append hsent (run_append hentered (run_cons hstopped run_nil))
  refine ⟨_, ⟨⟨_, habort⟩, by simp, ?_⟩, rfl, rfl, rfl, held, rfl, rfl⟩
  simp only [stopped, idle, List.nil_append]
  rw [List.map_append, List.zip_append (by simp), List.zip_map', List.zip_map',
    List.reverse_append, ← List.map_reverse, ← List.map_reverse, List.append_assoc]

end Mailbox

namespace Session

/-- A mailbox at rest in front of the engine of a session. It has one place more than the queue of
the session, for the request that the engine has in its hands. -/
structure Rests (s : Session) (m : Mailbox) : Prop where
  engine : m.engine = s.engine
  running : m.running = s.running
  room : m.room = s.room + 1
  held : m.released = false
  nobody : m.waiting = []
  idle : m.queue = []

variable {s s' : Session} {m : Mailbox}

/-- A request is answered as by a mailbox that it is sent to, gets into and is handled by. -/
theorem exists_brings_submit (plain : s.Plain) (rests : s.Rests m) (e : Envelope) :
    ∃ m', m.Brings s.settings [e] [(s.submit e.request).2] m' ∧
      (s.submit e.request).1.Rests m' := by
  obtain ⟨hengine, hrunning, hroom, hheld, hnobody, hidle⟩ := rests
  rw [submit]
  cases running : s.running with
  | true =>
    obtain ⟨clock, hhandle⟩ := handle_plain plain e.request
    have hone := @Mailbox.run_one s.settings m (hrunning.trans running) hheld hnobody hidle
      (by omega) e (s.reading e.request)
    rw [if_pos rfl, hhandle]
    refine ⟨_, ⟨⟨_, hone⟩, rfl, ?_⟩, ?_⟩
    · rw [Mailbox.served, hengine]
      rfl
    · refine ⟨?_, hrunning, hroom, hheld, hnobody, rfl⟩
      rw [Mailbox.served, hengine]
  | false =>
    refine ⟨{ m with answers := (e.ticket, .closed) :: m.answers },
      ⟨⟨[.send e], ?_⟩, rfl, rfl⟩, hengine, hrunning, hroom, hheld, hnobody, hidle⟩
    simp [Mailbox.run, Mailbox.step, hheld, hrunning, running]

theorem running_submit (plain : s.Plain) (r : Request) : (s.submit r).1.running = s.running := by
  obtain ⟨clock, hhandle⟩ := handle_plain plain r
  rw [submit, hhandle]
  split <;> rfl

/-- Requests that are sent one after the other are answered as by a mailbox. -/
theorem exists_brings_submitAll (plain : s.Plain) (rests : s.Rests m) (es : List Envelope) :
    ∃ m', m.Brings s.settings es (s.submitAll (es.map (·.request))).2 m' ∧
      (s.submitAll (es.map (·.request))).1.Rests m' ∧
      (s.submitAll (es.map (·.request))).1.running = s.running := by
  induction es generalizing s m with
  | nil => exact ⟨m, ⟨⟨[], rfl⟩, rfl, rfl⟩, rests, rfl⟩
  | cons e es ih =>
    have hgoes := goesOn_submit plain e.request
    obtain ⟨m', hfirst, hrests⟩ := exists_brings_submit plain rests e
    obtain ⟨m'', hlater, hrests', hrunning⟩ := ih hgoes.plain hrests
    rw [hgoes.settings] at hlater
    exact ⟨m'', hfirst.trans hlater, hrests', hrunning.trans (running_submit plain e.request)⟩

theorem submitAll_of_stopped (stopped : s.running = false) (rs : List Request) :
    s.submitAll rs = (s, rs.map fun _ => .closed) := by
  induction rs with
  | nil => rfl
  | cons r rs ih =>
    have hsubmit : s.submit r = (s, .closed) := by
      rw [submit, stopped, if_neg Bool.false_ne_true]
    simp only [submitAll, hsubmit, ih, List.map_cons]

theorem exists_upToStore (s : Session) (es : List Envelope) :
    ∃ free held, es = free ++ held ∧
      s.upToStore (es.map (·.request)) = (free.map (·.request), held.map (·.request)) := by
  refine ⟨es.takeWhile (!s.reachesStore ·.request), es.dropWhile (!s.reachesStore ·.request),
    List.takeWhile_append_dropWhile.symm, ?_⟩
  rw [upToStore, List.span_eq_takeWhile_dropWhile, List.takeWhile_map, List.dropWhile_map]
  rfl

/-- Requests to an engine that is then stopped, with the store held up, are answered as by a mailbox
that is stopped: those that got into it get no reply, and the others find it closed. -/
theorem exists_brings_hang (plain : s.Plain) (rests : s.Rests m) (es : List Envelope) :
    ∃ m', m.Brings s.settings es (s.hang (es.map (·.request))).2 m' ∧
      (s.hang (es.map (·.request))).1.Rests m' := by
  rw [hang]
  cases running : s.running with
  | false =>
    obtain ⟨m', hbrings, hrests, -⟩ := exists_brings_submitAll plain rests es
    rw [submitAll_of_stopped running] at hbrings hrests
    exact ⟨m', hbrings, hrests⟩
  | true =>
    obtain ⟨free, held, rfl, hsplit⟩ := exists_upToStore s es
    rw [if_pos rfl, hsplit]
    dsimp only
    obtain ⟨m', hfree, hrests, hrunning⟩ := exists_brings_submitAll plain rests free
    have hsettings := (goesOn_submitAll plain (free.map (·.request))).settings
    generalize s.submitAll (free.map (·.request)) = answered at hfree hrests hrunning hsettings ⊢
    obtain ⟨s', as⟩ := answered
    obtain ⟨hengine, hrunning', hroom, hheld, hnobody, hidle⟩ := hrests
    have hcaught : (held.take (s'.room + 1)).length ≤ m'.room := by
      rw [hroom]
      exact List.length_take_le _ _
    obtain ⟨m'', habort, hengine', hstopped, hroom', hheld', hnobody', hidle'⟩ :=
      @Mailbox.exists_brings_abort s.settings m' (hrunning'.trans (hrunning.trans running)) hheld
        hnobody hidle _ (held.drop (s'.room + 1)) hcaught
    rw [List.take_append_drop] at habort
    rw [← List.map_take, ← List.map_drop, List.map_map, List.map_map, List.append_assoc]
    exact ⟨m'', hfree.trans habort, hengine'.trans hengine, hstopped, hroom'.trans hroom, hheld',
      hnobody', hidle'⟩

open Connection Text

/-- What a client gets back from a session is a dialogue with its engine. -/
theorem exists_dialogue_serve (plain : s.Plain) (running : s.running = true) (n : Nat)
    (lines : List (List Char)) :
    ∃ clocks n', Dialogue s.settings clocks (s.engine, n) ((lines.map trim).filter (· ≠ []))
      ((serve Session.attend s lines).1.engine, n') (serve Session.attend s lines).2 := by
  induction lines generalizing s n with
  | nil => exact ⟨fun _ => ⟨s.clock, 0⟩, n, .done⟩
  | cons line lines ih =>
    rw [List.map_cons]
    by_cases hblank : trim line = []
    · rw [List.filter_cons_of_neg (by simpa using hblank), serve_blank hblank]
      exact ih plain running n
    · rw [List.filter_cons_of_pos (by simpa using hblank)]
      cases h : Request.ofText (trim line) with
      | error why =>
        obtain ⟨clocks, n', hlater⟩ := ih plain running n
        rw [serve_malformed hblank h]
        exact ⟨clocks, n', .malformed h hlater⟩
      | ok r =>
        obtain ⟨clock, hhandle⟩ := handle_plain plain r
        have hattend : Session.attend s r = some (s.handle r) := if_pos running
        have hstep := goesOn_handle plain r
        have hrunning : (s.handle r).1.running = true := by rw [hhandle]; exact running
        obtain ⟨clocks, n', hlater⟩ := ih hstep.plain hrunning (n + 1)
        -- the clocks of the lines that follow, with what is read for this line put in its place
        let clocks' : Nat → Reading := fun i => if i = n then s.reading r else clocks i
        have hnow : clocks' n = s.reading r := if_pos rfl
        have hlater' := hlater.congr fun i hi => (if_neg (Nat.ne_of_gt hi) : clocks' i = _).symm
        have hengine : (s.handle r).1.engine = (s.engine.handle s.settings (clocks' n) r).1 := by
          rw [hnow, hhandle]
        have hresponse : (s.handle r).2 = (s.engine.handle s.settings (clocks' n) r).2 := by
          rw [hnow, hhandle]
        rw [hstep.settings, hengine] at hlater'
        rw [serve_handled hblank h hattend, hresponse]
        exact ⟨clocks', n', .handled h hlater'⟩

/-- A client of a session gets the lines that a connection to its engine gives. -/
theorem exists_dialogue_connect (plain : s.Plain) (running : s.running = true)
    (reachable : s.network = none) (bytes : List UInt8) :
    ∃ clocks n responses,
      Dialogue s.settings clocks (s.engine, 0) (asked bytes) ((s.connect bytes).1.engine, n)
        responses ∧
      (s.connect bytes).2 = .lines (responses.map write) := by
  obtain ⟨clocks, n, hserve⟩ := exists_dialogue_serve plain running 0 (texts (linesOf bytes))
  rw [← asked_eq] at hserve
  rw [connect, reachable]
  exact ⟨clocks, n, _, hserve, rfl⟩

end Session

end Agora
