import Agora.Proofs.Engine

/-!
What a user finds who asks for messages. The inbox is a log of the requests that sent the user a
message and were a success: one message for each of them, in the order in which they were handled.
Nothing is ever taken out of it, no other request touches it, and asking never fails.
-/

namespace Agora

/-- The message to a user that a request asks to be sent, when it is handled at some time. -/
def Request.messageTo (user : String) (now : Timestamp) : Request → Option Message
  | .sendMessage id sender recipient content repliesTo =>
    if recipient = user then
      some ⟨id, sender, recipient, content, now, if repliesTo = some "" then none else repliesTo⟩
    else none
  | _ => none

/-- The messages to a user that were sent, in order, told from requests and the responses to
them. -/
def sentTo (user : String) (log : List ((Reading × Request) × Response)) : List Message :=
  log.filterMap fun x =>
    match x.2 with
    | .success _ => x.1.2.messageTo user x.1.1.now
    | _ => none

theorem sentTo_cons (user : String) (x : (Reading × Request) × Response)
    (log : List ((Reading × Request) × Response)) :
    sentTo user (x :: log) = sentTo user [x] ++ sentTo user log :=
  List.filterMap_append (l := [x])

theorem filled_eq (id : Option String) : filled id = if id = some "" then none else id := by
  cases id with
  | none => rfl
  | some id => by_cases h : id = "" <;> simp [filled, h]

/-- The message to a user that a change sends. -/
def Change.messageTo (user : String) : Change → Option Message
  | .send m => if m.recipient = user then some m else none
  | _ => none

/-- A request sends the message that the change it asks for sends. -/
theorem messageTo_of_task {r : Request} {now : Timestamp} {c : Change}
    (task : r.task now = .change c) (user : String) : r.messageTo user now = c.messageTo user := by
  cases r <;> cases task <;> try rfl
  rw [Request.messageTo, ← filled_eq]
  rfl

/-! ### One change -/

theorem Store.inbox_send (s : Store) (m : Message) (user : String) :
    (s.send m).inbox user = s.inbox user ++ ((Change.send m).messageTo user).toList := by
  rw [inbox, send, Table.get?_insert, Change.messageTo]
  split
  · rename_i h
    rw [h]; rfl
  · exact (List.append_nil _).symm

/-- A change leaves an inbox with the message that it sends there behind the others. -/
theorem Store.Allows.inbox {s s' : Store} {c : Change} {o : Outcome} (h : s.Allows c s' o)
    (user : String) : s'.inbox user = s.inbox user ++ (c.messageTo user).toList := by
  cases h with
  | send => exact s.inbox_send _ user
  | _ => exact (List.append_nil _).symm

/-! ### Requests and runs -/

namespace Engine

variable {settings : FeedSettings}

/-- One request leaves an inbox with what it has sent there behind what was there before. -/
theorem inbox_handle (e : Engine) (t : Reading) (r : Request) (user : String) :
    (e.handle settings t r).1.store.inbox user =
      e.store.inbox user ++ sentTo user [((t, r), (e.handle settings t r).2)] := by
  have hr := handles settings t e r
  generalize (e.handle settings t r).1 = e', (e.handle settings t r).2 = a at hr
  cases hr with
  | greeted ping => exact (List.append_nil _).symm
  | blank other blank => exact (List.append_nil _).symm
  | refused other filled task refuses => exact (List.append_nil _).symm
  | @changed c s o other filled task allows =>
    have hsent : sentTo user [((t, r), .success c.praise)] = (r.messageTo user t.now).toList := by
      simp only [sentTo, List.filterMap_cons, List.filterMap_nil]
      cases r.messageTo user t.now <;> rfl
    rw [hsent, messageTo_of_task task]
    exact allows.inbox user
  | asked other filled answers =>
    -- a question is answered, but with no success
    generalize r.task t.now = task at answers
    cases answers <;> exact (List.append_nil _).symm

/-- A run leaves an inbox with what it has sent there, in order, behind what was there before. -/
theorem inbox_run (e : Engine) (rs : List (Reading × Request)) (user : String) :
    (e.run settings rs).1.store.inbox user =
      e.store.inbox user ++ sentTo user (rs.zip (e.run settings rs).2) := by
  induction rs generalizing e with
  | nil => exact (List.append_nil _).symm
  | cons x rs ih =>
    rw [run, List.zip_cons_cons, sentTo_cons, ih, inbox_handle, List.append_assoc]

theorem handle_getMessages (e : Engine) (t : Reading) (user : String) :
    (e.handle settings t (.getMessages user)).2 = .messages (e.store.inbox user) := by
  have filledIds : (Request.getMessages user).blank? = none := rfl
  rw [handle_of_filled (by simp [Request.kind]) filledIds]
  rfl

/-- Whoever asks for a user's messages after a run gets those that were sent to the user in it, one
for each request that was a success, in the order in which they were handled; what is answered
later goes on from what was answered before; and a request that is no message to the user makes no
difference. There always is such an answer, whether or not there is such a user. -/
theorem inbox_logs_messages (settings : FeedSettings) (rs : List (Reading × Request))
    (user : String) :
    (∀ t, ((empty.run settings rs).1.handle settings t (.getMessages user)).2 =
      .messages (sentTo user (rs.zip (empty.run settings rs).2))) ∧
    (∀ (later : List (Reading × Request)) (t u : Reading), ∃ ms ms' : List Message,
      ((empty.run settings rs).1.handle settings t (.getMessages user)).2 = .messages ms ∧
      ((empty.run settings (rs ++ later)).1.handle settings u (.getMessages user)).2 =
        .messages ms' ∧
      ms <+: ms') ∧
    ∀ (t u v : Reading) (r : Request),
      (∀ id sender content repliesTo, r ≠ .sendMessage id sender user content repliesTo) →
      ((empty.run settings (rs ++ [(t, r)])).1.handle settings u (.getMessages user)).2 =
        ((empty.run settings rs).1.handle settings v (.getMessages user)).2 := by
  refine ⟨fun t => ?_, fun later t u => ?_, fun t u v r other => ?_⟩
  · rw [handle_getMessages, inbox_run]
    rfl
  · refine ⟨_, _, handle_getMessages _ t user, handle_getMessages _ u user, ?_⟩
    rw [run_append, inbox_run (empty.run settings rs).1 later user]
    exact List.prefix_append ..
  · have hnone : r.messageTo user t.now = none := by
      cases r with
      | sendMessage id sender recipient content repliesTo =>
        refine if_neg ?_
        rintro rfl
        exact other id sender content repliesTo rfl
      | _ => rfl
    have hsent (a : Response) : sentTo user [((t, r), a)] = [] := by
      cases a <;> simp [sentTo, hnone]
    rw [handle_getMessages, handle_getMessages, run_concat, inbox_handle, hsent, List.append_nil]

end Engine

end Agora
