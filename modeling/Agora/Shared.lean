import Agora.Store

/-!
A store in the hands of several callers at once. A caller gets hold of one table at a time, and
while it has it nobody else does. Most calls need one table and so one access. A vote, and the
question for a vote, look for the target among the posts; only where there is no post do they go
to the votes kept beside, which takes a second access, and others may get in between.

A shared store is a state and a step for each thing that may happen next; nothing says which of
them does.
-/

namespace Agora

/-- What a caller may want of a store. -/
inductive Call where
  | change (c : Change)
  | user (id : String)
  | community (id : String)
  | post (id : String)
  | postsIn (community : String)
  | commentsOn (post : String)
  | inbox (user : String)
  | voteOf (target user : String)
  deriving DecidableEq

instance decidableEqReport [DecidableEq ε] [DecidableEq α] : DecidableEq (Except ε α)
  | .ok a, .ok b => decidable_of_iff (a = b) (by rw [Except.ok.injEq])
  | .error f, .error g => decidable_of_iff (f = g) (by rw [Except.error.injEq])
  | .ok _, .error _ => isFalse nofun
  | .error _, .ok _ => isFalse nofun

/-- What a caller gets. -/
inductive Reply where
  | change (report : Except Failure Outcome)
  | user (found : Except Failure User)
  | community (found : Except Failure Community)
  | post (found : Except Failure Post)
  | posts (found : List Post)
  | comments (found : List Comment)
  | messages (found : List Message)
  | vote (found : Option Bool)
  deriving DecidableEq

/-- What is left of a call that has found no post under its target. -/
inductive Rest where
  | vote (target user : String) (up : Bool)
  | voteOf (target user : String)
  deriving DecidableEq

/-- The call that something is left of. -/
def Rest.call : Rest → Call
  | .vote target user up => .change (.vote target user up)
  | .voteOf target user => .voteOf target user

/-- The target under which no post was found. -/
def Rest.target : Rest → String
  | .vote target _ _ => target
  | .voteOf target _ => target

namespace Store

/-! ### Calls without anyone else -/

/-- A call from beginning to end. -/
def call (s : Store) : Call → Store × Reply
  | .change c => (s.after c, .change ((s.apply c).map (·.2)))
  | .user id => (s, .user (s.user id))
  | .community id => (s, .community (s.community id))
  | .post id => (s, .post (s.post id))
  | .postsIn community => (s, .posts (s.postsIn community))
  | .commentsOn post => (s, .comments (s.commentsOn post))
  | .inbox user => (s, .messages (s.inbox user))
  | .voteOf target user => (s, .vote (s.voteOf target user))

/-- Some calls, one after the other. -/
def callAll (s : Store) : List Call → Store × List Reply
  | [] => (s, [])
  | c :: cs =>
    let r := s.call c
    let rs := r.1.callAll cs
    (rs.1, r.2 :: rs.2)

/-! ### Calls by accesses -/

/-- The first access of a call, which is all there is to it unless it looks for a post under a
target and finds none. -/
def firstAccess (s : Store) : Call → Store × (Reply ⊕ Rest)
  | .change (.vote target user up) =>
    match s.posts.get? target with
    | some p =>
      let karma := (p.voted user up).karma
      (s.votePost p target user up, .inl (.change (.ok (.karma (some karma)))))
    | none => (s, .inr (.vote target user up))
  | .voteOf target user =>
    match s.posts.get? target with
    | some p => (s, .inl (.vote (p.votes.get? user)))
    | none => (s, .inr (.voteOf target user))
  | c => ((s.call c).1, .inl (s.call c).2)

/-- The second access: to the votes kept beside, whatever has become of the posts. -/
def secondAccess (s : Store) : Rest → Store × Reply
  | .vote target user up => (s.voteBeside target user up, .change (.ok (.karma none)))
  | .voteOf target user => (s, .vote ((s.sideVotes.get? target).bind (·.get? user)))

end Store

/-- How far a call has got: nowhere, or to the point where it has found no post. -/
inductive Stage where
  | fresh (c : Call)
  | late (r : Rest)
  deriving DecidableEq

/-- A call that somebody waits for, and when it began. -/
structure Underway where
  began : Nat
  stage : Stage
  deriving DecidableEq

/-- A call that has got its reply, and when it began and ended. -/
structure Completed where
  call : Call
  reply : Reply
  began : Nat
  ended : Nat
  deriving DecidableEq

/-- A store with the calls that are made of it. The clock tells how many things have happened;
`completed` is the history, newest first. -/
structure Shared where
  store : Store
  clock : Nat
  underway : List Underway
  completed : List Completed
  deriving DecidableEq

namespace Shared

/-- A store before anyone calls. -/
def start (s : Store) : Shared := ⟨s, 0, [], []⟩

/-- What may happen next: somebody makes a call; a call that is underway gets its next access. -/
inductive Action where
  | enter (c : Call)
  | access (place : Nat)

/-- The shared store after something that may happen, or nothing if it may not happen now. -/
def step (m : Shared) : Action → Option Shared
  | .enter c =>
    some { m with clock := m.clock + 1, underway := m.underway ++ [⟨m.clock, .fresh c⟩] }
  | .access place =>
    match m.underway[place]? with
    | none => none
    | some ⟨began, .fresh c⟩ =>
      match m.store.firstAccess c with
      | (s, .inl reply) =>
        some ⟨s, m.clock + 1, m.underway.eraseIdx place, ⟨c, reply, began, m.clock⟩ :: m.completed⟩
      | (s, .inr rest) =>
        some ⟨s, m.clock + 1, m.underway.set place ⟨began, .late rest⟩, m.completed⟩
    | some ⟨began, .late rest⟩ =>
      let r := m.store.secondAccess rest
      some ⟨r.1, m.clock + 1, m.underway.eraseIdx place,
        ⟨rest.call, r.2, began, m.clock⟩ :: m.completed⟩

/-- The shared store after several things that happened one after the other. -/
def run (m : Shared) (as : List Action) : Option Shared := as.foldlM step m

end Shared

end Agora
