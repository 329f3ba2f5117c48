import Agora.Request

/-!
What the engine counts. Counters grow by one; counters for single communities or kinds of request
exist from the first time they are touched; the number of members of a community is whatever was
told last. Durations are gathered in a histogram.

All counts are natural numbers. An exporter that counts in words of 64 bits shows the same ones up
to 2^64 events, and starts again from zero behind them.
-/

namespace Agora

/-- Something worth counting. -/
inductive Event where
  | userRegistered
  | postCreated (community : String)
  | commentCreated
  | voteRecorded
  | messageSent
  | members (community : String) (count : Nat)
  | failed (kind : Kind)
  | completed (kind : Kind) (nanos : Nat)
  deriving DecidableEq

/-- Durations by size. `counts` has a place for each bound of `Histogram.bounds`, and a last one for
what lies above them all. -/
structure Histogram where
  sum : Float
  count : Nat
  counts : List Nat

namespace Histogram

/-- The upper bounds in seconds: a millisecond, doubled eleven times. -/
def bounds : List Float :=
  (List.range 11).foldl (fun bs _ => bs ++ [bs.getLastD 0.0 * 2.0]) [0.001]

/-- The histogram without an observation. -/
def empty : Histogram := ⟨0.0, 0, List.replicate 13 0⟩

/-- Counts an observation at the first bound that it does not exceed. -/
def bump (x : Float) : List Float → List Nat → List Nat
  | _, [] => []
  | [], c :: cs => (c + 1) :: cs
  | b :: bs, c :: cs => if x ≤ b then (c + 1) :: cs else c :: bump x bs cs

/-- The histogram with one more observation. -/
def observe (h : Histogram) (x : Float) : Histogram :=
  ⟨h.sum + x, h.count + 1, bump x bounds h.counts⟩

/-- A duration in seconds: whole seconds and the rest are added as doubles. -/
def seconds (nanos : Nat) : Float :=
  Float.ofNat (nanos / 1000000000) + Float.ofNat (nanos % 1000000000) / 1000000000.0

/-- For each bound, how many observations do not exceed it. -/
def cumulative (h : Histogram) : List Nat :=
  (h.counts.foldl (fun (s : List Nat × Nat) c => ((s.2 + c) :: s.1, s.2 + c)) ([], 0)).1.reverse

end Histogram

/-- Everything that has been counted. -/
structure Metrics where
  users : Nat
  posts : Nat
  comments : Nat
  votes : Nat
  messages : Nat
  postsIn : Table Nat
  membersOf : Table Nat
  errors : Table Nat
  durations : Histogram

namespace Metrics

/-- Nothing counted yet. -/
def empty : Metrics := ⟨0, 0, 0, 0, 0, .empty, .empty, .empty, .empty⟩

instance : Inhabited Metrics := ⟨empty⟩

/-- The largest number of members that is told. -/
def memberLimit : Nat := 0x7fffffffffffffff

/-- One more under a label. -/
def increment (t : Table Nat) (label : String) : Table Nat :=
  t.insert label ((t.get? label).getD 0 + 1)

/-- The metrics after an event. -/
def record (m : Metrics) : Event → Metrics
  | .userRegistered => { m with users := m.users + 1 }
  | .postCreated c => { m with posts := m.posts + 1, postsIn := increment m.postsIn c }
  | .commentCreated => { m with comments := m.comments + 1 }
  | .voteRecorded => { m with votes := m.votes + 1 }
  | .messageSent => { m with messages := m.messages + 1 }
  | .members c n => { m with membersOf := m.membersOf.insert c (min n memberLimit) }
  | .failed k => { m with errors := increment m.errors k.name }
  | .completed _ nanos => { m with durations := m.durations.observe (Histogram.seconds nanos) }

/-- The metrics after some events. -/
def recordAll (m : Metrics) (es : List Event) : Metrics := es.foldl record m

end Metrics

end Agora
