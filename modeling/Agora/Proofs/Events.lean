import Agora.Proofs.Counting
import Mathlib.Data.List.Induction

/-!
What has been counted, told from the events alone. A counter is the number of its events; a counter
under a label is the number of the events with that label, and is there when there is one; the
number of members under a label is the one that was told last, up to a limit.
-/

namespace Agora

/-! ### Events by what they count -/

/-- The communities of the posts that were created. -/
def postLabels (es : List Event) : List String :=
  es.filterMap fun
    | .postCreated c => some c
    | _ => none

/-- The communities whose number of members was told. -/
def memberLabels (es : List Event) : List String :=
  es.filterMap fun
    | .members c _ => some c
    | _ => none

/-- The names of the kinds of request that failed. -/
def errorLabels (es : List Event) : List String :=
  es.filterMap fun
    | .failed k => some k.name
    | _ => none

/-- The numbers of members that were told of a community. -/
def memberCounts (es : List Event) (community : String) : List Nat :=
  es.filterMap fun
    | .members c n => if c = community then some n else none
    | _ => none

/-- How long the requests took that were completed, in nanoseconds. -/
def durations (es : List Event) : List Nat :=
  es.filterMap fun
    | .completed _ nanos => some nanos
    | _ => none

/-- The number of members that is shown of a community. -/
def membersShown (es : List Event) (community : String) : Nat :=
  min ((memberCounts es community).getLastD 0) Metrics.memberLimit

/-- The histogram of some durations. -/
def Histogram.ofNanos (ns : List Nat) : Histogram :=
  ns.foldl (fun h n => h.observe (seconds n)) .empty

namespace Metrics

/-- The metrics tell of each thing what the events say. -/
structure Tells (m : Metrics) (es : List Event) : Prop where
  users : m.users = es.count .userRegistered
  posts : m.posts = (postLabels es).length
  comments : m.comments = es.count .commentCreated
  votes : m.votes = es.count .voteRecorded
  messages : m.messages = es.count .messageSent
  postsIn : ∀ l, m.postsIn.get? l = touched ((postLabels es).count l)
  membersOf : ∀ l, m.membersOf.get? l =
    if l ∈ memberLabels es then some (membersShown es l) else none
  errors : ∀ l, m.errors.get? l = touched ((errorLabels es).count l)
  durations : m.durations = .ofNanos (Agora.durations es)

/-- A counter that was touched as often as a label occurs is shown just under the labels. -/
theorem touched_count (labels : List String) (l : String) :
    touched (labels.count l) = if l ∈ labels then some (labels.count l) else none := by
  rw [touched]
  split
  · rename_i h
    rw [if_neg (List.count_eq_zero.1 h)]
  · rename_i h
    rw [if_pos (List.count_pos_iff.1 (Nat.pos_of_ne_zero h))]

theorem tells_empty : empty.Tells [] where
  users := rfl
  posts := rfl
  comments := rfl
  votes := rfl
  messages := rfl
  postsIn _ := rfl
  membersOf _ := rfl
  errors _ := rfl
  durations := rfl

theorem Tells.record {m : Metrics} {es : List Event} (h : m.Tells es) (e : Event) :
    (m.record e).Tells (es ++ [e]) where
  users := by cases e <;> simp [Metrics.record, h.users]
  posts := by cases e <;> simp [Metrics.record, h.posts, postLabels]
  comments := by cases e <;> simp [Metrics.record, h.comments]
  votes := by cases e <;> simp [Metrics.record, h.votes]
  messages := by cases e <;> simp [Metrics.record, h.messages]
  postsIn := by
    intro l
    cases e with
    | postCreated c =>
      have hinc := get?_increment (h.postsIn l) c
      simpa [Metrics.record, postLabels, List.count_singleton] using hinc
    | _ => simpa [Metrics.record, postLabels] using h.postsIn l
  membersOf := by
    intro l
    cases e with
    | members c n =>
      by_cases hc : c = l
      · simp [Metrics.record, memberLabels, membersShown, memberCounts, hc]
      · simpa [Metrics.record, memberLabels, membersShown, memberCounts, hc, Ne.symm hc] using
          h.membersOf l
    | _ => simpa [Metrics.record, memberLabels, membersShown, memberCounts] using h.membersOf l
  errors := by
    intro l
    cases e with
    | failed k =>
      have hinc := get?_increment (h.errors l) k.name
      simpa [Metrics.record, errorLabels, List.count_singleton] using hinc
    | _ => simpa [Metrics.record, errorLabels] using h.errors l
  durations := by
    cases e <;> simp [Metrics.record, h.durations, Agora.durations, Histogram.ofNanos]

theorem tells_recordAll (es : List Event) : (empty.recordAll es).Tells es := by
  induction es using List.reverseRecOn with
  | nil => exact tells_empty
  | append_singleton es e ih =>
    rw [recordAll, List.foldl_append]
    exact ih.record e

end Metrics

end Agora
