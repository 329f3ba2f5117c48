import Agora.Decimal.Binary
import Agora.Entity

/-!
The order of a feed. A post scores its karma divided by its age in hours, and young posts count as
if they were as old as a floor says. A feed is sorted by falling score; posts of the same score
keep the order in which they were collected.
-/

namespace Agora

/-- The age of a post in hours, at a given time. -/
def Post.ageHours (p : Post) (now : Timestamp) : Float :=
  Float.ofInt (now.millisSince p.created) / 3600000.0

/-- The age that counts for the score: at least the floor, where there is one. -/
def countedAge (age floor : Float) : Float := if age < floor then floor else age

/-- The relevance of a post. -/
def Post.score (p : Post) (now : Timestamp) (floor : Float) : Float :=
  Float.ofInt p.karma.toInt / countedAge (p.ageHours now) floor

namespace Feed

/-- What posts are sorted by: the place of their score in the total order of doubles. -/
def rankKey (now : Timestamp) (floor : Float) (p : Post) : Int :=
  Decimal.orderKey (p.score now floor)

/-- Posts by falling score. -/
def sorted (now : Timestamp) (floor : Float) (posts : List Post) : List Post :=
  let keyed := posts.map fun p => (rankKey now floor p, p)
  (keyed.mergeSort fun a b => decide (b.1 ≤ a.1)).map (·.2)

/-- The first posts of a list, or all of them. -/
def cut (limit : Option Nat) (posts : List α) : List α :=
  match limit with
  | some n => posts.take n
  | none => posts

/-- The posts of a feed in their order, cut at a limit. -/
def rank (posts : List Post) (now : Timestamp) (floor : Float) (limit : Option Nat) : List Post :=
  cut limit (sorted now floor posts)

/-- The ids of a list without repetitions, each where it comes first. -/
def distinct (ids : List String) : List String :=
  (ids.foldl (fun s id => if s.2.has id then s else (id :: s.1, s.2.insert id ()))
    (([], .empty) : List String × IdSet)).1.reverse

end Feed

end Agora
