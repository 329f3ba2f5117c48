import Agora.Entity

/-!
Votes and karma. A user has at most one vote on a post, the latest one. Karma is not counted anew:
each vote moves it by what the vote changes, one for a first vote, two for a vote turned round and
nothing for a vote repeated. Karma is a 64-bit integer and wraps at its ends.
-/

namespace Agora

/-- What one vote counts: one up or one down. -/
def weight (up : Bool) : Int64 := if up then 1 else -1

/-- By how much karma moves when a vote takes the place of the previous one, if there was one. -/
def voteDelta (previous : Option Bool) (up : Bool) : Int64 :=
  match previous with
  | none => weight up
  | some before => if before = up then 0 else 2 * weight up

/-- By how much a user's vote moves the karma of a post. -/
def Post.delta (p : Post) (user : String) (up : Bool) : Int64 := voteDelta (p.votes.get? user) up

/-- The post after a user's vote. -/
def Post.voted (p : Post) (user : String) (up : Bool) : Post :=
  { p with karma := p.karma + p.delta user up, votes := p.votes.insert user up }

/-- A new post has no votes and no karma. -/
def Post.fresh (p : Post) : Post := { p with karma := 0, votes := .empty }

end Agora
