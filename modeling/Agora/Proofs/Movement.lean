import Agora.Proofs.Tally
import Mathlib.Algebra.Ring.Int.Defs
import Mathlib.Data.List.Infix

/-!
What votes report. A vote reports by how much it moves the karma of its post, and the reports of
votes that come one after the other add up: to how far the tally has come, and to how far karma has
come while it stays within its integers. Nothing is asked of the post at the start. Its karma need
not be the tally of its votes; whatever lies between the two then lies between them afterwards.
-/

namespace Agora.Post

/-- What votes that come one after the other report: by how much each of them moves karma. -/
def deltas : Post → List (String × Bool) → List Int64
  | _, [] => []
  | p, v :: vs => p.delta v.1 v.2 :: (p.voted v.1 v.2).deltas vs

/-- The sum of what votes report, as an integer without bounds. -/
def moved (p : Post) (vs : List (String × Bool)) : Int := ((p.deltas vs).map Int64.toInt).sum

/-- Karma is within its integers after each vote: what it was at the start, and what the votes so
far have reported, add up to one of them. -/
def StaysInRange (p : Post) (vs : List (String × Bool)) : Prop :=
  ∀ ws, ws <+: vs →
    Int64.minValue.toInt ≤ p.karma.toInt + p.moved ws ∧
      p.karma.toInt + p.moved ws ≤ Int64.maxValue.toInt

instance (p : Post) (vs : List (String × Bool)) : Decidable (p.StaysInRange vs) :=
  decidable_of_iff (∀ ws ∈ vs.inits, Int64.minValue.toInt ≤ p.karma.toInt + p.moved ws ∧
      p.karma.toInt + p.moved ws ≤ Int64.maxValue.toInt) <| by
    simp only [StaysInRange, List.mem_inits]

/-! ### One vote more -/

@[simp] theorem moved_nil (p : Post) : p.moved [] = 0 := rfl

theorem moved_cons (p : Post) (v : String × Bool) (vs : List (String × Bool)) :
    p.moved (v :: vs) = (p.delta v.1 v.2).toInt + (p.voted v.1 v.2).moved vs := List.sum_cons

theorem moved_concat (p : Post) (vs : List (String × Bool)) (v : String × Bool) :
    p.moved (vs ++ [v]) = p.moved vs + ((p.votedAll vs).delta v.1 v.2).toInt := by
  induction vs generalizing p with
  | nil =>
    rw [List.nil_append, moved_cons, moved_nil, moved_nil, Int.add_zero, Int.zero_add]
    rfl
  | cons w vs ih =>
    rw [List.cons_append, moved_cons, moved_cons, ih, Int.add_assoc]
    rfl

/-! ### A series of votes -/

/-- The tally comes as far as the votes report, whatever karma does. -/
theorem tally_votedAll (p : Post) (vs : List (String × Bool)) :
    tally (p.votedAll vs).votes = tally p.votes + p.moved vs := by
  induction vs using List.reverseRecOn with
  | nil => exact (Int.add_zero _).symm
  | append_singleton vs v ih =>
    rw [votedAll_append, votedAll_singleton, tally_voted, ih, moved_concat, Int.add_assoc]

/-- Karma comes as far as the votes report, while it stays in range. -/
theorem StaysInRange.toInt_karma {p : Post} {vs : List (String × Bool)} (stays : p.StaysInRange vs)
    {ws : List (String × Bool)} (part : ws <+: vs) :
    (p.votedAll ws).karma.toInt = p.karma.toInt + p.moved ws := by
  have hkarma : (p.votedAll ws).karma = Int64.ofInt (p.karma.toInt + p.moved ws) := by
    rw [karma_votedAll, tally_votedAll, add_sub_cancel_left, Int64.ofInt_add, Int64.ofInt_toInt]
  obtain ⟨hlow, hhigh⟩ := stays ws part
  rw [Int64.toInt_minValue] at hlow
  rw [Int64.toInt_maxValue] at hhigh
  rw [hkarma, Int64.toInt_ofInt_of_le hlow (by omega)]

/-- Votes on any post put the latest vote of each voter in place of the one before. As long as
karma stays in range, no vote makes it wrap, and karma and tally come equally far: as far as the
votes report. -/
theorem karma_moves_with_tally (p : Post) (vs : List (String × Bool)) (stays : p.StaysInRange vs) :
    (∀ user, (p.votedAll vs).votes.get? user = (latest user vs).or (p.votes.get? user)) ∧
      p.moved vs = (p.votedAll vs).karma.toInt - p.karma.toInt ∧
      p.moved vs = tally (p.votedAll vs).votes - tally p.votes ∧
      ∀ ws v, ws ++ [v] <+: vs →
        (p.votedAll (ws ++ [v])).karma.toInt =
          (p.votedAll ws).karma.toInt + ((p.votedAll ws).delta v.1 v.2).toInt := by
  refine ⟨get?_votes_votedAll p vs, ?_, ?_, ?_⟩
  · rw [stays.toInt_karma List.prefix_rfl, add_sub_cancel_left]
  · rw [tally_votedAll, add_sub_cancel_left]
  · intro ws v part
    have before : ws <+: vs := (List.prefix_append ws [v]).trans part
    rw [stays.toInt_karma part, stays.toInt_karma before, moved_concat, Int.add_assoc]

/-- A post whose karma, just below its highest value, is not the tally of its votes. -/
def acclaimed : Post :=
  ⟨"p", "s", "a", "t", "c", 9223372036854775805, .epoch,
    (Table.empty.insert "a" false).insert "b" true⟩

/-- Votes that are turned round, repeated and new. The first takes that karma to its highest
value. -/
def swings : List (String × Bool) :=
  [("a", true), ("b", false), ("a", true), ("c", true), ("c", false)]

theorem moved_of_acclaimed :
    acclaimed.StaysInRange swings ∧ acclaimed.moved swings = -1 ∧
      (acclaimed.votedAll swings).karma.toInt = acclaimed.karma.toInt - 1 ∧
      tally (acclaimed.votedAll swings).votes = tally acclaimed.votes - 1 ∧
      (acclaimed.votedAll swings).votes.get? "c" = some false := by
  have stays : acclaimed.StaysInRange swings := by decide
  have hmoved : acclaimed.moved swings = -1 := by decide
  obtain ⟨hvotes, hkarma, htally, -⟩ := karma_moves_with_tally acclaimed swings stays
  exact ⟨stays, hmoved, by omega, by omega, (hvotes "c").trans (by decide)⟩

end Agora.Post
