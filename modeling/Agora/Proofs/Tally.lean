import Agora.Proofs.Table
import Agora.Vote
import Mathlib.Data.Bool.Count
import Mathlib.Data.List.Induction

/-!
Karma against the votes it stands for. A post that takes votes one after the other ends with the
latest vote of each voter, and its karma has moved by as much as the tally of its votes. A tally is
never further from zero than there are votes, so karma stays in range as long as those do.
-/

namespace Agora

/-- The votes of one voter among others, in order. -/
def ownVotes (user : String) (vs : List (String × Bool)) : List Bool :=
  (vs.filter (·.1 = user)).map (·.2)

/-- The last vote of a voter. -/
def latest (user : String) (vs : List (String × Bool)) : Option Bool := (ownVotes user vs).getLast?

/-- The number of votes up less the number of votes down. -/
def tally (votes : Table Bool) : Int := votes.values.count true - votes.values.count false

/-- The post after votes that come one after the other. -/
def Post.votedAll (p : Post) (vs : List (String × Bool)) : Post :=
  vs.foldl (fun p v => p.voted v.1 v.2) p

/-! ### The latest vote -/

theorem ownVotes_append (user : String) (vs ws : List (String × Bool)) :
    ownVotes user (vs ++ ws) = ownVotes user vs ++ ownVotes user ws := by
  simp [ownVotes]

theorem latest_append (user : String) (vs ws : List (String × Bool)) :
    latest user (vs ++ ws) = (latest user ws).or (latest user vs) := by
  rw [latest, ownVotes_append, List.getLast?_append]; rfl

theorem latest_singleton (user : String) (v : String × Bool) :
    latest user [v] = if v.1 = user then some v.2 else none := by
  by_cases h : v.1 = user <;> simp [latest, ownVotes, h]

@[simp] theorem latest_nil (user : String) : latest user [] = none := rfl

theorem latest_eq_none {user : String} {vs : List (String × Bool)} :
    latest user vs = none ↔ ownVotes user vs = [] := List.getLast?_eq_none_iff

/-! ### The tally -/

/-- A voter's new vote moves the tally by the same amount as karma. -/
theorem tally_insert (votes : Table Bool) (user : String) (up : Bool) :
    tally (votes.insert user up) = tally votes + (voteDelta (votes.get? user) up).toInt := by
  rw [tally, tally]
  cases h : votes.get? user with
  | none =>
    have hnew := Table.values_insert_perm_of_none h up
    rw [hnew.count_eq, hnew.count_eq]
    cases up <;> simp [voteDelta, weight] <;> omega
  | some before =>
    have hnew := Table.values_insert_perm votes user up
    have hold := Table.values_perm h
    rw [hnew.count_eq, hnew.count_eq, hold.count_eq, hold.count_eq]
    cases before <;> cases up <;> simp [voteDelta, weight] <;> omega

theorem karma_voted (p : Post) (user : String) (up : Bool) :
    (p.voted user up).karma = p.karma + p.delta user up := rfl

theorem tally_voted (p : Post) (user : String) (up : Bool) :
    tally (p.voted user up).votes = tally p.votes + (p.delta user up).toInt := tally_insert ..

theorem natAbs_tally_le (votes : Table Bool) : (tally votes).natAbs ≤ votes.size := by
  have h := List.count_true_add_count_false votes.values
  rw [tally, Table.size_eq_length_values]
  omega

/-! ### Many votes -/

/-- Votes of different users may come in either order. -/
theorem Post.voted_comm (p : Post) {u₁ u₂ : String} (other : u₁ ≠ u₂) (up₁ up₂ : Bool) :
    (p.voted u₁ up₁).voted u₂ up₂ = (p.voted u₂ up₂).voted u₁ up₁ := by
  have hdelta₂ : (p.voted u₁ up₁).delta u₂ up₂ = p.delta u₂ up₂ := by
    simp only [Post.delta, Post.voted, Table.get?_insert, if_neg other]
  have hdelta₁ : (p.voted u₂ up₂).delta u₁ up₁ = p.delta u₁ up₁ := by
    simp only [Post.delta, Post.voted, Table.get?_insert, if_neg other.symm]
  have hkarma : p.karma + p.delta u₁ up₁ + p.delta u₂ up₂ =
      p.karma + p.delta u₂ up₂ + p.delta u₁ up₁ := by
    rw [Int64.add_assoc, Int64.add_comm (p.delta u₁ up₁), ← Int64.add_assoc]
  rw [Post.voted, hdelta₂, Post.voted.eq_def (p.voted u₂ up₂), hdelta₁]
  simp only [Post.voted, hkarma, Table.insert_comm other]

theorem votedAll_append (p : Post) (vs ws : List (String × Bool)) :
    p.votedAll (vs ++ ws) = (p.votedAll vs).votedAll ws := List.foldl_append ..

theorem votedAll_singleton (p : Post) (v : String × Bool) :
    p.votedAll [v] = p.voted v.1 v.2 := rfl

/-- Each voter's latest vote takes the place of the one the post had before. -/
theorem get?_votes_votedAll (p : Post) (vs : List (String × Bool)) (user : String) :
    (p.votedAll vs).votes.get? user = (latest user vs).or (p.votes.get? user) := by
  induction vs using List.reverseRecOn with
  | nil => rfl
  | append_singleton vs v ih =>
    rw [votedAll_append, votedAll_singleton, latest_append, latest_singleton, Post.voted,
      Table.get?_insert]
    by_cases h : v.1 = user
    · rw [if_pos h, if_pos h]; rfl
    · rw [if_neg h, if_neg h, ih, Option.none_or]

/-- Karma moves by as much as the tally, up to the size of its integers. -/
theorem karma_votedAll (p : Post) (vs : List (String × Bool)) :
    (p.votedAll vs).karma =
      p.karma + Int64.ofInt (tally (p.votedAll vs).votes - tally p.votes) := by
  induction vs using List.reverseRecOn with
  | nil => simp [Post.votedAll]
  | append_singleton vs v ih =>
    rw [votedAll_append, votedAll_singleton, karma_voted, tally_voted, ih, add_sub_right_comm,
      Int64.ofInt_add, Int64.ofInt_toInt, ← Int64.add_assoc]

/-! ### Karma in step with the votes -/

/-- Karma is the tally of the votes, as far as its integers go. -/
def Post.InStep (p : Post) : Prop := p.karma = Int64.ofInt (tally p.votes)

theorem inStep_votedAll_fresh (p : Post) (vs : List (String × Bool)) :
    (p.fresh.votedAll vs).InStep := by
  rw [Post.InStep, karma_votedAll]
  have hk : p.fresh.karma = 0 := rfl
  have ht : tally p.fresh.votes = 0 := rfl
  rw [hk, ht, Int64.zero_add, sub_zero]

theorem Post.InStep.voted {p : Post} (h : p.InStep) (user : String) (up : Bool) :
    (p.voted user up).InStep := by
  rw [InStep, karma_voted, tally_voted, Int64.ofInt_add, Int64.ofInt_toInt, ← h]

/-- Karma is the tally itself while there are fewer votes than its integers can count. -/
theorem Post.InStep.toInt_karma {p : Post} (h : p.InStep) (few : p.votes.size < 2 ^ 63) :
    p.karma.toInt = tally p.votes := by
  have hle := natAbs_tally_le p.votes
  rw [h, Int64.toInt_ofInt_of_le (by omega) (by omega)]

theorem Post.InStep.natAbs_karma_le {p : Post} (h : p.InStep) :
    p.karma.toInt.natAbs ≤ p.votes.size := by
  by_cases few : p.votes.size < 2 ^ 63
  · rw [h.toInt_karma few]; exact natAbs_tally_le p.votes
  · have hlo := p.karma.le_toInt
    have hhi := p.karma.toInt_lt
    omega

/-- A vote adds to karma without overflow. -/
theorem Post.InStep.toInt_karma_voted {p : Post} (h : p.InStep) {user : String} {up : Bool}
    (few : (p.voted user up).votes.size < 2 ^ 63) :
    (p.voted user up).karma.toInt = p.karma.toInt + (p.delta user up).toInt := by
  have hsize : p.votes.size ≤ (p.voted user up).votes.size := by
    rw [Post.voted, Table.size_insert]; exact Nat.le_add_right ..
  rw [(h.voted user up).toInt_karma few, h.toInt_karma (hsize.trans_lt few), tally_voted]

end Agora
