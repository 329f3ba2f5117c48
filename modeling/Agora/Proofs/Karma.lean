import Agora.Proofs.History

/-!
The karma of a post over a whole run of the store, which starts with nothing. Whatever karma and
votes a post comes with when it is filed, afterwards it holds the latest vote of each user who
voted since, and its karma is their tally: it depends on the votes of each voter in their order,
and not on how those of different voters are mixed.
-/

namespace Agora.Store

/-- A post in a run was filed once, and has since taken the votes on its id and nothing else. -/
theorem exists_files_votedAll {cs : List Change} {id : String} {p : Post}
    (present : (empty.run cs).posts.get? id = some p) :
    ∃ before later, empty.Files id cs before later ∧
      ∃ q : Post, p = q.fresh.votedAll (votesOn id later) := by
  obtain ⟨before, later, files⟩ := exists_files rfl present
  obtain ⟨-, q, hq⟩ := posts_of_files files
  exact ⟨before, later, files, q, Option.some.inj (present.symm.trans hq)⟩

theorem get?_votes_fresh_votedAll (q : Post) (vs : List (String × Bool)) (user : String) :
    (q.fresh.votedAll vs).votes.get? user = latest user vs := by
  rw [get?_votes_votedAll]
  exact Option.or_none

/-- Posts filed in different runs, on which each user has cast the same votes in the same order. -/
theorem votedAll_fresh_of_ownVotes {vs ws : List (String × Bool)}
    (same : ∀ user, ownVotes user vs = ownVotes user ws) (p q : Post) :
    (p.fresh.votedAll vs).votes = (q.fresh.votedAll ws).votes ∧
      (p.fresh.votedAll vs).karma = (q.fresh.votedAll ws).karma := by
  have hvotes : (p.fresh.votedAll vs).votes = (q.fresh.votedAll ws).votes := by
    refine Table.ext fun user => ?_
    rw [get?_votes_fresh_votedAll, get?_votes_fresh_votedAll, latest, latest, same user]
  refine ⟨hvotes, ?_⟩
  rw [inStep_votedAll_fresh p vs, inStep_votedAll_fresh q ws, hvotes]

/-- A vote on a post that stands under the id reports the karma that the post has then. -/
theorem vote_reports_karma {s : Store} {id : String} {p : Post}
    (present : s.posts.get? id = some p) (user : String) (up : Bool) :
    s.apply (.vote id user up) = .ok (s.after (.vote id user up),
        .karma (some (p.voted user up).karma)) ∧
      (s.after (.vote id user up)).posts.get? id = some (p.voted user up) := by
  have hallow : s.Allows (.vote id user up) _ _ := .votePost present
  rw [after_of_allows hallow, apply_of_allows hallow, votePost, Table.get?_insert, if_pos rfl]
  exact ⟨rfl, rfl⟩

/-- Every post holds the latest vote of each user since it was filed, and its karma is the number
of votes up less the number of votes down: exactly, unless there are more votes than its integers
can count. -/
theorem karma_follows_latest_votes (cs : List Change) (id : String) (p : Post)
    (present : (empty.run cs).posts.get? id = some p) :
    ∃ before later, empty.Files id cs before later ∧
      (∀ user, p.votes.get? user = latest user (votesOn id later)) ∧
      p.karma = Int64.ofInt (tally p.votes) ∧
      (p.votes.size < 2 ^ 63 → p.karma.toInt = tally p.votes) ∧
      p.karma.toInt.natAbs ≤ p.votes.size ∧
      (∀ user up, ∃ q,
        (empty.run cs).apply (.vote id user up) =
          .ok (empty.run (cs ++ [.vote id user up]), .karma (some q.karma)) ∧
        (empty.run (cs ++ [.vote id user up])).posts.get? id = some q ∧
        (q.votes.size < 2 ^ 63 → q.karma.toInt = tally q.votes ∧
          q.karma.toInt = p.karma.toInt + (p.delta user up).toInt)) ∧
      ∀ ds before' later', empty.Files id ds before' later' →
        (∀ user, ownVotes user (votesOn id later') = ownVotes user (votesOn id later)) →
        ∃ r, (empty.run ds).posts.get? id = some r ∧ r.votes = p.votes ∧ r.karma = p.karma := by
  obtain ⟨before, later, files, q, hp⟩ := exists_files_votedAll present
  have step : p.InStep := hp ▸ inStep_votedAll_fresh q _
  refine ⟨before, later, files, ?_, step, step.toInt_karma, step.natAbs_karma_le, ?_, ?_⟩
  · intro user
    rw [hp, get?_votes_fresh_votedAll]
  · intro user up
    obtain ⟨hreport, hpost⟩ := vote_reports_karma present user up
    refine ⟨p.voted user up, ?_⟩
    rw [run_append]
    exact ⟨hreport, hpost, fun few =>
      ⟨(step.voted user up).toInt_karma few, step.toInt_karma_voted few⟩⟩
  · intro ds before' later' files' same
    obtain ⟨-, r, hr⟩ := posts_of_files files'
    have hsame := votedAll_fresh_of_ownVotes same r q
    exact ⟨_, hr, hp ▸ hsame⟩

/-- A run with a vote before the post is filed, a vote turned round, and a post that comes with
karma and is refused because its id is taken. -/
def disputed : List Change :=
  [.vote "p" "a" true, .addPost ⟨"p", "s", "a", "t", "c", 99, .epoch, Table.empty.insert "z" true⟩,
    .vote "p" "a" true, .vote "p" "b" false, .join "s" "a",
    .addPost ⟨"p", "s", "b", "t", "c", 7, .epoch, .empty⟩, .vote "p" "a" false]

/-- The post that is left of it. -/
def disputedPost : Post :=
  ⟨"p", "s", "a", "t", "c", -2, .epoch, (Table.empty.insert "a" false).insert "b" false⟩

theorem karma_of_disputed :
    (empty.run disputed).posts.get? "p" = some disputedPost ∧
      disputedPost.karma.toInt = tally disputedPost.votes ∧
      disputedPost.karma.toInt.natAbs ≤ disputedPost.votes.size ∧
      ∃ q : Post, (empty.run disputed).apply (.vote "p" "b" true) =
          .ok (empty.run (disputed ++ [.vote "p" "b" true]), .karma (some q.karma)) ∧
        q.karma.toInt = disputedPost.karma.toInt + 2 := by
  have present : (empty.run disputed).posts.get? "p" = some disputedPost := by decide
  obtain ⟨_, _, -, -, -, hexact, hbound, hvote, -⟩ := karma_follows_latest_votes _ _ _ present
  obtain ⟨q, hreport, hq, hmove⟩ := hvote "b" true
  have few : q.votes.size < 2 ^ 63 := by
    have : some q = some (disputedPost.voted "b" true) := hq.symm.trans (by decide)
    rw [Option.some.inj this]; decide
  exact ⟨present, hexact (by decide), hbound, q, hreport, (hmove few).2⟩

end Agora.Store
