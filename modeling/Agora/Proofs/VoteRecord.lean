import Agora.Proofs.Karma

/-!
What the store remembers of a vote. While no post stands under the target, the store answers with
the latest vote of the user. A post that is filed there hides the votes cast before: they stay
beside, out of sight, and a user who votes again has two votes in the store.
-/

namespace Agora.Store

/-- The votes of a user on a target that a store holds, in the post and beside. -/
def held (s : Store) (target user : String) : List Bool :=
  ((s.posts.get? target).bind (·.votes.get? user)).toList ++ (s.sideVote target user).toList

/-- The user voted on the target before a post was filed under it, and not since. -/
def Eclipsed (cs : List Change) (target user : String) : Prop :=
  ∃ before later, empty.Files target cs before later ∧
    ownVotes user (votesOn target before) ≠ [] ∧ ownVotes user (votesOn target later) = []

/-- The user voted on the target both before a post was filed under it and since. -/
def Doubled (cs : List Change) (target user : String) : Prop :=
  ∃ before later, empty.Files target cs before later ∧
    ownVotes user (votesOn target before) ≠ [] ∧ ownVotes user (votesOn target later) ≠ []

section

variable {s : Store} {cs before later : List Change} {target user : String}

theorem voteOf_of_some {p : Post} (h : s.posts.get? target = some p) :
    s.voteOf target user = p.votes.get? user := by
  rw [voteOf, h]

theorem voteOf_of_none (h : s.posts.get? target = none) :
    s.voteOf target user = s.sideVote target user := by
  rw [voteOf, h, sideVote]

theorem voteOf_run_of_none (h : (empty.run cs).posts.get? target = none) :
    (empty.run cs).voteOf target user = latest user (votesOn target cs) := by
  rw [voteOf_of_none h, sideVote_run_of_none target user h]
  exact Option.or_none

/-! ### With a post under the target -/

theorem post_of_files (h : empty.Files target cs before later) (user : String) :
    ∃ p, (empty.run cs).posts.get? target = some p ∧
      p.votes.get? user = latest user (votesOn target later) := by
  obtain ⟨-, q, hq⟩ := posts_of_files h
  exact ⟨_, hq, get?_votes_fresh_votedAll q _ user⟩

theorem voteOf_of_files (h : empty.Files target cs before later) :
    (empty.run cs).voteOf target user = latest user (votesOn target later) := by
  obtain ⟨p, hp, hvotes⟩ := post_of_files h user
  rw [voteOf_of_some hp, hvotes]

/-- Only the votes from before the post are kept beside. -/
theorem sideVote_of_files (h : empty.Files target cs before later) :
    (empty.run cs).sideVote target user = latest user (votesOn target before) := by
  obtain ⟨q, t, rfl, rfl, hok⟩ := h
  obtain ⟨free, hafter⟩ := after_addPost hok
  have hfiled : ((empty.run before).posts.insert q.id q.fresh).get? q.id = some q.fresh := by
    rw [Table.get?_insert, if_pos rfl]
  rw [run_append, run_cons, hafter, sideVote_run_of_some hfiled]
  exact (sideVote_run_of_none _ _ free).trans Option.or_none

theorem latest_of_files (h : empty.Files target cs before later) :
    latest user (votesOn target cs) =
      (latest user (votesOn target later)).or (latest user (votesOn target before)) := by
  obtain ⟨q, t, rfl, -, -⟩ := h
  rw [votesOn_append, latest_append, votesOn_cons target (.addPost q)]
  rfl

theorem held_of_files (h : empty.Files target cs before later) :
    (empty.run cs).held target user =
      (latest user (votesOn target later)).toList ++
        (latest user (votesOn target before)).toList := by
  obtain ⟨p, hp, hvotes⟩ := post_of_files h user
  rw [held, hp, Option.bind_some, hvotes, sideVote_of_files h]

theorem length_toList_append_le_one (a b : Option α) :
    (a.toList ++ b.toList).length ≤ 1 ↔ a = none ∨ b = none := by
  cases a <;> cases b <;> simp

/-! ### Other changes -/

/-- A change that is no vote of the user's changes the answer only by filing a post over a vote. -/
theorem voteOf_after (s : Store) (c : Change) (quiet : latest user (votesOn target [c]) = none) :
    (s.after c).voteOf target user = s.voteOf target user ↔
      ¬ ((∃ q, c = .addPost q ∧ q.id = target) ∧ s.posts.get? target = none ∧
        s.sideVote target user ≠ none) := by
  cases h : s.posts.get? target with
  | some p =>
    have hc : (s.after c).posts.get? target = some _ := posts_run_of_some h [c]
    rw [voteOf_of_some hc, voteOf_of_some h, get?_votes_votedAll, quiet, Option.none_or]
    simp
  | none =>
    rw [voteOf_of_none h]
    by_cases hfile : ∃ q, c = .addPost q ∧ q.id = target
    · obtain ⟨q, rfl, hq⟩ := hfile
      have hc : (s.after (.addPost q)).posts.get? target = some q.fresh := by
        rw [posts_after, h]; exact if_pos hq
      have hnone : q.fresh.votes.get? user = none := rfl
      rw [voteOf_of_some hc, hnone]
      simp [hq, eq_comm]
    · have hc : (s.after c).posts.get? target = none := by
        rw [posts_after, h]
        cases c with
        | addPost q => exact if_neg fun hq => hfile ⟨q, rfl, hq⟩
        | _ => rfl
      rw [voteOf_of_none hc, sideVote_after, quiet, Option.none_or, ite_self]
      simp [hfile]

/-! ### Whole runs -/

theorem voteOf_of_eclipsed (h : Eclipsed cs target user) :
    (empty.run cs).voteOf target user = none := by
  obtain ⟨before, later, files, -, hlater⟩ := h
  rw [voteOf_of_files files, latest_eq_none.2 hlater]

theorem latest_ne_none_of_eclipsed (h : Eclipsed cs target user) :
    latest user (votesOn target cs) ≠ none := by
  obtain ⟨before, later, files, hbefore, hlater⟩ := h
  rw [latest_of_files files, latest_eq_none.2 hlater, Option.none_or]
  exact mt latest_eq_none.1 hbefore

theorem voteOf_of_not_eclipsed (visible : ¬ Eclipsed cs target user) :
    (empty.run cs).voteOf target user = latest user (votesOn target cs) := by
  cases h : (empty.run cs).posts.get? target with
  | none => exact voteOf_run_of_none h
  | some p =>
    obtain ⟨before, later, files⟩ := exists_files rfl h
    rw [voteOf_of_files files, latest_of_files files]
    cases hl : latest user (votesOn target later) with
    | some up => rfl
    | none =>
      -- the user has not voted since, so the post hides nothing only if there was no vote before
      have hb : ownVotes user (votesOn target before) = [] := by
        by_contra hb
        exact visible ⟨before, later, files, hb, latest_eq_none.1 hl⟩
      rw [latest_eq_none.2 hb]; rfl

theorem length_held_le_one_iff :
    ((empty.run cs).held target user).length ≤ 1 ↔ ¬ Doubled cs target user := by
  constructor
  · rintro hone ⟨before, later, files, hbefore, hlater⟩
    rw [held_of_files files, length_toList_append_le_one, latest_eq_none, latest_eq_none] at hone
    exact hone.elim hlater hbefore
  · intro single
    cases h : (empty.run cs).posts.get? target with
    | none =>
      have hheld : (empty.run cs).held target user =
          (none : Option Bool).toList ++ ((empty.run cs).sideVote target user).toList := by
        rw [held, h]; rfl
      rw [hheld, length_toList_append_le_one]
      exact .inl rfl
    | some p =>
      obtain ⟨before, later, files⟩ := exists_files rfl h
      rw [held_of_files files, length_toList_append_le_one, latest_eq_none, latest_eq_none]
      by_contra hne
      obtain ⟨hlater, hbefore⟩ := not_or.1 hne
      exact single ⟨before, later, files, hbefore, hlater⟩

end

/-- The store answers with a user's latest vote unless a post was filed over it, and then it
answers with none. It holds one vote at most unless the user has voted again since. No change but
the filing of a post over a vote alters the answer about other votes. -/
theorem voteOf_eq_latest_iff (cs : List Change) (target user : String) :
    ((empty.run cs).voteOf target user = latest user (votesOn target cs) ↔
      ¬ Eclipsed cs target user) ∧
    (Eclipsed cs target user → (empty.run cs).voteOf target user = none) ∧
    (((empty.run cs).held target user).length ≤ 1 ↔ ¬ Doubled cs target user) ∧
    ∀ c, ownVotes user (votesOn target [c]) = [] →
      (((empty.run cs).after c).voteOf target user = (empty.run cs).voteOf target user ↔
        ¬ ((∃ q, c = .addPost q ∧ q.id = target) ∧ (empty.run cs).posts.get? target = none ∧
          ownVotes user (votesOn target cs) ≠ [])) := by
  refine ⟨⟨fun heq hidden => ?_, voteOf_of_not_eclipsed⟩, voteOf_of_eclipsed,
    length_held_le_one_iff, fun c quiet => ?_⟩
  · exact latest_ne_none_of_eclipsed hidden (heq.symm.trans (voteOf_of_eclipsed hidden))
  · rw [voteOf_after _ _ (latest_eq_none.2 quiet)]
    refine not_congr (and_congr_right fun _ => and_congr_right fun absent => not_congr ?_)
    rw [← voteOf_of_none absent, voteOf_run_of_none absent, latest_eq_none]

/-- A vote, and a post filed over it. -/
def eclipse : List Change :=
  [.vote "x" "u" true, .addPost ⟨"x", "s", "a", "t", "c", 0, .epoch, .empty⟩]

theorem vote_eclipsed_by_post :
    latest "u" (votesOn "x" eclipse) = some true ∧ (empty.run eclipse).voteOf "x" "u" = none ∧
      (empty.run (eclipse ++ [.vote "x" "u" false])).held "x" "u" = [false, true] := by
  decide

/-- The vote is hidden, and it is not yet doubled. -/
theorem eclipsed_eclipse :
    Eclipsed eclipse "x" "u" ∧ (empty.run eclipse).voteOf "x" "u" = none ∧
      ¬ Doubled eclipse "x" "u" := by
  have hidden : Eclipsed eclipse "x" "u" :=
    ⟨[.vote "x" "u" true], [], ⟨_, _, rfl, rfl, rfl⟩, by decide, by decide⟩
  obtain ⟨-, hnone, hsingle, -⟩ := voteOf_eq_latest_iff eclipse "x" "u"
  exact ⟨hidden, hnone hidden, hsingle.1 (by decide)⟩

end Agora.Store
