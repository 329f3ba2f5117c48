import Agora.Proofs.Shelf
import Agora.Proofs.Tally

/-!
The members of a community over a whole run of the store, which starts with nothing. A community is
founded once, and nobody belongs to it then. Afterwards a user belongs to it whose latest move was
to join; what was tried before it was founded came to nothing, and so does founding it again. Each
move that goes through tells how many members there are then.
-/

namespace Agora

/-- Who joined a community, and who left it, in order. -/
def movesIn (id : String) (cs : List Change) : List (String × Bool) :=
  cs.filterMap fun
    | .join community user => if community = id then some (user, true) else none
    | .leave community user => if community = id then some (user, false) else none
    | _ => none

/-- The members after a user has joined or left. -/
def IdSet.moved (members : IdSet) (move : String × Bool) : IdSet :=
  if move.2 then members.insert move.1 () else members.erase move.1

/-- The members after some have joined or left. -/
def IdSet.movedAll (members : IdSet) (moves : List (String × Bool)) : IdSet :=
  moves.foldl moved members

theorem movesIn_cons (id : String) (c : Change) (cs : List Change) :
    movesIn id (c :: cs) = movesIn id [c] ++ movesIn id cs :=
  List.filterMap_append (l := [c])

theorem has_moved (members : IdSet) (user u : String) (joins : Bool) :
    (members.moved (u, joins)).has user = if u = user then joins else members.has user := by
  cases joins
  · have h := Table.get?_erase members u user
    simp only [IdSet.moved, Table.has, Bool.false_eq_true, if_false, h]
    split <;> rfl
  · have h := Table.get?_insert members u user ()
    simp only [IdSet.moved, Table.has, if_true, h]
    split <;> rfl

/-- A user belongs to the members whose latest move was to join, or who has not moved. -/
theorem has_movedAll (members : IdSet) (moves : List (String × Bool)) (user : String) :
    (members.movedAll moves).has user = (latest user moves).getD (members.has user) := by
  induction moves using List.reverseRecOn with
  | nil => rfl
  | append_singleton moves move ih =>
    rw [IdSet.movedAll, List.foldl_append, List.foldl_cons, List.foldl_nil, has_moved,
      latest_append, latest_singleton]
    split
    · rfl
    · exact ih

theorem movesIn_join (id community user : String) :
    movesIn id [.join community user] = if community = id then [(user, true)] else [] := by
  by_cases h : community = id <;> simp [movesIn, h]

theorem movesIn_leave (id community user : String) :
    movesIn id [.leave community user] = if community = id then [(user, false)] else [] := by
  by_cases h : community = id <;> simp [movesIn, h]

namespace Store

variable {s : Store} {id user : String}

/-- The members of the community under an id, if there is one. -/
def membersOf (s : Store) (id : String) : Option IdSet :=
  (s.communities.get? id).map (·.members)

theorem membersOf_eq_none_iff : s.membersOf id = none ↔ s.communities.get? id = none :=
  Option.map_eq_none_iff

theorem membersOf_withMembers (s : Store) (id community : String) (c : Community)
    (members : IdSet) : (s.withMembers community c members).membersOf id =
      if community = id then some members else s.membersOf id := by
  rw [membersOf, withMembers, Table.get?_insert]
  split <;> rfl

/-! ### After a community is founded -/

theorem membersOf_moved {members : IdSet} {community : String} {c : Community}
    {moves : List (String × Bool)} {move : String × Bool} (present : s.membersOf id = some members)
    (found : s.communities.get? community = some c)
    (one : moves = if community = id then [move] else []) :
    (s.withMembers community c (c.members.moved move)).membersOf id =
      some (members.movedAll moves) := by
  rw [membersOf_withMembers, one]
  split
  · rename_i hid
    rw [membersOf, ← hid, found] at present
    cases present
    rfl
  · exact present

/-- The members of a community move as users join and leave it, and do not otherwise. -/
theorem membersOf_after {members : IdSet} (present : s.membersOf id = some members) (c : Change) :
    (s.after c).membersOf id = some (members.movedAll (movesIn id [c])) := by
  have other {community : String} (absent : s.communities.get? community = none) :
      community ≠ id := by
    rintro rfl
    exact nomatch (membersOf_eq_none_iff.2 absent).symm.trans present
  rcases allows_or_refuses s c with ⟨t, o, h⟩ | ⟨f, h⟩
  · rw [after_of_allows h]
    cases h with
    | addCommunity free =>
      rw [membersOf, Table.get?_insert, if_neg (other free)]
      exact present
    | join found => exact membersOf_moved present found (movesIn_join ..)
    | leave found => exact membersOf_moved present found (movesIn_leave ..)
    | _ => exact present
  · rw [after_of_refuses h]
    cases h with
    | join absent => rw [movesIn_join, if_neg (other absent)]; exact present
    | leave absent => rw [movesIn_leave, if_neg (other absent)]; exact present
    | _ => exact present

theorem membersOf_run {members : IdSet} (present : s.membersOf id = some members)
    (cs : List Change) : (s.run cs).membersOf id = some (members.movedAll (movesIn id cs)) := by
  induction cs generalizing s members with
  | nil => exact present
  | cons c cs ih =>
    rw [run_cons, ih (membersOf_after present c), movesIn_cons id c cs, IdSet.movedAll,
      IdSet.movedAll, IdSet.movedAll, List.foldl_append]

/-! ### Whole runs -/

/-- The members of a community are those whose latest move since it was founded was to join. -/
theorem exists_founded {cs : List Change} {c : Community}
    (present : (empty.run cs).communities.get? id = some c) :
    ∃ before q later, cs = before ++ .addCommunity q :: later ∧ q.id = id ∧
      (empty.run before).apply (.addCommunity q) =
        .ok (empty.run (before ++ [.addCommunity q]), .done) ∧
      ∀ user, c.members.has user = true ↔ latest user (movesIn id later) = some true := by
  obtain ⟨before, ch, later, q, rfl, hmade, rfl, hfirst⟩ :=
    Shelf.communities.exists_filed (by
      rw [Shelf.communities, present]
      exact Option.some_ne_none c)
  obtain ⟨hfiled, -⟩ := Shelf.communities.filesOnce before ch q hmade
  obtain ⟨happly, hfounded⟩ := hfiled hfirst
  cases ch with
  | addCommunity q' =>
    cases hmade
    refine ⟨before, q, later, rfl, rfl, happly, fun user => ?_⟩
    have hnobody : (empty.run (before ++ [.addCommunity q])).membersOf q.id = some .empty :=
      congrArg (Option.map Community.members) hfounded
    have hnow : (empty.run (before ++ .addCommunity q :: later)).membersOf q.id =
        some c.members := congrArg (Option.map Community.members) present
    rw [← List.singleton_append, ← List.append_assoc, run_append, membersOf_run hnobody] at hnow
    change c.members.has user = true ↔ latest user (movesIn q.id later) = some true
    rw [← Option.some.inj hnow, has_movedAll]
    cases latest user (movesIn q.id later) <;> simp [Table.has]
  | _ => cases hmade

/-- A move that goes through tells the number of members it leaves. -/
theorem apply_of_moves {c : Community} {ch : Change} {members : IdSet}
    (allows : s.Allows ch (s.withMembers id c members) (.members members.size)) :
    s.apply ch = .ok (s.after ch, .members members.size) ∧
      (s.after ch).community id = .ok { c with members } := by
  rw [after_of_allows allows, apply_of_allows allows, community, lookUp_eq_ok_iff, withMembers,
    Table.get?_insert, if_pos rfl]
  exact ⟨rfl, rfl⟩

/-- Before a community is founded nobody can join or leave it, and trying to changes nothing. Once
it is there, its members are those whose latest move since it was founded was to join; joining and
leaving go through and tell how many members there are then, no more and no fewer than before if
nothing was to be done; and founding it again is refused and leaves it as it was. -/
theorem members_follow_latest_move (cs : List Change) (id : String) :
    ((empty.run cs).community id = .error (.notFound "subreddit" id) → ∀ user c,
      c = .join id user ∨ c = .leave id user →
        (empty.run cs).apply c = .error (.notFound "subreddit" id) ∧
        empty.run (cs ++ [c]) = empty.run cs) ∧
    ∀ c, (empty.run cs).community id = .ok c →
      (∃ before q later, cs = before ++ .addCommunity q :: later ∧ q.id = id ∧
        (empty.run before).apply (.addCommunity q) =
          .ok (empty.run (before ++ [.addCommunity q]), .done) ∧
        ∀ user, c.members.has user = true ↔ latest user (movesIn id later) = some true) ∧
      (∀ user, ∃ d, (empty.run cs).apply (.join id user) =
          .ok (empty.run (cs ++ [.join id user]), .members d.members.size) ∧
        (empty.run (cs ++ [.join id user])).community id = .ok d ∧
        d.members.size = c.members.size + if c.members.has user then 0 else 1) ∧
      (∀ user, ∃ d, (empty.run cs).apply (.leave id user) =
          .ok (empty.run (cs ++ [.leave id user]), .members d.members.size) ∧
        (empty.run (cs ++ [.leave id user])).community id = .ok d ∧
        d.members.size + (if c.members.has user then 1 else 0) = c.members.size) ∧
      ∀ q, q.id = id → (empty.run cs).apply (.addCommunity q) =
          .error (.alreadyExists "subreddit" id) ∧
        empty.run (cs ++ [.addCommunity q]) = empty.run cs := by
  have hrun (ch : Change) : empty.run (cs ++ [ch]) = (empty.run cs).after ch := run_append ..
  constructor
  · intro herror user ch hmove
    have absent := lookUp_eq_error_iff.1 herror
    have hrefuses : (empty.run cs).Refuses ch (.notFound "subreddit" id) := by
      rcases hmove with rfl | rfl
      · exact .join absent
      · exact .leave absent
    rw [hrun, after_of_refuses hrefuses, apply_of_refuses hrefuses]
    exact ⟨rfl, rfl⟩
  · intro c hc
    have present := lookUp_eq_ok_iff.1 hc
    refine ⟨exists_founded present, fun user => ?_, fun user => ?_, ?_⟩
    · have hjoins : (empty.run cs).Allows (.join id user) _ _ := .join present
      obtain ⟨happly, hthen⟩ := apply_of_moves hjoins
      rw [hrun]
      exact ⟨_, happly, hthen, Table.size_insert ..⟩
    · have hleaves : (empty.run cs).Allows (.leave id user) _ _ := .leave present
      obtain ⟨happly, hthen⟩ := apply_of_moves hleaves
      rw [hrun]
      exact ⟨_, happly, hthen, Table.size_erase ..⟩
    · rintro q rfl
      have hrefuses : (empty.run cs).Refuses (.addCommunity q) (.alreadyExists "subreddit" q.id) :=
        .addCommunity (by rw [Table.has, present]; rfl)
      rw [hrun, after_of_refuses hrefuses, apply_of_refuses hrefuses]
      exact ⟨rfl, rfl⟩

/-- A run in which a user joins too early, two join, one of them twice, the other leaves, and the
community is founded once more. -/
def gathering : List Change :=
  [.join "s" "a", .addCommunity ⟨"s", "n", "d", "a", .ofIds ["z"], .epoch⟩, .join "s" "b",
    .join "s" "c", .join "s" "c", .leave "s" "b",
    .addCommunity ⟨"s", "m", "d", "b", .empty, .epoch⟩]

theorem members_of_gathering :
    (empty.run (gathering.take 1)).apply (.leave "s" "a") = .error (.notFound "subreddit" "s") ∧
      ∃ c : Community, (empty.run gathering).community "s" = .ok c ∧
        c.members.has "c" = true ∧ ∃ d : Community, (empty.run gathering).apply (.join "s" "c") =
            .ok (empty.run (gathering ++ [.join "s" "c"]), .members d.members.size) ∧
          d.members.size = c.members.size := by
  obtain ⟨hearly, -⟩ := members_follow_latest_move (gathering.take 1) "s"
  obtain ⟨-, hthere⟩ := members_follow_latest_move gathering "s"
  refine ⟨(hearly rfl "a" _ (.inr rfl)).1, _, rfl, by decide, ?_⟩
  obtain ⟨-, hjoin, -, -⟩ := hthere _ rfl
  obtain ⟨d, happly, -, hsize⟩ := hjoin "c"
  exact ⟨d, happly, hsize⟩

end Store

end Agora
