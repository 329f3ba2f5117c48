import Agora.Proofs.Creation
import Agora.Proofs.TotalOrder
import Mathlib.Data.List.Nodup

/-!
What a feed shows. The ids of communities may be repeated, but each community is looked at once, so
a feed has each post of the communities once, as it was created and with its present karma; posts
stand by falling score, and a limit cuts off the posts that score least.
-/

namespace Agora

namespace Feed

/-! ### Ids without repetitions -/

/-- One id of the pass that keeps each id where it comes first. -/
def keep (s : List String × IdSet) (id : String) : List String × IdSet :=
  if s.2.has id then s else (id :: s.1, s.2.insert id ())

/-- The pass keeps each id once, as long as it knows which it has kept. -/
theorem foldl_keep (ids kept : List String) (seen : IdSet)
    (knows : ∀ id, seen.has id = true ↔ id ∈ kept) (once : kept.Nodup) :
    (ids.foldl keep (kept, seen)).1.Nodup ∧
      ∀ id, id ∈ (ids.foldl keep (kept, seen)).1 ↔ id ∈ kept ∨ id ∈ ids := by
  -- on the ids to come, with what is kept and what is known of it free to change
  induction ids generalizing kept seen with
  | nil => exact ⟨once, by simp⟩
  | cons i ids ih =>
    rw [List.foldl_cons, keep]
    split
    · rename_i hseen
      obtain ⟨hnodup, hmem⟩ := ih kept seen knows once
      refine ⟨hnodup, fun id => ?_⟩
      have hi := (knows i).1 hseen
      rw [hmem, List.mem_cons]
      grind
    · rename_i hnew
      have knows' : ∀ id, (seen.insert i ()).has id = true ↔ id ∈ i :: kept := by
        intro id
        rw [Table.has_insert, List.mem_cons, knows id]
      obtain ⟨hnodup, hmem⟩ := ih (i :: kept) (seen.insert i ()) knows'
        (List.nodup_cons.2 ⟨mt (knows i).2 hnew, once⟩)
      refine ⟨hnodup, fun id => ?_⟩
      rw [hmem, List.mem_cons, List.mem_cons]
      grind

theorem distinct_spec (ids : List String) :
    (distinct ids).Nodup ∧ ∀ id, id ∈ distinct ids ↔ id ∈ ids := by
  obtain ⟨hnodup, hmem⟩ := foldl_keep ids [] .empty (fun id => by simp [Table.has]) List.nodup_nil
  have hdistinct : distinct ids = (ids.foldl keep ([], .empty)).1.reverse := rfl
  rw [hdistinct]
  exact ⟨List.nodup_reverse.2 hnodup, fun id => by rw [List.mem_reverse, hmem]; simp⟩

/-! ### Order and limit -/

theorem falling_trans (key : α → Int) {a b c : α} (hab : decide (key b ≤ key a) = true)
    (hbc : decide (key c ≤ key b) = true) : decide (key c ≤ key a) = true := by
  rw [decide_eq_true_iff] at *
  exact Int.le_trans hbc hab

theorem falling_total (key : α → Int) (a b : α) :
    (decide (key b ≤ key a) || decide (key a ≤ key b)) = true := by
  rw [Bool.or_eq_true, decide_eq_true_iff, decide_eq_true_iff]
  exact Int.le_total (key b) (key a)

/-- Posts are sorted by their keys; that each carries its key along makes no difference. -/
theorem sorted_eq_mergeSort (now : Timestamp) (floor : Float) (posts : List Post) :
    sorted now floor posts =
      posts.mergeSort fun p q => decide (rankKey now floor q ≤ rankKey now floor p) := by
  have hkeyed : ∀ a ∈ posts.map fun p => (rankKey now floor p, p), a.1 = rankKey now floor a.2 := by
    intro a ha
    obtain ⟨p, -, rfl⟩ := List.mem_map.1 ha
    rfl
  have hmap := List.map_mergeSort (f := (·.2))
    (r := fun a b => decide (b.1 ≤ a.1))
    (s := fun p q => decide (rankKey now floor q ≤ rankKey now floor p))
    (l := posts.map fun p => (rankKey now floor p, p)) fun a ha b hb => by
      rw [hkeyed a ha, hkeyed b hb]
  rw [List.map_map] at hmap
  exact hmap.trans (congrArg (List.mergeSort · _) (List.map_id' posts))

theorem sorted_perm (now : Timestamp) (floor : Float) (posts : List Post) :
    (sorted now floor posts).Perm posts := by
  rw [sorted_eq_mergeSort]
  exact List.mergeSort_perm ..

theorem pairwise_sorted (now : Timestamp) (floor : Float) (posts : List Post) :
    (sorted now floor posts).Pairwise fun p q => rankKey now floor q ≤ rankKey now floor p := by
  rw [sorted_eq_mergeSort]
  refine (List.pairwise_mergeSort ?_ ?_ posts).imp of_decide_eq_true
  · intro a b c hab hbc
    exact falling_trans (rankKey now floor) hab hbc
  · intro a b
    exact falling_total (rankKey now floor) a b

theorem not_below_iff {now : Timestamp} {floor : Float} {p q : Post} :
    ¬ Double.Below (p.score now floor) (q.score now floor) ↔
      rankKey now floor q ≤ rankKey now floor p := by
  rw [Double.below_iff, Int.not_lt, rankKey, rankKey]

/-- No post stands before one whose score is higher. -/
theorem falling_sorted (now : Timestamp) (floor : Float) (posts : List Post) :
    (sorted now floor posts).Pairwise fun p q =>
      ¬ Double.Below (p.score now floor) (q.score now floor) :=
  (pairwise_sorted now floor posts).imp not_below_iff.2

theorem sorted_pair {now : Timestamp} {floor : Float} {p q : Post}
    (below : Double.Below (p.score now floor) (q.score now floor)) :
    sorted now floor [p, q] = [q, p] := by
  have hkey : rankKey now floor p < rankKey now floor q := (Double.below_iff ..).1 below
  simp [sorted_eq_mergeSort, List.mergeSort, hkey]

/-- Nothing that a limit cuts off stands before anything that it leaves. -/
theorem rel_of_cut {R : α → α → Prop} {xs : List α} (ordered : xs.Pairwise R) (limit : Option Nat) :
    ∀ x ∈ cut limit xs, ∀ y ∈ xs, y ∉ cut limit xs → R x y := by
  intro x hx y hy hcut
  cases limit with
  | none => exact absurd hy hcut
  | some n =>
    have hsplit : xs.take n ++ xs.drop n = xs := List.take_append_drop n xs
    rw [← hsplit, List.mem_append] at hy
    rw [← hsplit] at ordered
    exact (List.pairwise_append.1 ordered).2.2 x hx y (hy.resolve_left hcut)

end Feed

/-! ### The posts of some communities -/

namespace Store

theorem mem_postsIn {s : Store} {community : String} {p : Post} :
    p ∈ s.postsIn community ↔ p ∈ s.posts.values ∧ p.community = community := by
  simp [postsIn]

/-- The posts that a feed of some communities is made of. -/
def gathered (s : Store) (communities : List String) : List Post :=
  (Feed.distinct communities).flatMap s.postsIn

theorem mem_gathered {s : Store} {communities : List String} {p : Post} :
    p ∈ s.gathered communities ↔ p ∈ s.posts.values ∧ p.community ∈ communities := by
  rw [gathered, List.mem_flatMap]
  constructor
  · rintro ⟨c, hc, hp⟩
    obtain ⟨hpost, rfl⟩ := mem_postsIn.1 hp
    exact ⟨hpost, ((Feed.distinct_spec communities).2 _).1 hc⟩
  · rintro ⟨hpost, hc⟩
    exact ⟨_, ((Feed.distinct_spec communities).2 _).2 hc, mem_postsIn.2 ⟨hpost, rfl⟩⟩

/-- Where posts know their ids, none is gathered twice. -/
theorem nodup_gathered {s : Store} (own : ∀ id p, s.posts.get? id = some p → p.id = id)
    (communities : List String) : ((s.gathered communities).map (·.id)).Nodup := by
  have hvalues : (s.posts.values.map (·.id)).Nodup := Table.nodup_map_values own
  have hposts : (s.gathered communities).Nodup := by
    refine List.nodup_flatMap.2 ⟨fun c _ => hvalues.of_map.filter _, ?_⟩
    refine (Feed.distinct_spec communities).1.imp fun {c d} hne => ?_
    intro p hc hd
    exact hne ((mem_postsIn.1 hc).2.symm.trans (mem_postsIn.1 hd).2)
  refine hposts.map_on fun p hp q hq heq => ?_
  exact List.inj_on_of_nodup_map hvalues (mem_gathered.1 hp).1 (mem_gathered.1 hq).1 heq

end Store

namespace Engine

theorem handle_getFeed (settings : FeedSettings) (t : Reading) (e : Engine)
    (communities : List String) (limit : Option UInt64) :
    (e.handle settings t (.getFeed communities limit)).2 =
      .feed ((Feed.cut ((limit.or settings.defaultLimit).map UInt64.toNat)
        (Feed.sorted t.now settings.floor (e.store.gathered communities))).map Post.view) := rfl

/-- Two posts of one community, of which the second has a vote. -/
def voted : Engine :=
  (empty.run {} [(⟨.epoch, 0⟩, .createPost "a" "s" "u" "A" "-"),
    (⟨.epoch, 0⟩, .createPost "b" "s" "u" "B" "-"), (⟨.epoch, 0⟩, .vote "b" "v" true)]).1

-- naming the community twice repeats nothing, the vote puts "b" in front, the limit leaves only it
example : (voted.handle {} ⟨.epoch, 0⟩ (.getFeed ["s", "s"] (some 1))).2 =
    .feed [⟨"b", "s", "u", "B", "-", 1, .epoch⟩] := by
  have hgathered : voted.store.gathered ["s", "s"] =
      [⟨"a", "s", "u", "A", "-", 0, .epoch, .empty⟩,
        ⟨"b", "s", "u", "B", "-", 1, .epoch, Table.empty.insert "v" true⟩] := by decide +kernel
  rw [handle_getFeed, hgathered, Feed.sorted_pair (by decide +kernel)]
  decide +kernel

end Engine

end Agora
