import Agora.Proofs.Ranking
import Agora.Proofs.Thread

/-!
How little answers depend on the order in which things are listed. A store may list the posts in a
community and the comments on a post in any order, and a client may name communities in any order
and more than once. The threads of a post come out the same. A feed has the same scores in the same
places; only posts whose scores have the same bits can change places, and where a limit cuts through
such posts, as many of them are shown, though maybe others.
-/

namespace Agora

/-- An order in which a store lists the posts in each community and the comments on each post. -/
structure Store.Listing (s : Store) where
  posts : String → List Post
  comments : String → List Comment
  posts_perm : ∀ community, (posts community).Perm (s.postsIn community)
  comments_perm : ∀ post, (comments post).Perm (s.commentsOn post)

namespace Store.Listing

variable {s : Store}

/-- The order of the ids. -/
def byId (s : Store) : s.Listing := ⟨s.postsIn, s.commentsOn, fun _ => .refl _, fun _ => .refl _⟩

/-- The opposite order. -/
def reverse (l : s.Listing) : s.Listing where
  posts community := (l.posts community).reverse
  comments post := (l.comments post).reverse
  posts_perm community := (List.reverse_perm _).trans (l.posts_perm community)
  comments_perm post := (List.reverse_perm _).trans (l.comments_perm post)

/-- The posts that a feed of some communities is made of, as they are collected. -/
def gathered (l : s.Listing) (communities : List String) : List Post :=
  (Feed.distinct communities).flatMap l.posts

/-- The posts that a feed of some communities shows. -/
def shown (l : s.Listing) (settings : FeedSettings) (now : Timestamp) (communities : List String)
    (limit : Option UInt64) : List Post :=
  Feed.rank (l.gathered communities) now settings.floor
    ((limit.or settings.defaultLimit).map UInt64.toNat)

/-- Carries out a task, with posts and comments as they are listed. -/
def perform (l : s.Listing) (settings : FeedSettings) (now : Timestamp) :
    Task → Except Failure Result
  | .feed communities limit =>
    .ok ⟨s, .feed ((l.shown settings now communities limit).map Post.view), []⟩
  | .comments post => .ok ⟨s, .comments (Thread.build (l.comments post)).views, []⟩
  | task => s.perform settings now task

end Store.Listing

/-- Handles a request, with posts and comments as they are listed. -/
def Engine.handleBy (settings : FeedSettings) (t : Reading) (e : Engine) (l : e.store.Listing)
    (r : Request) : Engine × Response :=
  if r.kind = .ping then (e, .pong)
  else
    e.conclude r.kind t.elapsed
      ((r.plan t.now).bind fun task => l.perform settings t.now task)

theorem Store.Listing.perform_byId (s : Store) (settings : FeedSettings) (now : Timestamp)
    (task : Task) : (byId s).perform settings now task = s.perform settings now task := by
  cases task <;> rfl

/-- The order of the ids is the one in which requests are handled. -/
theorem Engine.handleBy_byId (settings : FeedSettings) (t : Reading) (e : Engine) (r : Request) :
    e.handleBy settings t (.byId e.store) r = e.handle settings t r := by
  simp only [handleBy, Store.Listing.perform_byId, handle]

/-! ### Comments -/

namespace Thread

variable {comments comments' : List Comment}

/-- Comments with ids of their own are put into one order, in whatever order they come. -/
theorem ordered_eq_of_perm (own : (comments.map (·.id)).Nodup) (perm : comments.Perm comments') :
    ordered comments = ordered comments' := by
  have own' : (comments'.map (·.id)).Nodup := (perm.map _).nodup_iff.1 own
  refine eq_of_pairwise_before (pairwise_ordered own) (pairwise_ordered own') fun c => ?_
  rw [(ordered_perm comments).mem_iff, perm.mem_iff, (ordered_perm comments').mem_iff]

theorem build_eq_of_perm (own : (comments.map (·.id)).Nodup) (perm : comments.Perm comments') :
    build comments = build comments' := by
  have hordered := ordered_eq_of_perm own perm
  rw [ordered, ordered] at hordered
  rw [build, build, hordered]

end Thread

/-! ### Feeds -/

namespace Feed

/-- Two feeds collected from the same posts differ at most in ties: places have the same scores, and
the posts of each score are the same, but for the last score if a limit cuts through its posts. -/
structure SameUpToTies (now : Timestamp) (floor : Float) (posts shown shown' : List Post) :
    Prop where
  scores : shown.map (scoreBits now floor) = shown'.map (scoreBits now floor)
  collected : shown.Subperm posts ∧ shown'.Subperm posts
  ties : ∀ bits, (∀ last ∈ shown.getLast?, scoreBits now floor last ≠ bits) →
    (shown.filter (scoreBits now floor · = bits)).Perm
      (shown'.filter (scoreBits now floor · = bits))
  uncut : posts.length ≤ shown.length → shown.Perm shown'
  unique : (posts.map (scoreBits now floor)).Nodup → shown = shown'

theorem distinct_perm {ids ids' : List String} (same : ∀ id, id ∈ ids ↔ id ∈ ids') :
    (distinct ids).Perm (distinct ids') := by
  obtain ⟨honce, hmem⟩ := distinct_spec ids
  obtain ⟨honce', hmem'⟩ := distinct_spec ids'
  refine (List.perm_ext_iff_of_nodup honce honce').2 fun id => ?_
  rw [hmem, hmem', same]

theorem cut_prefix (limit : Option ℕ) (xs : List α) : cut limit xs <+: xs := by
  cases limit with
  | none => exact List.prefix_refl xs
  | some n => exact List.take_prefix n xs

theorem map_cut (f : α → β) (limit : Option ℕ) (xs : List α) :
    (cut limit xs).map f = cut limit (xs.map f) := by
  cases limit with
  | none => rfl
  | some n => exact List.map_take

/-- Of the elements with a key other than that of the last one shown, a limit leaves all or none. -/
theorem filter_cut {key : α → ℤ} {xs : List α} (falling : xs.Pairwise fun a b => key b ≤ key a)
    {limit : Option ℕ} {last : α} (hlast : (cut limit xs).getLast? = some last) {k : ℤ}
    (other : key last ≠ k) :
    (cut limit xs).filter (key · = k) = if key last < k then xs.filter (key · = k) else [] := by
  obtain ⟨rest, hsplit⟩ := cut_prefix limit xs
  obtain ⟨init, hinit⟩ := List.getLast?_eq_some_iff.1 hlast
  rw [hinit] at hsplit ⊢
  rw [← hsplit] at falling ⊢
  obtain ⟨hshown, -, hcut⟩ := List.pairwise_append.1 falling
  obtain ⟨-, -, hbefore⟩ := List.pairwise_append.1 hshown
  -- what is cut off has no greater key than the last one, and what stands before it no lesser one
  split
  · rename_i hlt
    have hnone : rest.filter (key · = k) = [] := List.filter_eq_nil_iff.2 fun b hb hk => by
      have hle := hcut last (by simp) b hb
      rw [of_decide_eq_true hk] at hle
      omega
    rw [List.filter_append (init ++ [last]), hnone, List.append_nil]
  · rename_i hnot
    refine List.filter_eq_nil_iff.2 fun a ha hk => ?_
    have hk := of_decide_eq_true hk
    rcases List.mem_append.1 ha with ha | ha
    · have hle := hbefore a ha last (by simp)
      omega
    · exact other (List.mem_singleton.1 ha ▸ hk)

variable {now : Timestamp} {floor : Float} {posts posts' : List Post}

theorem sorted_perm_sorted (now : Timestamp) (floor : Float) (perm : posts.Perm posts') :
    (sorted now floor posts).Perm (sorted now floor posts') :=
  ((sorted_perm now floor posts).trans perm).trans (sorted_perm now floor posts').symm

/-- However posts are listed, there is one list of the scores that they have when they are
sorted. -/
theorem map_scoreBits_sorted (perm : posts.Perm posts') :
    (sorted now floor posts).map (scoreBits now floor) =
      (sorted now floor posts').map (scoreBits now floor) := by
  have hscores : (sorted now floor posts).map (·.score now floor) =
      (sorted now floor posts').map (·.score now floor) :=
    List.Perm.eq_of_pairwise (fun x y _ _ hxy hyx => Double.eq_of_not_below hxy hyx)
      (List.pairwise_map.2 (ranks_sorted now floor posts).falling)
      (List.pairwise_map.2 (ranks_sorted now floor posts').falling)
      ((sorted_perm_sorted now floor perm).map _)
  have hbits := congrArg (List.map Float.toBits) hscores
  rwa [List.map_map, List.map_map] at hbits

theorem map_scoreBits_rank (now : Timestamp) (floor : Float) (perm : posts.Perm posts')
    (limit : Option ℕ) :
    (rank posts now floor limit).map (scoreBits now floor) =
      (rank posts' now floor limit).map (scoreBits now floor) := by
  rw [rank, rank, map_cut, map_cut, map_scoreBits_sorted perm]

/-- Posts whose scores have bits of their own are sorted into one order. -/
theorem sorted_eq_of_perm (perm : posts.Perm posts')
    (distinct : (posts.map (scoreBits now floor)).Nodup) :
    sorted now floor posts = sorted now floor posts' := by
  refine List.Perm.eq_of_pairwise (fun p q hp hq hpq hqp => ?_)
    (ranks_sorted now floor posts).falling (ranks_sorted now floor posts').falling
    (sorted_perm_sorted now floor perm)
  have hp := (sorted_perm now floor posts).mem_iff.1 hp
  have hq := perm.mem_iff.2 ((sorted_perm now floor posts').mem_iff.1 hq)
  exact List.inj_on_of_nodup_map distinct hp hq
    (congrArg Float.toBits (Double.eq_of_not_below hpq hqp))

/-- The last posts of two feeds have the same score. -/
theorem exists_last_of_last (perm : posts.Perm posts') {limit : Option ℕ} {last : Post}
    (hlast : (rank posts now floor limit).getLast? = some last) :
    ∃ last', (rank posts' now floor limit).getLast? = some last' ∧
      scoreBits now floor last' = scoreBits now floor last := by
  have h := congrArg List.getLast? (map_scoreBits_rank now floor perm limit)
  rwa [List.getLast?_map, List.getLast?_map, hlast, Option.map_some, eq_comm,
    Option.map_eq_some_iff] at h

/-- Of the posts with a score other than that of the last one shown, a feed shows the same. -/
theorem filter_rank_perm (perm : posts.Perm posts') (limit : Option ℕ) {bits : UInt64}
    (other : ∀ last ∈ (rank posts now floor limit).getLast?, scoreBits now floor last ≠ bits) :
    ((rank posts now floor limit).filter (scoreBits now floor · = bits)).Perm
      ((rank posts' now floor limit).filter (scoreBits now floor · = bits)) := by
  cases hlast : (rank posts now floor limit).getLast? with
  | none =>
    have hscores := map_scoreBits_rank now floor perm limit
    have hnil := List.getLast?_eq_none_iff.1 hlast
    rw [hnil, List.map_nil, eq_comm, List.map_eq_nil_iff] at hscores
    rw [hnil, hscores]
  | some last =>
    obtain ⟨last', hlast', hsame⟩ := exists_last_of_last perm hlast
    have other := other last hlast
    by_cases hp : ∃ p : Post, scoreBits now floor p = bits
    · obtain ⟨p, rfl⟩ := hp
      have other' := hsame.symm ▸ other
      -- bits are as good as keys here, and by keys a limit leaves all of these posts or none
      simp only [ne_eq, scoreBits_eq_iff] at hsame other other' ⊢
      rw [rank, filter_cut (pairwise_sorted now floor posts) hlast other, rank,
        filter_cut (pairwise_sorted now floor posts') hlast' other', hsame]
      split
      · exact (sorted_perm_sorted now floor perm).filter _
      · exact .refl _
    · have hnone : ∀ shown : List Post, shown.filter (scoreBits now floor · = bits) = [] :=
        fun shown => List.filter_eq_nil_iff.2 fun p _ h => hp ⟨p, of_decide_eq_true h⟩
      rw [hnone, hnone]

/-- Posts that are listed in different orders are ranked alike, up to ties. -/
theorem sameUpToTies_rank {all : List Post} (hposts : posts.Perm all) (hposts' : posts'.Perm all)
    (limit : Option ℕ) :
    SameUpToTies now floor all (rank posts now floor limit) (rank posts' now floor limit) := by
  have hperm := hposts.trans hposts'.symm
  have hscores := map_scoreBits_rank now floor hperm limit
  have hcollected := (cut_sublist limit (sorted now floor posts)).subperm.trans
    ((sorted_perm now floor posts).trans hposts).subperm
  have hcollected' := (cut_sublist limit (sorted now floor posts')).subperm.trans
    ((sorted_perm now floor posts').trans hposts').subperm
  refine ⟨hscores, ⟨hcollected, hcollected'⟩, fun bits => filter_rank_perm hperm limit,
    fun hwhole => ?_, fun hdistinct => ?_⟩
  · have hlength : (rank posts now floor limit).length = (rank posts' now floor limit).length := by
      simpa using congrArg List.length hscores
    exact (hcollected.perm_of_length_le hwhole).trans
      (hcollected'.perm_of_length_le (hlength ▸ hwhole)).symm
  · have hdistinct := (hposts.map (scoreBits now floor)).nodup_iff.2 hdistinct
    exact congrArg (cut limit) (sorted_eq_of_perm hperm hdistinct)

end Feed

theorem Store.Listing.gathered_perm {s : Store} (l : s.Listing) {ids ids' : List String}
    (same : ∀ id, id ∈ ids ↔ id ∈ ids') : (l.gathered ids').Perm (s.gathered ids) :=
  (Feed.distinct_perm fun id => (same id).symm).flatMap fun community _ => l.posts_perm community

/-! ### Answers -/

namespace Engine

variable {settings : FeedSettings} {t : Reading} {e : Engine} {l l' : e.store.Listing}

theorem handleBy_getComments_congr {post : String}
    (same : Thread.build (l.comments post) = Thread.build (l'.comments post)) :
    e.handleBy settings t l (.getComments post) = e.handleBy settings t l' (.getComments post) := by
  have hperform : l.perform settings t.now (.comments post) =
      l'.perform settings t.now (.comments post) := by
    rw [Store.Listing.perform, Store.Listing.perform, same]
  cases hplan : (Request.getComments post).blank? with
  | some f => simp only [handleBy, plan_of_blank _ hplan, Except.bind]
  | none => simp only [handleBy, plan_of_filled _ hplan, Except.bind, Request.task, hperform]

/-- However a store lists its posts and comments, and however often and in whatever order the
communities of a feed are named, the answer about comments is the same, and feeds are the same up to
ties. What is handled by listing in the order of the ids is what the engine does. -/
theorem answers_independent_of_listing (settings : FeedSettings) (t : Reading) (e : Engine)
    (l l' : e.store.Listing) :
    (∀ r, e.handleBy settings t (.byId e.store) r = e.handle settings t r) ∧
    (∀ post, ((e.store.commentsOn post).map (·.id)).Nodup →
      e.handleBy settings t l (.getComments post) =
        e.handleBy settings t l' (.getComments post)) ∧
    ∀ ids ids' limit, (∀ id, id ∈ ids ↔ id ∈ ids') →
      e.handleBy settings t l (.getFeed ids limit) =
        (e.completed .getFeed t.elapsed e.store [],
          .feed ((l.shown settings t.now ids limit).map Post.view)) ∧
      e.handleBy settings t l' (.getFeed ids' limit) =
        (e.completed .getFeed t.elapsed e.store [],
          .feed ((l'.shown settings t.now ids' limit).map Post.view)) ∧
      Feed.SameUpToTies t.now settings.floor (e.store.gathered ids)
        (l.shown settings t.now ids limit) (l'.shown settings t.now ids' limit) := by
  refine ⟨handleBy_byId settings t e, fun post own => ?_, fun ids ids' limit same => ?_⟩
  · refine handleBy_getComments_congr (Thread.build_eq_of_perm ?_ ?_)
    · exact ((l.comments_perm post).map _).nodup_iff.2 own
    · exact (l.comments_perm post).trans (l'.comments_perm post).symm
  · refine ⟨rfl, rfl, ?_⟩
    exact Feed.sameUpToTies_rank (l.gathered_perm fun _ => .rfl) (l'.gathered_perm same) _

/-- A post that is all about where it stands and what it is worth. -/
def notice (id community : String) (karma : Int64) : Post :=
  ⟨id, community, "u", id, "", karma, .epoch, .empty⟩

/-- A remark on the post with the id `p`. -/
def remark (id : String) : Comment := ⟨id, "p", none, "u", id, .epoch⟩

/-- An engine with three posts in two communities, and with two comments on one of them. -/
def board : Engine where
  store := { Store.empty with
    posts := .ofList [("p", notice "p" "s" 3), ("q", notice "q" "s" 1), ("r", notice "r" "t" 2)]
    comments := .ofList [("a", remark "a"), ("b", remark "b")] }
  metrics := .empty

theorem board_listed_both_ways :
    ((board.store.commentsOn "p").map (·.id)).Nodup ∧
      board.handleBy {} ⟨.epoch, 0⟩ (.byId board.store) (.getComments "p") =
        board.handleBy {} ⟨.epoch, 0⟩ (Store.Listing.byId board.store).reverse
          (.getComments "p") ∧
      (∀ id, id ∈ ["s", "t"] ↔ id ∈ ["t", "s", "t"]) ∧
      ((board.store.gathered ["s", "t"]).map (Feed.scoreBits .epoch 2.0)).Nodup ∧
      (Store.Listing.byId board.store).shown {} .epoch ["s", "t"] (some 2) =
        (Store.Listing.byId board.store).reverse.shown {} .epoch ["t", "s", "t"] (some 2) := by
  obtain ⟨-, hcomments, hfeed⟩ := answers_independent_of_listing {} ⟨.epoch, 0⟩ board
    (.byId board.store) (Store.Listing.byId board.store).reverse
  have own : ((board.store.commentsOn "p").map (·.id)).Nodup := by decide
  have same : ∀ id, id ∈ ["s", "t"] ↔ id ∈ ["t", "s", "t"] := by
    intro id
    simp only [List.mem_cons, List.not_mem_nil, or_false]
    tauto
  have scores : ((board.store.gathered ["s", "t"]).map (Feed.scoreBits .epoch 2.0)).Nodup := by
    decide +kernel
  exact ⟨own, hcomments "p" own, same, scores,
    (hfeed ["s", "t"] ["t", "s", "t"] (some 2) same).2.2.unique scores⟩

end Engine

end Agora
