import Agora.Proofs.Feed

/-!
How posts are ranked. A ranking has the same posts by falling score, in the total order of doubles,
and posts whose scores have the same bits stand in it as they stood before. There is just one list
like that, and ranking gives it; a limit takes its beginning, and what is ranked stays as it is when
it is ranked again.
-/

namespace Agora.Feed

/-! ### Lists by falling keys -/

section

variable {α : Type u} {key : α → ℤ} {xs ys : List α}

/-- The elements with one key stay as they stood when a list is sorted by falling key. -/
theorem filter_mergeSort (key : α → ℤ) (xs : List α) (k : ℤ) :
    (xs.mergeSort fun a b => decide (key b ≤ key a)).filter (key · = k) =
      xs.filter (key · = k) := by
  -- they stand in order already, so all of them are found in the sorted list as they stood
  have hordered : (xs.filter (key · = k)).Pairwise fun a b => decide (key b ≤ key a) = true := by
    refine List.pairwise_of_forall_mem_list fun a ha b hb => ?_
    have ha := of_decide_eq_true (List.mem_filter.1 ha).2
    have hb := of_decide_eq_true (List.mem_filter.1 hb).2
    rw [decide_eq_true_iff, ha, hb]
  have hsub : (xs.filter (key · = k)).Sublist
      (xs.mergeSort fun a b => decide (key b ≤ key a)) := by
    refine List.sublist_mergeSort ?_ (falling_total key) hordered List.filter_sublist
    intro a b c hab hbc
    exact falling_trans key hab hbc
  have hblock := hsub.filter (key · = k)
  simp only [List.filter_filter, Bool.and_self] at hblock
  have hlength := ((List.mergeSort_perm xs fun a b => decide (key b ≤ key a)).filter
    (key · = k)).length_eq
  exact (hblock.eq_of_length hlength.symm).symm

theorem mem_iff_of_filter_eq (same : ∀ k, xs.filter (key · = k) = ys.filter (key · = k)) (a : α) :
    a ∈ xs ↔ a ∈ ys := by
  have h := congrArg (a ∈ ·) (same (key a))
  simpa using h

/-- A list by falling key is known from the elements that it has with each key. -/
theorem eq_of_filter_eq (hx : xs.Pairwise fun a b => key b ≤ key a)
    (hy : ys.Pairwise fun a b => key b ≤ key a)
    (same : ∀ k, xs.filter (key · = k) = ys.filter (key · = k)) : xs = ys := by
  have hmem := mem_iff_of_filter_eq same
  induction xs generalizing ys with
  | nil => exact (List.eq_nil_iff_forall_not_mem.2 fun a ha => nomatch (hmem a).2 ha).symm
  | cons a xs ih =>
    cases ys with
    | nil => exact nomatch (hmem a).1 List.mem_cons_self
    | cons b ys =>
      obtain ⟨ha, hxs⟩ := List.pairwise_cons.1 hx
      obtain ⟨hb, hys⟩ := List.pairwise_cons.1 hy
      -- both heads have the greatest key, so each is the first element with that key
      have hkey : key b = key a := by
        refine le_antisymm ?_ ?_
        · rcases List.mem_cons.1 ((hmem b).2 List.mem_cons_self) with rfl | h
          · exact le_rfl
          · exact ha b h
        · rcases List.mem_cons.1 ((hmem a).1 List.mem_cons_self) with rfl | h
          · exact le_rfl
          · exact hb a h
      have hhead := same (key a)
      rw [List.filter_cons_of_pos (by simp), List.filter_cons_of_pos (by simp [hkey])] at hhead
      obtain ⟨rfl, -⟩ := List.cons.inj hhead
      have htail : ∀ k, xs.filter (key · = k) = ys.filter (key · = k) := by
        intro k
        have h := same k
        rw [List.filter_cons, List.filter_cons] at h
        split at h
        · exact (List.cons.inj h).2
        · exact h
      rw [ih hxs hys htail (mem_iff_of_filter_eq htail)]

/-- Functions that tell the same elements apart split a list into the same parts. -/
theorem filter_eq_of_kernel {β γ : Type*} [DecidableEq β] [DecidableEq γ] {f : α → β} {g : α → γ}
    (kernel : ∀ a b, f a = f b ↔ g a = g b)
    (same : ∀ x, xs.filter (f · = x) = ys.filter (f · = x)) (y : γ) :
    xs.filter (g · = y) = ys.filter (g · = y) := by
  by_cases h : ∃ a, g a = y
  · obtain ⟨a, rfl⟩ := h
    simpa only [kernel] using same (f a)
  · have hnone : ∀ zs : List α, zs.filter (g · = y) = [] := fun zs =>
      List.filter_eq_nil_iff.2 fun a _ ha => h ⟨a, of_decide_eq_true ha⟩
    rw [hnone, hnone]

end

/-! ### Rankings -/

/-- The score of a post, as the 64 bits of a double. -/
def scoreBits (now : Timestamp) (floor : Float) (p : Post) : UInt64 := (p.score now floor).toBits

/-- A list has the posts of another one by falling score, and those of one score as they stood. -/
structure Ranks (now : Timestamp) (floor : Float) (posts ranked : List Post) : Prop where
  perm : ranked.Perm posts
  falling : ranked.Pairwise fun p q => ¬ Double.Below (p.score now floor) (q.score now floor)
  stable : ∀ bits : UInt64, ranked.filter (scoreBits now floor · = bits) =
    posts.filter (scoreBits now floor · = bits)

variable {now : Timestamp} {floor : Float} {posts ranked : List Post}

theorem scoreBits_eq_iff {p q : Post} :
    scoreBits now floor p = scoreBits now floor q ↔ rankKey now floor p = rankKey now floor q := by
  rw [rankKey, rankKey, Double.orderKey_inj]
  exact ⟨fun h => Double.eq_of_toBits (congrArg UInt64.toNat h), congrArg Float.toBits⟩

theorem ranks_sorted (now : Timestamp) (floor : Float) (posts : List Post) :
    Ranks now floor posts (sorted now floor posts) where
  perm := sorted_perm now floor posts
  falling := falling_sorted now floor posts
  stable := by
    refine filter_eq_of_kernel (fun p q => scoreBits_eq_iff.symm) fun k => ?_
    rw [sorted_eq_mergeSort]
    exact filter_mergeSort (rankKey now floor) posts k

theorem Ranks.unique {ranked' : List Post} (h : Ranks now floor posts ranked)
    (h' : Ranks now floor posts ranked') : ranked = ranked' := by
  refine eq_of_filter_eq (h.falling.imp not_below_iff.1) (h'.falling.imp not_below_iff.1) ?_
  refine filter_eq_of_kernel (fun p q => scoreBits_eq_iff) fun bits => ?_
  rw [h.stable, h'.stable]

/-! ### Limits -/

theorem cut_sublist (limit : Option ℕ) (posts : List Post) : (cut limit posts).Sublist posts := by
  cases limit with
  | none => exact .refl _
  | some n => exact List.take_sublist ..

theorem sorted_eq_self
    (falling : posts.Pairwise fun p q => rankKey now floor q ≤ rankKey now floor p) :
    sorted now floor posts = posts := by
  rw [sorted_eq_mergeSort]
  exact List.mergeSort_of_pairwise (falling.imp decide_eq_true)

/-- Ranking gives the one list that has the posts by falling score, those of one score as they
stood; with a limit, as much of its beginning as there is up to the limit. What was ranked already
is only cut when it is ranked again. -/
theorem rank_is_stable_sort (posts : List Post) (now : Timestamp) (floor : Float) :
    (∀ ranked, Ranks now floor posts ranked ↔ ranked = rank posts now floor none) ∧
    (∀ n, rank posts now floor (some n) = (rank posts now floor none).take n ∧
      (rank posts now floor (some n)).length = min n posts.length) ∧
    ∀ limit again, rank (rank posts now floor limit) now floor again =
      cut again (rank posts now floor limit) := by
  have hranks := ranks_sorted now floor posts
  refine ⟨fun ranked => ⟨fun h => h.unique hranks, fun h => h ▸ hranks⟩, fun n => ⟨rfl, ?_⟩,
    fun limit again => ?_⟩
  · rw [← hranks.perm.length_eq]
    exact List.length_take
  · have hfalling := (pairwise_sorted now floor posts).sublist (cut_sublist limit _)
    exact congrArg (cut again) (sorted_eq_self hfalling)

end Agora.Feed
