import Agora.Proofs.Descent

/-!
Where the comments of a set are found in the threads that they make up. Whatever the comments name
as what they reply to, be it nothing, a comment of the set made earlier or later, themselves, each
other in a circle or something unknown, each comment is found in one place: among the roots, or
once in the list of replies to one comment; or it replies to something unknown and is found nowhere.
-/

namespace Agora.Thread

open Engine (timed)

variable {comments : List Comment} {c d : Comment} {x y : String}

/-- A comment replies to something that is not among some comments. -/
def Dangles (comments : List Comment) (c : Comment) : Prop :=
  ∃ parent, c.parent = some parent ∧ parent ≠ "" ∧ parent ∉ comments.map (·.id)

/-- A comment is just one of these: a root; listed once, under one comment; dangling. -/
def PlacedOnce (comments : List Comment) (t : Thread) (c : Comment) : Prop :=
  (c ∈ t.roots ∧ (∀ x, c.id ∉ t.childrenOf x) ∧ ¬ Dangles comments c) ∨
  (c ∉ t.roots ∧
    (∃ x, (t.childrenOf x).count c.id = 1 ∧ ∀ y, y ≠ x → c.id ∉ t.childrenOf y) ∧
    ¬ Dangles comments c) ∨
  (c ∉ t.roots ∧ (∀ x, c.id ∉ t.childrenOf x) ∧ Dangles comments c)

/-- Threads in which all of some comments are found where they belong, in the order of creation. -/
structure Arranges (comments : List Comment) (t : Thread) : Prop where
  roots : t.roots.Perm (comments.filter fun c => c.parent = none ∨ c.parent = some "") ∧
    t.roots.Pairwise Comment.Before
  replies : ∀ x, ∃ replies : List Comment, t.childrenOf x = replies.map (·.id) ∧
    replies.Pairwise Comment.Before ∧
    replies.Perm (if x ∈ comments.map (·.id) then
      comments.filter fun c => c.parent = some x ∧ x ≠ "" else [])
  places : ∀ c ∈ comments, PlacedOnce comments t c
  views : t.views = t.roots.map fun c =>
    ⟨c.id, c.post, c.parent, c.author, c.content, c.created, t.childrenOf c.id⟩

theorem repliesTo_eq_none_iff : c.repliesTo = none ↔ c.parent = none ∨ c.parent = some "" := by
  cases h : c.parent <;> simp [Comment.repliesTo, h, Option.filter]

theorem repliesTo_eq_some_iff : c.repliesTo = some x ↔ c.parent = some x ∧ x ≠ "" := by
  rw [Comment.repliesTo, Option.filter_eq_some_iff, decide_eq_true_iff]

theorem dangles_iff : Dangles comments c ↔
    ∃ parent, c.repliesTo = some parent ∧ parent ∉ comments.map (·.id) := by
  simp only [Dangles, repliesTo_eq_some_iff, and_assoc]

/-! ### Places -/

theorem mem_roots_build (hc : c ∈ comments) :
    c ∈ (build comments).roots ↔ c.repliesTo = none := by
  rw [build, List.mem_filter, ← ordered, (ordered_perm comments).mem_iff, Comment.isRoot,
    Option.isNone_iff_eq_none]
  exact and_iff_right hc

theorem mem_childrenOf_iff (own : (comments.map (·.id)).Nodup) (hc : c ∈ comments) :
    c.id ∈ (build comments).childrenOf x ↔
      x ∈ comments.map (·.id) ∧ c.repliesTo = some x := by
  rw [← Leads, leads_build_iff]
  refine and_congr_right fun _ => ⟨?_, fun h => ⟨c, hc, rfl, h⟩⟩
  rintro ⟨d, hd, hid, hparent⟩
  exact List.inj_on_of_nodup_map own hd hc hid ▸ hparent

theorem nodup_childrenOf (own : (comments.map (·.id)).Nodup) (x : String) :
    ((build comments).childrenOf x).Nodup := by
  rw [childrenOf_build]
  split
  · have hids := ((ordered_perm comments).map (·.id)).nodup_iff.2 own
    exact hids.sublist (List.filter_sublist.map _)
  · exact List.nodup_nil

theorem placedOnce_build (own : (comments.map (·.id)).Nodup) (hc : c ∈ comments) :
    PlacedOnce comments (build comments) c := by
  simp only [PlacedOnce, mem_roots_build hc, dangles_iff]
  cases hparent : c.repliesTo with
  | none =>
    refine .inl ⟨rfl, fun x hx => ?_, by simp⟩
    exact nomatch hparent.symm.trans ((mem_childrenOf_iff own hc).1 hx).2
  | some parent =>
    by_cases known : parent ∈ comments.map (·.id)
    · refine .inr (.inl ⟨by simp, ⟨parent, ?_, fun y hne hy => ?_⟩, by simpa using known⟩)
      · exact List.count_eq_one_of_mem (nodup_childrenOf own parent)
          ((mem_childrenOf_iff own hc).2 ⟨known, hparent⟩)
      · have hy := ((mem_childrenOf_iff own hc).1 hy).2
        exact hne (Option.some.inj (hy.symm.trans hparent))
    · refine .inr (.inr ⟨by simp, fun x hx => ?_, parent, rfl, known⟩)
      obtain ⟨hknown, hx⟩ := (mem_childrenOf_iff own hc).1 hx
      exact known (Option.some.inj (hparent.symm.trans hx) ▸ hknown)

/-! ### Lists -/

theorem roots_build_perm (comments : List Comment) :
    (build comments).roots.Perm
      (comments.filter fun c => c.parent = none ∨ c.parent = some "") := by
  have hroot : Comment.isRoot = fun c => decide (c.parent = none ∨ c.parent = some "") := by
    funext c
    rw [Comment.isRoot, Bool.eq_iff_iff, Option.isNone_iff_eq_none, decide_eq_true_iff]
    exact repliesTo_eq_none_iff
  rw [← hroot]
  exact (ordered_perm comments).filter _

theorem replies_perm (comments : List Comment) (x : String) :
    ((ordered comments).filter (·.repliesTo = some x)).Perm
      (comments.filter fun c => c.parent = some x ∧ x ≠ "") := by
  simp only [repliesTo_eq_some_iff]
  exact (ordered_perm comments).filter _

/-- Threads arrange every set of comments that have ids of their own. -/
theorem build_arranges (own : (comments.map (·.id)).Nodup) :
    Arranges comments (build comments) where
  roots := ⟨roots_build_perm comments, (pairwise_ordered own).filter _⟩
  replies := by
    intro x
    rw [childrenOf_build]
    split
    · exact ⟨_, rfl, (pairwise_ordered own).filter _, replies_perm comments x⟩
    · exact ⟨[], rfl, .nil, .nil⟩
  places := fun c hc => placedOnce_build own hc
  views := by
    rw [views_build own]
    refine List.map_congr_left fun c hc => ?_
    have hc : c.id ∈ comments.map (·.id) :=
      List.mem_map_of_mem ((ordered_perm comments).mem_iff.1 (List.mem_of_mem_filter hc))
    rw [childrenOf_build, if_pos hc]
    rfl

/-- Two roots, a reply to one of them, one to a comment that comes later, a comment that replies to
itself, two that reply to each other, and one that replies to something unknown. The roots were made
in the opposite order of their ids, and so were the replies to one of them. -/
def tangle : List Comment :=
  [timed "b" (some "") 1, timed "c" (some "a") 6, timed "a" none 2, timed "d" (some "e") 3,
    timed "e" (some "a") 5, timed "f" (some "f") 4, timed "g" (some "h") 7,
    timed "h" (some "g") 7, timed "i" (some "z") 7]

theorem arranges_tangle :
    (tangle.map (·.id)).Nodup ∧
      (build tangle).roots = [timed "b" (some "") 1, timed "a" none 2] ∧
      (build tangle).childrenOf "a" = ["e", "c"] ∧
      (build tangle).childrenOf "f" = ["f"] ∧ (build tangle).childrenOf "z" = [] ∧
      PlacedOnce tangle (build tangle) (timed "i" (some "z") 7) := by
  have own : (tangle.map (·.id)).Nodup := by decide
  have h := build_arranges own
  refine ⟨own, ?_, ?_, ?_, ?_, h.places _ (by decide)⟩
  · refine eq_of_pairwise_before h.roots.2 (by decide) fun c => h.roots.1.mem_iff.trans ?_
    exact .rfl
  · obtain ⟨replies, heq, hbefore, hperm⟩ := h.replies "a"
    have hreplies : replies = [timed "e" (some "a") 5, timed "c" (some "a") 6] := by
      refine eq_of_pairwise_before hbefore (by decide) fun c => hperm.mem_iff.trans ?_
      exact (List.Perm.swap (timed "e" (some "a") 5) (timed "c" (some "a") 6) []).mem_iff
    exact heq.trans (congrArg (List.map (·.id)) hreplies)
  · obtain ⟨replies, heq, -, hperm⟩ := h.replies "f"
    exact heq.trans (List.perm_singleton.1 (hperm.map (·.id)))
  · obtain ⟨replies, heq, -, hperm⟩ := h.replies "z"
    exact heq.trans (hperm.map (·.id)).eq_nil

end Agora.Thread
