import Agora.Proofs.Creation
import Agora.Thread
import Mathlib.Data.List.Nodup

/-!
What the comments on a post look like as threads. Among comments with ids of their own, the roots
are the comments that reply to nothing, and under each id stand the ids of the replies to it, if it
is one of the ids; both are in the order of creation, with ids to decide between comments of the
same time. After a run of requests these are the comments that were accepted, whichever of a comment
and the reply to it came first.
-/

namespace Agora

/-- One comment comes before another: it was made earlier, or at the same time under a lesser
id. -/
def Comment.Before (a b : Comment) : Prop :=
  a.created.Earlier b.created ∨ a.created = b.created ∧ a.id < b.id

instance (a b : Comment) : Decidable (a.Before b) := inferInstanceAs (Decidable (_ ∨ _ ∧ _))

namespace Thread

/-! ### Order -/

theorem before_iff {a b : Comment} :
    a.Before b ↔ a.created.key < b.created.key ∨ a.created.key = b.created.key ∧ a.id < b.id := by
  rw [Comment.Before, Timestamp.key_lt_iff, Timestamp.key_eq_iff]

theorem not_before_of_before {a b : Comment} (h : a.Before b) : ¬ b.Before a := by
  rw [before_iff] at h ⊢
  rintro (hba | ⟨hkey, hba⟩)
  · rcases h with hab | ⟨hkey, -⟩
    · exact Int.lt_asymm hab hba
    · exact Int.lt_irrefl _ (hkey ▸ hba)
  · rcases h with hab | ⟨-, hab⟩
    · exact Int.lt_irrefl _ (hkey ▸ hab)
    · exact String.lt_asymm hab hba

/-- Comments that stand in the order of their creation are known from which they are. -/
theorem eq_of_pairwise_before {xs ys : List Comment} (hxs : xs.Pairwise Comment.Before)
    (hys : ys.Pairwise Comment.Before) (same : ∀ c, c ∈ xs ↔ c ∈ ys) : xs = ys := by
  have once {zs : List Comment} (hzs : zs.Pairwise Comment.Before) : zs.Nodup := by
    refine List.Pairwise.imp (S := (· ≠ ·)) ?_ hzs
    rintro a b hab rfl
    exact not_before_of_before hab hab
  have hperm := (List.perm_ext_iff_of_nodup (once hxs) (once hys)).2 same
  refine hperm.eq_of_pairwise (fun a b _ _ hab hba => ?_) hxs hys
  exact absurd hba (not_before_of_before hab)

/-- Comments in the order of their creation. -/
def ordered (comments : List Comment) : List Comment := comments.mergeSort Comment.notAfter

theorem ordered_perm (comments : List Comment) : (ordered comments).Perm comments :=
  List.mergeSort_perm ..

theorem notAfter_iff {a b : Comment} :
    a.notAfter b = true ↔ a.created.key < b.created.key ∨
      a.created.key = b.created.key ∧ a.id ≤ b.id := by
  simp [Comment.notAfter]

theorem notAfter_trans {a b c : Comment} (hab : a.notAfter b = true) (hbc : b.notAfter c = true) :
    a.notAfter c = true := by
  rw [notAfter_iff] at *
  rcases hab with hab | ⟨hab, hid⟩ <;> rcases hbc with hbc | ⟨hbc, hid'⟩
  · exact .inl (Int.lt_trans hab hbc)
  · exact .inl (hbc ▸ hab)
  · exact .inl (hab ▸ hbc)
  · exact .inr ⟨hab.trans hbc, String.le_trans hid hid'⟩

theorem notAfter_total (a b : Comment) : (a.notAfter b || b.notAfter a) = true := by
  rw [Bool.or_eq_true, notAfter_iff, notAfter_iff]
  rcases Int.lt_trichotomy a.created.key b.created.key with h | h | h
  · exact .inl (.inl h)
  · exact (String.le_total a.id b.id).imp (.inr ⟨h, ·⟩) (.inr ⟨h.symm, ·⟩)
  · exact .inr (.inl h)

theorem before_of_notAfter {a b : Comment} (h : a.notAfter b = true) (ne : a.id ≠ b.id) :
    a.Before b := by
  refine before_iff.2 ((notAfter_iff.1 h).imp_right fun ⟨hkey, hid⟩ => ⟨hkey, ?_⟩)
  exact String.not_le.1 fun hle => ne (String.le_antisymm hid hle)

theorem pairwise_ordered {comments : List Comment} (own : (comments.map (·.id)).Nodup) :
    (ordered comments).Pairwise Comment.Before := by
  have hids : (ordered comments).Pairwise fun a b => a.id ≠ b.id :=
    List.pairwise_map.1 (((ordered_perm comments).map _).nodup_iff.2 own)
  have hsorted : (ordered comments).Pairwise fun a b => a.notAfter b = true := by
    rw [ordered]
    refine List.pairwise_mergeSort ?_ ?_ comments
    · intro a b c hab hbc
      exact notAfter_trans hab hbc
    · intro a b
      exact notAfter_total a b
  exact (hsorted.and hids).imp fun both => before_of_notAfter both.1 both.2

/-! ### Replies -/

theorem has_ofIds (ids : List String) (id : String) :
    (IdSet.ofIds ids).has id = true ↔ id ∈ ids := by
  induction ids using List.reverseRecOn with
  | nil => simp [IdSet.ofIds, Table.ofList, Table.has]
  | append_singleton ids i ih =>
    have hstep : IdSet.ofIds (ids ++ [i]) = (IdSet.ofIds ids).insert i () := by
      simp [IdSet.ofIds, Table.ofList]
    rw [hstep, Table.has_insert, ih, List.mem_append, List.mem_singleton, or_comm]

theorem get?_note (replies : Table (List String)) (parent id x : String) :
    ((note replies parent id).get? x).getD [] =
      (replies.get? x).getD [] ++ if parent = x then [id] else [] := by
  rw [note, Table.get?_insert]
  split
  · rename_i h; rw [h]; rfl
  · rw [List.append_nil]

/-- Under a known id stand the replies to it, in the order in which the comments come. -/
theorem get?_repliesAmong (known : IdSet) (comments : List Comment) (x : String) :
    ((repliesAmong known comments).get? x).getD [] =
      if known.has x then (comments.filter (·.repliesTo = some x)).map (·.id) else [] := by
  induction comments using List.reverseRecOn with
  | nil => simp [repliesAmong]
  | append_singleton comments c ih =>
    rw [repliesAmong, List.foldl_append, ← repliesAmong, List.filter_append, List.map_append]
    cases hparent : c.repliesTo with
    | none => simp [hparent, ih]
    | some parent =>
      by_cases hknown : known.has parent
      · by_cases hx : parent = x
        · subst hx; simp [hknown, get?_note, ih, hparent]
        · simp [hknown, get?_note, ih, hparent, hx]
      · by_cases hx : parent = x
        · subst hx; simp [hknown, ih, hparent]
        · simp [hknown, ih, hparent, hx]

/-- The ids of the replies to one of some comments are those of the comments that name its id. -/
theorem childrenOf_build (comments : List Comment) (x : String) :
    (build comments).childrenOf x =
      if x ∈ comments.map (·.id) then
        ((ordered comments).filter (·.repliesTo = some x)).map (·.id) else [] := by
  have hknown : (IdSet.ofIds ((ordered comments).map (·.id))).has x = true ↔
      x ∈ comments.map (·.id) := by
    rw [has_ofIds, ((ordered_perm comments).map _).mem_iff]
  have hreplies := get?_repliesAmong (IdSet.ofIds ((ordered comments).map (·.id)))
    (ordered comments) x
  simp only [hknown] at hreplies
  exact hreplies

/-! ### Views -/

theorem viewsFrom_eq_map {roots : List Comment} (own : (roots.map (·.id)).Nodup)
    (replies : Table (List String)) :
    viewsFrom roots replies = roots.map fun c => c.view ((replies.get? c.id).getD []) := by
  -- a root takes its replies out of the table, which no other root looks for
  induction roots generalizing replies with
  | nil => rfl
  | cons root roots ih =>
    obtain ⟨hroot, hroots⟩ := List.nodup_cons.1 own
    rw [viewsFrom, ih hroots, List.map_cons]
    refine congrArg (_ :: ·) (List.map_congr_left fun c hc => ?_)
    have hne : root.id ≠ c.id := fun heq => hroot (List.mem_map.2 ⟨c, hc, heq.symm⟩)
    rw [Table.get?_erase, if_neg hne]

/-- What is shown of some comments: the roots, each with the ids of the replies to it. -/
theorem views_build {comments : List Comment} (own : (comments.map (·.id)).Nodup) :
    (build comments).views = ((ordered comments).filter Comment.isRoot).map fun c =>
      c.view (((ordered comments).filter (·.repliesTo = some c.id)).map (·.id)) := by
  have hperm := ordered_perm comments
  have hroots : (((ordered comments).filter Comment.isRoot).map (·.id)).Nodup :=
    ((hperm.map _).nodup_iff.2 own).sublist (List.filter_sublist.map _)
  have hviews := viewsFrom_eq_map hroots (build comments).replies
  refine hviews.trans (List.map_congr_left fun c hc => ?_)
  have hc : c.id ∈ comments.map (·.id) :=
    List.mem_map_of_mem (hperm.mem_iff.1 (List.mem_of_mem_filter hc))
  have hchildren := childrenOf_build comments c.id
  rw [if_pos hc] at hchildren
  exact congrArg c.view hchildren

end Thread

/-! ### After a run -/

namespace Engine

variable {settings : FeedSettings} {rs : List (Reading × Request)} {c d : Comment}

/-- What is kept of the comment that a comment replies to never is an empty id. -/
theorem repliesTo_of_commentMade (h : CommentMade settings rs c) : c.repliesTo = c.parent := by
  obtain ⟨t, parent, -, hparent, -⟩ := h
  rw [Comment.repliesTo, hparent, filled, Option.filter_filter]
  simp

theorem mem_commentsOn {post : String} :
    c ∈ (empty.run settings rs).1.store.commentsOn post ↔
      CommentMade settings rs c ∧ c.post = post := by
  rw [Store.commentsOn, List.mem_filter, Table.mem_values]
  simp only [comments_run_eq_some_iff, decide_eq_true_eq]
  constructor
  · rintro ⟨⟨id, rfl, hmade⟩, hpost⟩
    exact ⟨hmade, hpost⟩
  · rintro ⟨hmade, hpost⟩
    exact ⟨⟨_, rfl, hmade⟩, hpost⟩

theorem nodup_commentsOn (post : String) :
    (((empty.run settings rs).1.store.commentsOn post).map (·.id)).Nodup := by
  have hvalues : ((empty.run settings rs).1.store.comments.values.map (·.id)).Nodup :=
    Table.nodup_map_values fun id c hc => ((comments_run_eq_some_iff rs).1 hc).1
  exact hvalues.sublist (List.filter_sublist.map _)

/-- No two comments of a run have one id. -/
theorem eq_of_commentMade (hc : CommentMade settings rs c) (hd : CommentMade settings rs d)
    (same : c.id = d.id) : c = d := by
  have hc' := (comments_run_eq_some_iff rs).2 ⟨rfl, hc⟩
  have hd' := (comments_run_eq_some_iff rs).2 ⟨rfl, hd⟩
  rw [same, hd'] at hc'
  exact (Option.some.inj hc').symm

/-- A comment on the post with the id `p`, made some seconds after the beginning of 1970. -/
def timed (id : String) (parent : Option String) (second : Nat) : Comment :=
  ⟨id, "p", parent, "u", id, (Timestamp.ofParts? 0 second 0).getD .epoch⟩

/-- The request for a comment, handled at the time at which the comment is made. -/
def submitted (c : Comment) : Reading × Request :=
  (⟨c.created, 0⟩, .createComment c.id c.post c.parent c.author c.content)

/-- Two answers, then the question, and then another question. In the order of the ids the answers
and the questions stand the other way round. -/
def hasty : List (Reading × Request) :=
  [submitted (timed "s" (some "q") 1), submitted (timed "r" (some "q") 2),
    submitted (timed "q" (some "") 3), submitted (timed "a" none 4)]

theorem commentMade_hasty_iff : CommentMade {} hasty c ↔
    c ∈ [timed "a" none 4, timed "q" none 3, timed "r" (some "q") 2, timed "s" (some "q") 1] := by
  have hvalues : (empty.run {} hasty).1.store.comments.values =
      [timed "a" none 4, timed "q" none 3, timed "r" (some "q") 2, timed "s" (some "q") 1] := by
    decide
  rw [← hvalues, Table.mem_values]
  simp only [comments_run_eq_some_iff, exists_eq_left']

end Engine

end Agora
