import Agora.Proofs.Thread
import Mathlib.Data.List.Perm.Subperm
import Mathlib.Logic.Relation

/-!
Walks through threads, from a comment to a reply to it, to a reply to that, and so on. A comment may
name any id as the one that it replies to, its own as well, so a walk may come back to where it
began: just when accepted comments reply to each other in a circle. No such circle is met on a walk
from a root, since a comment is listed under one comment at most and a root under none; so every
such walk ends. There are no circles at all if whatever replies was accepted after what it
replies to.
-/

namespace Agora

open Relation

namespace Thread

/-- One step of a walk: a comment is listed among the replies to another one. -/
def Leads (t : Thread) (parent child : String) : Prop := child ∈ t.childrenOf parent

variable {comments : List Comment} {x y z : String}

theorem leads_build_iff : (build comments).Leads y x ↔
    y ∈ comments.map (·.id) ∧ ∃ c ∈ comments, c.id = x ∧ c.repliesTo = some y := by
  rw [Leads, childrenOf_build]
  split
  · rename_i known
    simp only [List.mem_map, List.mem_filter, (ordered_perm comments).mem_iff, decide_eq_true_eq]
    constructor
    · rintro ⟨c, ⟨hc, hparent⟩, rfl⟩
      exact ⟨List.mem_map.1 known, c, hc, rfl, hparent⟩
    · rintro ⟨-, c, hc, rfl, hparent⟩
      exact ⟨c, ⟨hc, hparent⟩, rfl⟩
  · rename_i unknown
    simp [unknown]

theorem mem_ids_of_leads (h : (build comments).Leads y x) : x ∈ comments.map (·.id) := by
  obtain ⟨-, c, hc, rfl, -⟩ := leads_build_iff.1 h
  exact List.mem_map_of_mem hc

/-- A comment is listed under one comment at most. -/
theorem eq_of_leads (own : (comments.map (·.id)).Nodup) (hy : (build comments).Leads y x)
    (hz : (build comments).Leads z x) : y = z := by
  obtain ⟨-, c, hc, hcx, hparent⟩ := leads_build_iff.1 hy
  obtain ⟨-, d, hd, hdx, hparent'⟩ := leads_build_iff.1 hz
  obtain rfl := List.inj_on_of_nodup_map own hc hd (hcx.trans hdx.symm)
  exact Option.some.inj (hparent.symm.trans hparent')

/-- A root is one of the comments, and it is listed under none. -/
theorem not_leads_of_root (own : (comments.map (·.id)).Nodup) {root : Comment}
    (h : root ∈ (build comments).roots) :
    root.id ∈ comments.map (·.id) ∧ ∀ y, ¬ (build comments).Leads y root.id := by
  obtain ⟨hmem, htop⟩ := List.mem_filter.1 h
  have hroot : root ∈ comments := (ordered_perm comments).mem_iff.1 hmem
  refine ⟨List.mem_map_of_mem hroot, fun y hy => ?_⟩
  obtain ⟨-, c, hc, hid, hparent⟩ := leads_build_iff.1 hy
  obtain rfl := List.inj_on_of_nodup_map own hc hroot hid
  simp [Comment.isRoot, hparent] at htop

/-! ### Walks from a root -/

/-- Where each thing is led to from one thing at most, what is reached from a place that nothing
leads to never leads back to itself. -/
theorem not_transGen_of_reached {R : String → String → Prop}
    (single : ∀ {a b c}, R a c → R b c → a = b) {root : String} (top : ∀ a, ¬ R a root)
    (reached : ReflTransGen R root x) : ¬ TransGen R x x := by
  induction reached with
  | refl =>
    intro circle
    obtain ⟨a, -, ha⟩ := TransGen.tail'_iff.1 circle
    exact top a ha
  | @tail y x _ hyx ih =>
    -- a circle through a place comes in by the one way there is, so it is one through where the
    -- walk was before
    intro circle
    obtain ⟨a, hxa, hax⟩ := TransGen.tail'_iff.1 circle
    obtain rfl := single hax hyx
    exact ih (TransGen.head' hyx hxa)

/-- What comes earlier on a walk leads to what comes later. -/
theorem pairwise_of_isChain {R : String → String → Prop} {walk : List String}
    (chain : walk.IsChain R) : walk.Pairwise (TransGen R) :=
  (chain.imp fun _ _ h => TransGen.single h).pairwise

/-- A walk from a place from which no circle is reached meets nothing twice. -/
theorem nodup_of_isChain {R : String → String → Prop} {start : String} {walk : List String}
    (chain : (start :: walk).IsChain R)
    (never : ∀ x, ReflTransGen R start x → ¬ TransGen R x x) : (start :: walk).Nodup := by
  have hlater := pairwise_of_isChain chain
  have hreached : ∀ x ∈ start :: walk, ReflTransGen R start x := by
    rintro x (_ | ⟨_, hx⟩)
    · exact .refl
    · exact ((List.pairwise_cons.1 hlater).1 x hx).to_reflTransGen
  refine hlater.imp_of_mem fun {a b} ha _ hab => ?_
  rintro rfl
  exact never a (hreached a ha) hab

/-- A walk from a comment that meets none twice is shorter than there are comments. -/
theorem length_lt_of_isChain {root : String} (known : root ∈ comments.map (·.id)) {walk : List String}
    (chain : (root :: walk).IsChain (build comments).Leads) (once : (root :: walk).Nodup) :
    walk.length < comments.length := by
  have hlater := pairwise_of_isChain chain
  have hknown : root :: walk ⊆ comments.map (·.id) := by
    rintro x (_ | ⟨_, hx⟩)
    · exact known
    · obtain ⟨y, -, hyx⟩ := TransGen.tail'_iff.1 ((List.pairwise_cons.1 hlater).1 x hx)
      exact mem_ids_of_leads hyx
  have hlength := (once.subperm hknown).length_le
  rwa [List.length_map] at hlength

end Thread

/-! ### After a run -/

namespace Engine

variable {settings : FeedSettings} {rs : List (Reading × Request)} {post x y z : String}

/-- The threads on a post after a run from nothing. -/
def threadsAfter (settings : FeedSettings) (rs : List (Reading × Request)) (post : String) :
    Thread :=
  Thread.build ((empty.run settings rs).1.store.commentsOn post)

/-- An accepted comment on a post names the id that it replies to. -/
def Names (settings : FeedSettings) (rs : List (Reading × Request)) (post parent child : String) :
    Prop :=
  ∃ c, CommentMade settings rs c ∧ c.post = post ∧ c.id = child ∧ c.parent = some parent

/-- One comment was accepted before another one was. -/
def Sooner (settings : FeedSettings) (rs : List (Reading × Request)) (first second : String) :
    Prop :=
  ∃ before later, rs = before ++ later ∧ (∃ c, CommentMade settings before c ∧ c.id = first) ∧
    ¬ ∃ c, CommentMade settings before c ∧ c.id = second

theorem leads_iff_names : (threadsAfter settings rs post).Leads y x ↔
    (∃ c, CommentMade settings rs c ∧ c.post = post ∧ c.id = y) ∧
      Names settings rs post y x := by
  rw [threadsAfter, Thread.leads_build_iff]
  simp only [List.mem_map, mem_commentsOn, and_assoc]
  refine and_congr_right fun _ => exists_congr fun c => and_congr_right fun hmade => ?_
  rw [repliesTo_of_commentMade hmade]

theorem mem_roots {root : Comment} : root ∈ (threadsAfter settings rs post).roots ↔
    CommentMade settings rs root ∧ root.post = post ∧ root.parent = none := by
  rw [threadsAfter, Thread.build, List.mem_filter, ← Thread.ordered,
    (Thread.ordered_perm _).mem_iff, mem_commentsOn, and_assoc]
  refine and_congr_right fun hmade => and_congr_right fun _ => ?_
  rw [Comment.isRoot, repliesTo_of_commentMade hmade, Option.isNone_iff_eq_none]

/-- Walks lead in a circle just when accepted comments name each other in one. -/
theorem circle_iff :
    TransGen (threadsAfter settings rs post).Leads x x ↔
      TransGen (Names settings rs post) x x := by
  refine ⟨TransGen.mono (fun y z h => (leads_iff_names.1 h).2) x x, fun circle => ?_⟩
  -- each comment of a circle names one that names another, and so was accepted itself
  have walk : ∀ {y z}, (∃ c, CommentMade settings rs c ∧ c.post = post ∧ c.id = y) →
      TransGen (Names settings rs post) y z → TransGen (threadsAfter settings rs post).Leads y z := by
    intro y z hy h
    induction h with
    | single hyz => exact .single (leads_iff_names.2 ⟨hy, hyz⟩)
    | @tail a b hya hab ih =>
      obtain ⟨a', -, c, hmade, hpost, hid, -⟩ := TransGen.tail'_iff.1 hya
      exact ih.tail (leads_iff_names.2 ⟨⟨c, hmade, hpost, hid⟩, hab⟩)
  obtain ⟨a, -, c, hmade, hpost, hid, -⟩ := TransGen.tail'_iff.1 circle
  exact walk ⟨c, hmade, hpost, hid⟩ circle

theorem CommentMade.append {c : Comment} (h : CommentMade settings rs c)
    (later : List (Reading × Request)) : CommentMade settings (rs ++ later) c := by
  obtain ⟨t, parent, ⟨before, between, rfl, hok⟩, hparent, hcreated⟩ := h
  exact ⟨t, parent, ⟨before, between ++ later, by simp, hok⟩, hparent, hcreated⟩

theorem not_sooner_self : ¬ Sooner settings rs x x := by
  rintro ⟨before, later, -, hthere, hnot⟩
  exact hnot hthere

theorem Sooner.trans (hxy : Sooner settings rs x y) (hyz : Sooner settings rs y z) :
    Sooner settings rs x z := by
  obtain ⟨before, later, heq, ⟨c, hc, rfl⟩, hy⟩ := hxy
  obtain ⟨before', later', heq', ⟨d, hd, rfl⟩, hz⟩ := hyz
  -- the moment with the second comment is later than the one without it
  rcases List.append_eq_append_iff.1 (heq.symm.trans heq') with ⟨between, rfl, -⟩ | ⟨between, rfl, -⟩
  · exact ⟨_, later', heq', ⟨c, hc.append between, rfl⟩, hz⟩
  · exact absurd ⟨d, hd.append between, rfl⟩ hy

/-- Where whatever replies was accepted after what it replies to, nothing leads back to itself. -/
theorem not_circle_of_sooner
    (inOrder : ∀ y x, (threadsAfter settings rs post).Leads y x → Sooner settings rs y x) :
    ¬ TransGen (threadsAfter settings rs post).Leads x x := by
  have hsooner : ∀ {y z}, TransGen (threadsAfter settings rs post).Leads y z →
      Sooner settings rs y z := by
    intro y z h
    induction h with
    | single h => exact inOrder _ _ h
    | tail _ h ih => exact ih.trans (inOrder _ _ h)
  exact fun circle => not_sooner_self (hsooner circle)

/-- A comment that replies to itself, and two that reply to each other. -/
def circles : List (Reading × Request) :=
  [(⟨.epoch, 0⟩, .createComment "c" "p" (some "c") "u" "me"),
    (⟨.epoch, 0⟩, .createComment "a" "p" (some "b") "u" "you"),
    (⟨.epoch, 0⟩, .createComment "b" "p" (some "a") "v" "no, you")]

/-- Comments that reply to themselves or to each other are accepted, and are listed under
themselves or under each other. -/
theorem circles_are_accepted :
    (∀ a ∈ (empty.run {} circles).2, a = .success "Comment created successfully") ∧
      TransGen (threadsAfter {} circles "p").Leads "c" "c" ∧
      TransGen (threadsAfter {} circles "p").Leads "a" "a" := by
  have hself : CommentMade {} circles ⟨"c", "p", some "c", "u", "me", .epoch⟩ :=
    ⟨⟨.epoch, 0⟩, some "c", ⟨[], _, rfl, by decide⟩, rfl, rfl⟩
  have hfirst : CommentMade {} circles ⟨"a", "p", some "b", "u", "you", .epoch⟩ :=
    ⟨⟨.epoch, 0⟩, some "b", ⟨[_], _, rfl, by decide⟩, rfl, rfl⟩
  have hsecond : CommentMade {} circles ⟨"b", "p", some "a", "v", "no, you", .epoch⟩ :=
    ⟨⟨.epoch, 0⟩, some "a", ⟨[_, _], _, rfl, by decide⟩, rfl, rfl⟩
  exact ⟨by decide, circle_iff.2 (.single ⟨_, hself, rfl, rfl, rfl⟩),
    circle_iff.2 (.tail (.single ⟨_, hsecond, rfl, rfl, rfl⟩) ⟨_, hfirst, rfl, rfl, rfl⟩)⟩

/-- A walk that starts at a root of the threads on a post never comes back to a comment, meets none
twice and ends, being shorter than there are comments. A walk from elsewhere may come back, just
when accepted comments name each other in a circle as what they reply to; and none does so if
whatever replies was accepted after what it replies to. -/
theorem walks_from_roots_end (settings : FeedSettings) (rs : List (Reading × Request))
    (post : String) :
    (∀ root ∈ (threadsAfter settings rs post).roots, ∀ x,
      ReflTransGen (threadsAfter settings rs post).Leads root.id x →
        ¬ TransGen (threadsAfter settings rs post).Leads x x) ∧
    (∀ root ∈ (threadsAfter settings rs post).roots, ∀ walk : List String,
      (root.id :: walk).IsChain (threadsAfter settings rs post).Leads →
        (root.id :: walk).Nodup ∧
          walk.length < ((empty.run settings rs).1.store.commentsOn post).length) ∧
    (∀ x, TransGen (threadsAfter settings rs post).Leads x x ↔
      TransGen (Names settings rs post) x x) ∧
    ((∀ y x, (threadsAfter settings rs post).Leads y x → Sooner settings rs y x) →
      ∀ x, ¬ TransGen (threadsAfter settings rs post).Leads x x) := by
  have own : (((empty.run settings rs).1.store.commentsOn post).map (·.id)).Nodup :=
    nodup_commentsOn post
  have never : ∀ root ∈ (threadsAfter settings rs post).roots, ∀ x,
      ReflTransGen (threadsAfter settings rs post).Leads root.id x →
        ¬ TransGen (threadsAfter settings rs post).Leads x x := by
    intro root hroot x reached
    obtain ⟨-, htop⟩ := Thread.not_leads_of_root own hroot
    exact Thread.not_transGen_of_reached (Thread.eq_of_leads own) htop reached
  refine ⟨never, fun root hroot walk chain => ?_, fun x => circle_iff, fun inOrder x =>
    not_circle_of_sooner inOrder⟩
  obtain ⟨hknown, -⟩ := Thread.not_leads_of_root own hroot
  have hnodup := Thread.nodup_of_isChain chain (never root hroot)
  exact ⟨hnodup, Thread.length_lt_of_isChain hknown chain hnodup⟩

/-- The answer to a question. -/
def reply : Comment := ⟨"r", "p", some "q", "u", "because", .epoch⟩

/-- The question. -/
def question : Comment := ⟨"q", "p", none, "v", "why?", .epoch⟩

/-- The run in which the question is asked. -/
def asked : List (Reading × Request) :=
  [(⟨.epoch, 0⟩, .createComment "q" "p" none "v" "why?")]

/-- The run in which the question is asked and then answered. -/
def answered : List (Reading × Request) :=
  asked ++ [(⟨.epoch, 0⟩, .createComment "r" "p" (some "q") "u" "because")]

theorem walks_of_answered :
    question ∈ (threadsAfter {} answered "p").roots ∧
      ["q", "r"].IsChain (threadsAfter {} answered "p").Leads ∧
      1 < ((empty.run {} answered).1.store.commentsOn "p").length ∧
      (∀ y x, (threadsAfter {} answered "p").Leads y x → Sooner {} answered y x) ∧
      ¬ TransGen (threadsAfter {} answered "p").Leads "r" "r" := by
  have hasked : CommentMade {} asked question :=
    ⟨⟨.epoch, 0⟩, none, ⟨[], _, rfl, by decide⟩, rfl, rfl⟩
  have hquestion : CommentMade {} answered question := hasked.append _
  have hreply : CommentMade {} answered reply :=
    ⟨⟨.epoch, 0⟩, some "q", ⟨asked, _, rfl, by decide⟩, rfl, rfl⟩
  have hroot : question ∈ (threadsAfter {} answered "p").roots := mem_roots.2 ⟨hquestion, rfl, rfl⟩
  have hleads : (threadsAfter {} answered "p").Leads "q" "r" :=
    leads_iff_names.2 ⟨⟨_, hquestion, rfl, rfl⟩, _, hreply, rfl, rfl, rfl⟩
  have hlater : ¬ ∃ c, CommentMade {} asked c ∧ c.id = "r" := by
    rintro ⟨c, hmade, hid⟩
    exact nomatch (comments_run_eq_some_iff asked).2 ⟨hid, hmade⟩
  have inOrder : ∀ y x, (threadsAfter {} answered "p").Leads y x → Sooner {} answered y x := by
    intro y x h
    obtain ⟨-, c, ⟨t, parent, ⟨before, later, heq, -⟩, hparent, -⟩, -, rfl, hy⟩ :=
      leads_iff_names.1 h
    have hmem : (t, Request.createComment c.id c.post parent c.author c.content) ∈ answered := by
      rw [heq]; simp
    rw [hy] at hparent
    simp only [answered, asked, List.cons_append, List.nil_append, List.mem_cons, Prod.mk.injEq,
      Request.createComment.injEq, List.not_mem_nil, or_false] at hmem
    rcases hmem with ⟨-, -, -, rfl, -⟩ | ⟨-, hid, -, rfl, -⟩
    · exact nomatch hparent
    · obtain rfl : y = "q" := Option.some.inj hparent
      exact hid ▸ ⟨asked, _, rfl, ⟨_, hasked, rfl⟩, hlater⟩
  obtain ⟨-, hwalks, -, hnone⟩ := walks_from_roots_end {} answered "p"
  have hchain : [question.id, "r"].IsChain (threadsAfter {} answered "p").Leads :=
    .cons_cons hleads (.singleton _)
  exact ⟨hroot, hchain, (hwalks question hroot ["r"] hchain).2, inOrder, hnone inOrder "r"⟩

end Engine

end Agora
