import Agora.Proofs.Engine
import Agora.Proofs.Table
import Mathlib.Data.List.Induction

/-!
What stands in the store after a run of requests, told from the requests alone. Posts and comments
are made by the requests that create them and are never unmade: what stands under an id is what
the one accepted request for that id asked for, and only the karma and the votes of a post have
moved since.
-/

namespace Agora

namespace Engine

/-- A run from nothing has a request, handled at some time, that was not answered with an error. -/
def Accepted (settings : FeedSettings) (rs : List (Reading × Request)) (t : Reading)
    (r : Request) : Prop :=
  ∃ before later, rs = before ++ (t, r) :: later ∧
    ((empty.run settings before).1.handle settings t r).2.isError = false

/-- A comment was asked for in a run, and accepted. -/
def CommentMade (settings : FeedSettings) (rs : List (Reading × Request)) (c : Comment) : Prop :=
  ∃ t parent, Accepted settings rs t (.createComment c.id c.post parent c.author c.content) ∧
    c.parent = filled parent ∧ c.created = t.now

/-- A post was asked for in a run, and accepted; its karma and its votes may be any. -/
def PostMade (settings : FeedSettings) (rs : List (Reading × Request)) (p : Post) : Prop :=
  ∃ t, Accepted settings rs t (.createPost p.id p.community p.author p.title p.content) ∧
    p.created = t.now

section

variable {settings : FeedSettings} {rs : List (Reading × Request)} {t u : Reading} {q r : Request}

theorem not_accepted_nil : ¬ Accepted settings [] t r := by
  rintro ⟨before, later, heq, -⟩
  simp at heq

theorem accepted_concat :
    Accepted settings (rs ++ [(u, q)]) t r ↔ Accepted settings rs t r ∨
      (t, r) = (u, q) ∧ ((empty.run settings rs).1.handle settings u q).2.isError = false := by
  constructor
  · rintro ⟨before, later, heq, hok⟩
    rcases List.eq_nil_or_concat later with rfl | ⟨later, x, rfl⟩
    · obtain ⟨rfl, hlast⟩ := List.append_inj' heq rfl
      obtain ⟨rfl, rfl⟩ : u = t ∧ q = r := by simpa using hlast
      exact .inr ⟨rfl, hok⟩
    · rw [List.concat_eq_append, ← List.cons_append, ← List.append_assoc] at heq
      exact .inl ⟨before, later, (List.append_inj' heq rfl).1, hok⟩
  · rintro (⟨before, later, rfl, hok⟩ | ⟨heq, hok⟩)
    · exact ⟨before, later ++ [(u, q)], by simp, hok⟩
    · cases heq
      exact ⟨rs, [], rfl, hok⟩

end

/-! ### Things that are filed once -/

/-- Some view of what a store has under an id is filled by certain changes and by nothing else, and
stays once it is filled. -/
structure FiledOnce (filed : Store → String → Option β) (made : Change → Option (String × β)) :
    Prop where
  absent : ∀ id, filed .empty id = none
  stays : ∀ {s s' : Store} {c o id b}, s.Allows c s' o → filed s id = some b → filed s' id = some b
  files : ∀ {s s' : Store} {c o id b}, s.Allows c s' o → made c = some (id, b) →
    filed s' id = some b
  made_of_new : ∀ {s s' : Store} {c o id b}, s.Allows c s' o → filed s id = none →
    filed s' id = some b → made c = some (id, b)

section

variable {filed : Store → String → Option β} {made : Change → Option (String × β)}
  {settings : FeedSettings} {t : Reading} {e : Engine} {r : Request} {id : String} {b : β}

theorem FiledOnce.handle_of_some (h : FiledOnce filed made) (present : filed e.store id = some b) :
    filed (e.handle settings t r).1.store id = some b := by
  have hr := handles settings t e r
  generalize (e.handle settings t r).1 = e', (e.handle settings t r).2 = a at hr
  cases hr with
  | changed other filled task allows => exact h.stays allows present
  | _ => exact present

theorem FiledOnce.handle_of_made (h : FiledOnce filed made) {c : Change}
    (fine : (e.handle settings t r).2.isError = false) (task : r.task t.now = .change c)
    (makes : made c = some (id, b)) : filed (e.handle settings t r).1.store id = some b := by
  have hr := handles settings t e r
  generalize (e.handle settings t r).1 = e', (e.handle settings t r).2 = a at hr fine
  cases hr with
  | greeted ping => obtain rfl := kind_eq_ping_iff.1 ping; exact nomatch task
  | blank other blank => exact nomatch fine
  | refused other filled task' refuses => exact nomatch fine
  | changed other filled task' allows =>
    cases task'.symm.trans task
    exact h.files allows makes
  | asked other filled answers => rw [task] at answers; exact nomatch answers

theorem FiledOnce.made_of_handle (h : FiledOnce filed made) (absent : filed e.store id = none)
    (present : filed (e.handle settings t r).1.store id = some b) :
    (e.handle settings t r).2.isError = false ∧
      ∃ c, r.task t.now = .change c ∧ made c = some (id, b) := by
  have hr := handles settings t e r
  generalize (e.handle settings t r).1 = e', (e.handle settings t r).2 = a at hr present
  cases hr with
  | @changed c s o other filled task allows =>
    exact ⟨rfl, c, task, h.made_of_new allows absent present⟩
  | greeted ping => exact nomatch absent.symm.trans present
  | blank other blank => exact nomatch absent.symm.trans present
  | refused other filled task refuses => exact nomatch absent.symm.trans present
  | asked other filled answers => exact nomatch absent.symm.trans present

/-- What is filed after a run is what its accepted requests have made. -/
theorem FiledOnce.run_eq_some_iff (h : FiledOnce filed made) (rs : List (Reading × Request)) :
    filed (empty.run settings rs).1.store id = some b ↔
      ∃ t r c, Accepted settings rs t r ∧ r.task t.now = .change c ∧ made c = some (id, b) := by
  -- the newest request either finds the place filled, and leaves it so, or fills it itself
  induction rs using List.reverseRecOn with
  | nil =>
    constructor
    · intro hnone
      exact nomatch (h.absent id).symm.trans hnone
    · rintro ⟨t, r, c, haccepted, -⟩
      exact absurd haccepted not_accepted_nil
  | append_singleton rs x ih =>
    obtain ⟨u, q⟩ := x
    rw [run_concat]
    constructor
    · intro hpresent
      cases hold : filed (empty.run settings rs).1.store id with
      | some b' =>
        obtain rfl := Option.some.inj ((h.handle_of_some hold).symm.trans hpresent)
        obtain ⟨t, r, c, haccepted, hc⟩ := ih.1 hold
        exact ⟨t, r, c, accepted_concat.2 (.inl haccepted), hc⟩
      | none =>
        obtain ⟨hfine, c, hc⟩ := h.made_of_handle hold hpresent
        exact ⟨u, q, c, accepted_concat.2 (.inr ⟨rfl, hfine⟩), hc⟩
    · rintro ⟨t, r, c, haccepted, htask, hmade⟩
      rcases accepted_concat.1 haccepted with hearlier | ⟨heq, hfine⟩
      · exact h.handle_of_some (ih.2 ⟨t, r, c, hearlier, htask, hmade⟩)
      · cases heq
        exact h.handle_of_made hfine htask hmade

end

/-! ### Comments -/

/-- The comment that a change files, with its id. -/
def commentOf : Change → Option (String × Comment)
  | .addComment c => some (c.id, c)
  | _ => none

theorem filedOnce_comment : FiledOnce (fun s id => s.comments.get? id) commentOf where
  absent := fun _ => rfl
  stays := by
    intro s s' c o id b allows present
    cases allows with
    | @addComment c free =>
      have hne : c.id ≠ id := fun heq => nomatch (heq ▸ free).symm.trans present
      rw [Table.get?_insert, if_neg hne, present]
    | _ => exact present
  files := by
    intro s s' c o id b allows makes
    cases allows with
    | addComment free =>
      cases makes
      rw [Table.get?_insert, if_pos rfl]
    | _ => exact nomatch makes
  made_of_new := by
    intro s s' c o id b allows absent present
    cases allows with
    | @addComment c free =>
      rw [Table.get?_insert] at present
      split at present
      · rename_i heq
        rw [commentOf, heq, Option.some.inj present]
      · exact nomatch absent.symm.trans present
    | _ => exact nomatch absent.symm.trans present

theorem comments_run_eq_some_iff {settings : FeedSettings} (rs : List (Reading × Request))
    {id : String} {c : Comment} :
    (empty.run settings rs).1.store.comments.get? id = some c ↔
      c.id = id ∧ CommentMade settings rs c := by
  rw [filedOnce_comment.run_eq_some_iff]
  constructor
  · rintro ⟨t, r, d, haccepted, htask, hmade⟩
    cases d with
    | addComment d =>
      cases hmade
      cases r <;> cases htask
      exact ⟨rfl, t, _, haccepted, rfl, rfl⟩
    | _ => exact nomatch hmade
  · rintro ⟨rfl, t, parent, haccepted, hparent, hcreated⟩
    refine ⟨t, _, .addComment c, haccepted, ?_, rfl⟩
    rw [Request.task, ← hparent, ← hcreated]

/-! ### Posts -/

/-- The post that a change files, with its id. -/
def postOf : Change → Option (String × Post)
  | .addPost p => some (p.id, p.fresh)
  | _ => none

/-- A post as it was when it was filed: votes leave nothing but karma and votes changed. -/
theorem filedOnce_post : FiledOnce (fun s id => (s.posts.get? id).map Post.fresh) postOf where
  absent := fun _ => rfl
  stays := by
    intro s s' c o id b allows present
    cases allows with
    | @addPost p free =>
      have hne : p.id ≠ id := fun heq => by simp [← heq, free] at present
      rw [Table.get?_insert, if_neg hne, present]
    | @votePost target user up p found =>
      rw [Store.votePost, Table.get?_insert]
      split
      · rename_i heq
        rw [← heq, found] at present
        exact present
      · exact present
    | _ => exact present
  files := by
    intro s s' c o id b allows makes
    cases allows with
    | addPost free =>
      cases makes
      rw [Table.get?_insert, if_pos rfl]; rfl
    | _ => exact nomatch makes
  made_of_new := by
    intro s s' c o id b allows absent present
    cases allows with
    | @addPost p free =>
      rw [Table.get?_insert] at present
      split at present
      · rename_i heq
        rw [postOf, heq, ← Option.some.inj present]; rfl
      · exact nomatch absent.symm.trans present
    | @votePost target user up p found =>
      rw [Store.votePost, Table.get?_insert] at present
      split at present
      · rename_i heq
        rw [← heq, found] at absent
        exact nomatch absent
      · exact nomatch absent.symm.trans present
    | _ => exact nomatch absent.symm.trans present

theorem posts_run_eq_some {settings : FeedSettings} {rs : List (Reading × Request)} {id : String}
    {p : Post} (present : (empty.run settings rs).1.store.posts.get? id = some p) :
    p.id = id ∧ PostMade settings rs p := by
  have hfresh := congrArg (Option.map Post.fresh) present
  obtain ⟨t, r, d, haccepted, htask, hmade⟩ := (filedOnce_post.run_eq_some_iff rs).1 hfresh
  cases d with
  | addPost d =>
    obtain ⟨hid, hsame⟩ := Prod.mk.inj (Option.some.inj hmade)
    cases r <;> cases htask
    cases p
    cases hsame
    exact ⟨hid, t, haccepted, rfl⟩
  | _ => exact nomatch hmade

theorem exists_post_of_accepted {settings : FeedSettings} {rs : List (Reading × Request)}
    {t : Reading} {id community author title content : String}
    (accepted : Accepted settings rs t (.createPost id community author title content)) :
    ∃ p, (empty.run settings rs).1.store.posts.get? id = some p ∧
      p.fresh = ⟨id, community, author, title, content, 0, t.now, .empty⟩ :=
  Option.map_eq_some_iff.1 ((filedOnce_post.run_eq_some_iff rs).2 ⟨t, _, _, accepted, rfl, rfl⟩)

end Engine

end Agora
