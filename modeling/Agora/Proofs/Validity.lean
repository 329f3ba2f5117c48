import Agora.Proofs.Refusal
import Mathlib.Data.List.Basic

/-!
Which blank ids keep a change from the store. A request for a change names ids, its own and those of
what it is about. Those that only tell whom it comes from, the creator of a community, the author of
a post or of a comment and the sender of a message, may be blank; of the others none may. The engine
says that such a request is not valid just when one of the others is blank, names the first that is,
and leaves the store as it was.
-/

namespace Agora

/-- The ids that a request for a change names, with their names. -/
def Request.ids : Request → List (String × String)
  | .createUser id _ _ => [("id", id)]
  | .createCommunity id _ _ creator => [("id", id), ("creator_id", creator)]
  | .join community user => [("subreddit_id", community), ("user_id", user)]
  | .leave community user => [("subreddit_id", community), ("user_id", user)]
  | .createPost id community author _ _ =>
    [("id", id), ("subreddit_id", community), ("author_id", author)]
  | .createComment id post _ author _ => [("id", id), ("post_id", post), ("author_id", author)]
  | .vote target user _ => [("target_id", target), ("user_id", user)]
  | .sendMessage id sender recipient _ _ => [("id", id), ("from_id", sender), ("to_id", recipient)]
  | .ping | .getFeed .. | .getComments _ | .getMessages _ => []

/-- The names of the ids that tell whom a request comes from. -/
def origins : List String := ["creator_id", "author_id", "from_id"]

/-- The first id that is blank, of those that may not be. -/
def Request.blankId? (r : Request) : Option (String × String) :=
  r.ids.find? fun f => f.1 ∉ origins && Text.isBlank f.2

section

variable {s : Store} {r : Request} {c : Change} {now : Timestamp}

/-- Every id of a change is looked at but the one that tells whom it comes from. -/
theorem required_eq (task : r.task now = .change c) :
    r.required = r.ids.filter fun f => f.1 ∉ origins := by
  cases r with
  | ping => exact nomatch task
  | getFeed communities limit => exact nomatch task
  | getComments post => exact nomatch task
  | getMessages user => exact nomatch task
  | _ => simp [Request.required, Request.ids, origins]

theorem blank?_eq_blankId? (task : r.task now = .change c) : r.blank? = r.blankId? := by
  rw [Request.blank?, required_eq task, List.find?_filter, Request.blankId?]
  simp only [Bool.decide_and, Bool.decide_eq_true]

theorem kind_ne_ping_of_change (task : r.task now = .change c) : r.kind ≠ .ping := by
  intro ping
  obtain rfl := kind_eq_ping_iff.1 ping
  exact nomatch task

theorem blankId?_eq_none_iff :
    r.blankId? = none ↔ ∀ f ∈ r.ids, Text.isBlank f.2 → f.1 ∈ origins := by
  simp only [Request.blankId?, List.find?_eq_none, Bool.and_eq_true, decide_eq_true_eq, not_and]
  exact forall₂_congr fun f _ => not_imp_not

theorem append_ne_of_head {a b : String} {c d : Char} (ha : a.toList.head? = some c)
    (hb : b.toList.head? = some d) (other : c ≠ d) (x y : String) : a ++ x ≠ b ++ y := by
  intro heq
  have hhead := congrArg (fun s => s.toList.head?) heq
  simp only [String.toList_append, List.head?_append, ha, hb, Option.some_or] at hhead
  exact other (Option.some.inj hhead)

/-- What a store refuses is not said in the words for a request that is not valid. -/
theorem ne_invalid_of_refused {m : String} (h : r.Refused s m) (reason : String) :
    m ≠ (Failure.invalid reason).message := by
  cases h <;> exact append_ne_of_head rfl rfl (by decide) _ _

end

namespace Engine

section

variable {settings : FeedSettings} {t : Reading} {e : Engine} {r : Request} {c : Change}

theorem handle_of_blankId {f : String × String} (task : r.task t.now = .change c)
    (blank : r.blankId? = some f) :
    e.handle settings t r =
      (e.failed r.kind, .error (Failure.invalid (f.1 ++ " must not be empty")).message) := by
  rw [← blank?_eq_blankId? task] at blank
  exact handle_of_blank (kind_ne_ping_of_change task) blank

theorem response_ne_invalid (task : r.task t.now = .change c) (filled : r.blankId? = none)
    (reason : String) : (e.handle settings t r).2 ≠ .error (Failure.invalid reason).message := by
  rw [← blank?_eq_blankId? task] at filled
  rw [Ne, response_eq_error_iff filled]
  intro hrefused
  exact ne_invalid_of_refused hrefused reason rfl

theorem handle_of_allows {s : Store} {o : Outcome} (task : r.task t.now = .change c)
    (filled : r.blankId? = none) (allows : e.store.Allows c s o) :
    e.handle settings t r =
      (e.completed r.kind t.elapsed s [c.event o], .success c.praise) := by
  rw [← blank?_eq_blankId? task] at filled
  rw [handle_of_filled (kind_ne_ping_of_change task) filled, task, perform_change_of_allows allows]
  rfl

end

/-- A request for a change that names a blank id is said not to be valid, in words about the first
such id, and leaves the store as it was; but the ids that tell whom it comes from do not count. A
request in which no other id is blank is never said not to be valid, and goes through whenever the
store allows it. -/
theorem invalid_iff_blank_id (settings : FeedSettings) (t : Reading) (e : Engine) (r : Request)
    (c : Change) (task : r.task t.now = .change c) :
    ((∃ f ∈ r.ids, Text.isBlank f.2 ∧ f.1 ∉ origins) → ∃ f, r.blankId? = some f ∧
      (e.handle settings t r).2 =
        .error (Failure.invalid (f.1 ++ " must not be empty")).message ∧
      (e.handle settings t r).1.store = e.store) ∧
    ((∀ f ∈ r.ids, Text.isBlank f.2 → f.1 ∈ origins) →
      (∀ reason, (e.handle settings t r).2 ≠ .error (Failure.invalid reason).message) ∧
      ∀ s o, e.store.Allows c s o →
        (e.handle settings t r).2 = .success c.praise ∧ (e.handle settings t r).1.store = s) := by
  constructor
  · rintro ⟨g, hg, hblank, hcounts⟩
    cases hfirst : r.blankId? with
    | none => exact absurd (blankId?_eq_none_iff.1 hfirst g hg hblank) hcounts
    | some f =>
      rw [handle_of_blankId task hfirst]
      exact ⟨f, rfl, rfl, rfl⟩
  · intro hothers
    have filled := blankId?_eq_none_iff.2 hothers
    refine ⟨response_ne_invalid task filled, fun s o allows => ?_⟩
    rw [handle_of_allows task filled allows]
    exact ⟨rfl, rfl⟩

/-- Requests that do not tell whom they come from, each for a change of another kind. -/
def anonymous : List Request :=
  [.createCommunity "s" "n" "d" "", .createPost "p" "s" " " "t" "c",
    .createComment "c" "p" none "\u3000" "x", .sendMessage "m" "\t" "u" "x" none]

theorem anonymous_requests_go_through :
    anonymous.Forall fun r => (∃ f ∈ r.ids, Text.isBlank f.2) ∧
      (empty.handle {} ⟨.epoch, 0⟩ r).2.isError = false ∧
      (empty.handle {} ⟨.epoch, 0⟩ r).1.store ≠ empty.store := by
  decide

/-- A post whose community and author are blank is refused for the community; one whose author
alone is blank is filed. -/
theorem invalid_for_blank_community :
    (empty.handle {} ⟨.epoch, 0⟩ (.createPost "p" "\u00a0" "" "t" "c")).2 =
        .error "validation failure: subreddit_id must not be empty" ∧
      (empty.handle {} ⟨.epoch, 0⟩ (.createPost "p" "\u00a0" "" "t" "c")).1.store = .empty ∧
      (empty.handle {} ⟨.epoch, 0⟩ (.createPost "p" "s" "" "t" "c")).2 =
        .success "Post created successfully" := by
  obtain ⟨hblank, -⟩ := invalid_iff_blank_id {} ⟨.epoch, 0⟩ empty
    (.createPost "p" "\u00a0" "" "t" "c") _ rfl
  obtain ⟨f, hf, hanswer, hstore⟩ := hblank (by decide)
  obtain ⟨-, hfilled⟩ := invalid_iff_blank_id {} ⟨.epoch, 0⟩ empty
    (.createPost "p" "s" "" "t" "c") _ rfl
  obtain ⟨hpraise, -⟩ := (hfilled (by decide)).2 _ _ (.addPost rfl)
  obtain rfl : ("subreddit_id", "\u00a0") = f := Option.some.inj (by rw [← hf]; decide)
  exact ⟨hanswer, hstore, hpraise⟩

end Engine

end Agora
