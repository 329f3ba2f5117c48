import Agora.Proofs.Engine

/-!
When the engine answers with an error. A request whose required ids are filled in is refused for
one of two reasons: what it creates has an id that is taken among things of its kind, or the
community it is about does not exist. Whatever the reason for an error, the store stays as it was.
-/

namespace Agora

/-- The requests that a store refuses although their ids are filled in, with the words. -/
inductive Request.Refused (s : Store) : Request → String → Prop
  | createUser {id username password : String} (taken : s.users.has id) :
    Refused s (.createUser id username password) ("user already exists: " ++ id)
  | createCommunity {id name description creator : String} (taken : s.communities.has id) :
    Refused s (.createCommunity id name description creator) ("subreddit already exists: " ++ id)
  | createPost {id community author title content : String} (taken : s.posts.has id) :
    Refused s (.createPost id community author title content) ("post already exists: " ++ id)
  | createComment {id post author content : String} {parent : Option String}
    (taken : s.comments.has id) :
    Refused s (.createComment id post parent author content) ("comment already exists: " ++ id)
  | join {community user : String} (absent : s.communities.get? community = none) :
    Refused s (.join community user) ("subreddit not found: " ++ community)
  | leave {community user : String} (absent : s.communities.get? community = none) :
    Refused s (.leave community user) ("subreddit not found: " ++ community)

theorem refused_of_refuses {s : Store} {r : Request} {now : Timestamp} {c : Change} {f : Failure}
    (task : r.task now = .change c) (refuses : s.Refuses c f) : r.Refused s f.message := by
  cases r <;> cases task <;> cases refuses
  · exact .createUser ‹_›
  · exact .createCommunity ‹_›
  · exact .join ‹_›
  · exact .leave ‹_›
  · exact .createPost ‹_›
  · exact .createComment ‹_›

theorem refuses_of_refused {s : Store} {r : Request} {m : String} (now : Timestamp)
    (h : r.Refused s m) :
    ∃ c f, r.task now = .change c ∧ s.Refuses c f ∧ f.message = m := by
  cases h with
  | createUser taken => exact ⟨_, _, rfl, .addUser taken, rfl⟩
  | createCommunity taken => exact ⟨_, _, rfl, .addCommunity taken, rfl⟩
  | createPost taken => exact ⟨_, _, rfl, .addPost taken, rfl⟩
  | createComment taken => exact ⟨_, _, rfl, .addComment taken, rfl⟩
  | join absent => exact ⟨_, _, rfl, .join absent, rfl⟩
  | leave absent => exact ⟨_, _, rfl, .leave absent, rfl⟩

theorem blank?_eq_none_iff {r : Request} :
    r.blank? = none ↔ ∀ f ∈ r.required, Text.isBlank f.2 = false := by
  simp [Request.blank?]

namespace Engine

variable {settings : FeedSettings} {t : Reading} {e : Engine} {r : Request}

theorem isError_of_answers {s : Store} {now : Timestamp} {task : Task} {a : Response}
    (h : s.Answers settings now task a) : a.isError = false := by
  cases h <;> rfl

theorem response_eq_error_iff (filled : r.blank? = none) (m : String) :
    (e.handle settings t r).2 = .error m ↔ r.Refused e.store m := by
  have h := handles settings t e r
  generalize (e.handle settings t r).1 = e', (e.handle settings t r).2 = a at h
  constructor
  · rintro rfl
    cases h with
    | blank other blank => exact nomatch filled.symm.trans blank
    | refused other filled task refuses => exact refused_of_refuses task refuses
    | asked other filled answers => exact absurd (isError_of_answers answers) Bool.noConfusion
  · intro hrefused
    obtain ⟨c, f, htask, hrefuses, rfl⟩ := refuses_of_refused t.now hrefused
    have happly := Store.apply_of_refuses hrefuses
    cases h with
    | greeted ping => obtain rfl := kind_eq_ping_iff.1 ping; exact nomatch htask
    | blank other blank => exact nomatch filled.symm.trans blank
    | refused other filled task refuses =>
      cases task.symm.trans htask
      cases (Store.apply_of_refuses refuses).symm.trans happly
      rfl
    | changed other filled task allows =>
      cases task.symm.trans htask
      exact nomatch (Store.apply_of_allows allows).symm.trans happly
    | asked other filled answers => rw [htask] at answers; exact nomatch answers

theorem store_of_isError (error : (e.handle settings t r).2.isError) :
    (e.handle settings t r).1.store = e.store := by
  have h := handles settings t e r
  generalize (e.handle settings t r).1 = e', (e.handle settings t r).2 = a at h error
  cases h with
  | changed other filled task allows => exact nomatch error
  | _ => rfl

/-- A request whose required ids are filled in is answered with an error just when the store
refuses it, and in the words for that; and after an error of any kind the store is what it was. -/
theorem error_iff_refused (settings : FeedSettings) (t : Reading) (e : Engine) (r : Request) :
    ((∀ f ∈ r.required, Text.isBlank f.2 = false) →
      ∀ m, (e.handle settings t r).2 = .error m ↔ r.Refused e.store m) ∧
    ((e.handle settings t r).2.isError → (e.handle settings t r).1.store = e.store) :=
  ⟨fun filled m => response_eq_error_iff (blank?_eq_none_iff.2 filled) m, store_of_isError⟩

/-- An engine that knows one user. -/
def acquainted : Engine :=
  ⟨{ Store.empty with users := Table.empty.insert "u" ⟨"u", "n", "p", .epoch⟩ }, .empty⟩

theorem error_of_second_registration :
    (∀ f ∈ (Request.createUser "u" "x" "y").required, Text.isBlank f.2 = false) ∧
      (acquainted.handle {} ⟨.epoch, 0⟩ (.createUser "u" "x" "y")).2 =
        .error "user already exists: u" ∧
      (acquainted.handle {} ⟨.epoch, 0⟩ (.createUser "u" "x" "y")).1.store = acquainted.store := by
  have filled : ∀ f ∈ (Request.createUser "u" "x" "y").required, Text.isBlank f.2 = false := by
    decide
  obtain ⟨hiff, hkeep⟩ := error_iff_refused {} ⟨.epoch, 0⟩ acquainted (.createUser "u" "x" "y")
  have herror := (hiff filled "user already exists: u").2 (.createUser (by decide))
  exact ⟨filled, herror, hkeep (by rw [herror]; rfl)⟩

end Engine

end Agora
