import Agora.Proofs.Store
import Agora.Proofs.Table
import Mathlib.Data.List.Induction

/-!
Things that are filed under their ids: users, communities, posts and comments. What is filed first
under an id stays there, whatever comes after; of a community only the members change and of a post
only its karma and its votes, and at first there are none. Filing something under an id that is
taken is refused. So what stands on a shelf after a run is told by the first filing under each id,
and the posts in a community and the comments on a post are just those on the shelf.
-/

namespace Agora

/-- A community as it is founded: nobody has joined it yet. -/
def Community.founded (c : Community) : Community := { c with members := .empty }

namespace Store

/-- A kind of thing that is filed under its id; `lasting` keeps of a thing what never changes. A
change that makes such a thing goes through just when the id is free, and no other change touches
what is lasting. -/
structure Shelf (α : Type) where
  entity : String
  table : Store → Table α
  made : Change → Option α
  id : α → String
  lasting : α → α
  table_empty : table .empty = .empty
  id_lasting : ∀ a, id (lasting a) = id a
  lasting_lasting : ∀ a, lasting (lasting a) = lasting a
  files : ∀ {s s' : Store} {c o a}, s.Allows c s' o → made c = some a →
    o = .done ∧ (table s).get? (id a) = none ∧ table s' = (table s).insert (id a) (lasting a)
  keeps : ∀ {s s' : Store} {c o}, s.Allows c s' o → made c = none →
    ∀ i, ((table s').get? i).map lasting = ((table s).get? i).map lasting
  refuses : ∀ {s : Store} {c f a}, s.Refuses c f → made c = some a →
    (table s).has (id a) ∧ f = .alreadyExists entity (id a)

/-! ### The four shelves -/

/-- A value that takes the place of one with the same lasting part changes nothing lasting. -/
theorem map_insert_of_same {t : Table α} {k : String} {v w : α} {f : α → β}
    (found : t.get? k = some v) (same : f w = f v) (i : String) :
    ((t.insert k w).get? i).map f = (t.get? i).map f := by
  rw [Table.get?_insert]
  split
  · rename_i hk
    rw [← hk, found, Option.map_some, Option.map_some, same]
  · rfl

/-- The users. -/
def Shelf.users : Shelf User where
  entity := "user"
  table := Store.users
  made | .addUser u => some u | _ => none
  id := User.id
  lasting u := u
  table_empty := rfl
  id_lasting _ := rfl
  lasting_lasting _ := rfl
  files := by
    intro s s' c o a allows makes
    cases allows <;> cases makes
    exact ⟨rfl, ‹_›, rfl⟩
  keeps := by
    intro s s' c o allows other i
    cases allows with
    | addUser free => exact nomatch other
    | _ => rfl
  refuses := by
    intro s c f a refuses makes
    cases refuses <;> cases makes
    exact ⟨‹_›, rfl⟩

/-- The communities, without their members. -/
def Shelf.communities : Shelf Community where
  entity := "subreddit"
  table := Store.communities
  made | .addCommunity c => some c | _ => none
  id := Community.id
  lasting := Community.founded
  table_empty := rfl
  id_lasting _ := rfl
  lasting_lasting _ := rfl
  files := by
    intro s s' c o a allows makes
    cases allows <;> cases makes
    exact ⟨rfl, ‹_›, rfl⟩
  keeps := by
    intro s s' c o allows other i
    cases allows with
    | addCommunity free => exact nomatch other
    | join found => exact map_insert_of_same found (by rfl) i
    | leave found => exact map_insert_of_same found (by rfl) i
    | _ => rfl
  refuses := by
    intro s c f a refuses makes
    cases refuses <;> cases makes
    exact ⟨‹_›, rfl⟩

/-- The posts, without their karma and their votes. -/
def Shelf.posts : Shelf Post where
  entity := "post"
  table := Store.posts
  made | .addPost p => some p | _ => none
  id := Post.id
  lasting := Post.fresh
  table_empty := rfl
  id_lasting _ := rfl
  lasting_lasting _ := rfl
  files := by
    intro s s' c o a allows makes
    cases allows <;> cases makes
    exact ⟨rfl, ‹_›, rfl⟩
  keeps := by
    intro s s' c o allows other i
    cases allows with
    | addPost free => exact nomatch other
    | votePost found => exact map_insert_of_same found (by rfl) i
    | _ => rfl
  refuses := by
    intro s c f a refuses makes
    cases refuses <;> cases makes
    exact ⟨‹_›, rfl⟩

/-- The comments. -/
def Shelf.comments : Shelf Comment where
  entity := "comment"
  table := Store.comments
  made | .addComment c => some c | _ => none
  id := Comment.id
  lasting c := c
  table_empty := rfl
  id_lasting _ := rfl
  lasting_lasting _ := rfl
  files := by
    intro s s' c o a allows makes
    cases allows <;> cases makes
    exact ⟨rfl, ‹_›, rfl⟩
  keeps := by
    intro s s' c o allows other i
    cases allows with
    | addComment free => exact nomatch other
    | _ => rfl
  refuses := by
    intro s c f a refuses makes
    cases refuses <;> cases makes
    exact ⟨‹_›, rfl⟩

namespace Shelf

variable {k : Shelf α} {s : Store} {cs : List Change} {c : Change} {a : α} {id : String}

/-- What a change makes under an id. -/
def madeUnder (k : Shelf α) (id : String) (c : Change) : Option α :=
  ((k.made c).filter (k.id · = id)).map k.lasting

/-- What some changes make first under an id. -/
def first (k : Shelf α) (id : String) (cs : List Change) : Option α :=
  cs.findSome? (k.madeUnder id)

/-- What is lasting of the thing that stands under an id. -/
def held (k : Shelf α) (s : Store) (id : String) : Option α := ((k.table s).get? id).map k.lasting

theorem madeUnder_of_none (makes : k.made c = none) : k.madeUnder id c = none := by
  rw [madeUnder, makes]; rfl

theorem madeUnder_self (makes : k.made c = some a) :
    k.madeUnder (k.id a) c = some (k.lasting a) := by
  simp [madeUnder, makes]

theorem madeUnder_of_ne (makes : k.made c = some a) (other : k.id a ≠ id) :
    k.madeUnder id c = none := by
  simp [madeUnder, makes, other]

theorem held_eq_none_iff : k.held s id = none ↔ (k.table s).get? id = none :=
  Option.map_eq_none_iff

/-! ### One change -/

theorem held_of_files {s' : Store} {o : Outcome} (allows : s.Allows c s' o)
    (makes : k.made c = some a) : k.held s' id = (k.held s id).or (k.madeUnder id c) := by
  obtain ⟨-, free, htable⟩ := k.files allows makes
  rw [held, htable, Table.get?_insert]
  split
  · rename_i hid
    subst hid
    rw [held_eq_none_iff.2 free, madeUnder_self makes, Option.map_some, k.lasting_lasting]
    rfl
  · rename_i hid
    rw [madeUnder_of_ne makes hid, Option.or_none]
    rfl

theorem held_of_refuses {f : Failure} (refuses : s.Refuses c f) (makes : k.made c = some a) :
    k.held s id = (k.held s id).or (k.madeUnder id c) := by
  obtain ⟨taken, -⟩ := k.refuses refuses makes
  by_cases hid : k.id a = id
  · subst hid
    obtain ⟨b, hb⟩ := Option.isSome_iff_exists.1 taken
    rw [held, hb]
    rfl
  · rw [madeUnder_of_ne makes hid, Option.or_none]

/-- A change adds what it makes if nothing stands there yet, and leaves all else as it was. -/
theorem held_after (k : Shelf α) (s : Store) (c : Change) (id : String) :
    k.held (s.after c) id = (k.held s id).or (k.madeUnder id c) := by
  cases makes : k.made c with
  | none =>
    rw [madeUnder_of_none makes, Option.or_none]
    rcases allows_or_refuses s c with ⟨t, o, h⟩ | ⟨f, h⟩
    · rw [after_of_allows h]
      exact k.keeps h makes id
    · rw [after_of_refuses h]
  | some a =>
    rcases allows_or_refuses s c with ⟨t, o, h⟩ | ⟨f, h⟩
    · rw [after_of_allows h]
      exact held_of_files h makes
    · rw [after_of_refuses h]
      exact held_of_refuses h makes

/-! ### Runs -/

/-- What stands under an id is what was made there first. -/
theorem held_run (k : Shelf α) (cs : List Change) (id : String) :
    k.held (empty.run cs) id = k.first id cs := by
  induction cs using List.reverseRecOn with
  | nil => rw [held, run, List.foldl_nil, k.table_empty]; rfl
  | append_singleton cs c ih =>
    have hrun : empty.run (cs ++ [c]) = (empty.run cs).after c := run_append ..
    rw [hrun, held_after, ih, first, first, List.findSome?_append, List.findSome?_singleton]

theorem id_of_first (h : k.first id cs = some a) : k.id a = id := by
  obtain ⟨c, -, hc⟩ := List.exists_of_findSome?_eq_some h
  obtain ⟨b, hb, rfl⟩ := Option.map_eq_some_iff.1 hc
  have hid := (Option.filter_eq_some_iff.1 hb).2
  rw [k.id_lasting]
  exact of_decide_eq_true hid

/-- Everything on a shelf knows the id it stands under. -/
theorem id_of_get? (h : (k.table (empty.run cs)).get? id = some a) : k.id a = id := by
  have hheld : k.held (empty.run cs) id = some (k.lasting a) := by rw [held, h]; rfl
  rw [held_run] at hheld
  rw [← k.id_lasting, id_of_first hheld]

/-- A run files a thing as new, with nothing but what is lasting, if it has made none under the id,
and refuses it otherwise. -/
def FilesOnce (k : Shelf α) (cs : List Change) : Prop :=
  ∀ c a, k.made c = some a →
    (k.first (k.id a) cs = none →
      (empty.run cs).apply c = .ok (empty.run (cs ++ [c]), .done) ∧
      (k.table (empty.run (cs ++ [c]))).get? (k.id a) = some (k.lasting a)) ∧
    (k.first (k.id a) cs ≠ none →
      (empty.run cs).apply c = .error (.alreadyExists k.entity (k.id a)) ∧
      empty.run (cs ++ [c]) = empty.run cs)

theorem filesOnce (k : Shelf α) (cs : List Change) : k.FilesOnce cs := by
  intro c a makes
  have hrun : empty.run (cs ++ [c]) = (empty.run cs).after c := run_append ..
  rw [← held_run, held_eq_none_iff, Ne, held_eq_none_iff, hrun]
  rcases allows_or_refuses (empty.run cs) c with ⟨t, o, h⟩ | ⟨f, h⟩
  · obtain ⟨rfl, free, htable⟩ := k.files h makes
    rw [after_of_allows h, apply_of_allows h, htable, Table.get?_insert, if_pos rfl]
    exact ⟨fun _ => ⟨rfl, rfl⟩, fun taken => absurd free taken⟩
  · obtain ⟨taken, rfl⟩ := k.refuses h makes
    rw [after_of_refuses h, apply_of_refuses h]
    exact ⟨fun free => absurd taken (by simp [Table.has, free]), fun _ => ⟨rfl, rfl⟩⟩

/-- Whatever stands on a shelf was filed by one of the changes, the first that made it. -/
theorem exists_filed (present : (k.table (empty.run cs)).get? id ≠ none) :
    ∃ before c later a, cs = before ++ c :: later ∧ k.made c = some a ∧ k.id a = id ∧
      k.first id before = none := by
  obtain ⟨b, hb⟩ := Option.ne_none_iff_exists'.1 (mt held_eq_none_iff.1 present)
  rw [held_run, first, List.findSome?_eq_some_iff] at hb
  obtain ⟨before, c, later, rfl, hc, hbefore⟩ := hb
  obtain ⟨a, ha, -⟩ := Option.map_eq_some_iff.1 hc
  obtain ⟨makes, hid⟩ := Option.filter_eq_some_iff.1 ha
  exact ⟨before, c, later, a, rfl, makes, of_decide_eq_true hid,
    List.findSome?_eq_none_iff.2 hbefore⟩

theorem mem_values_run :
    a ∈ (k.table (empty.run cs)).values ↔ (k.table (empty.run cs)).get? (k.id a) = some a := by
  rw [Table.mem_values]
  constructor
  · rintro ⟨id, h⟩
    rwa [id_of_get? h]
  · intro h
    exact ⟨_, h⟩

theorem nodup_values_run (k : Shelf α) (cs : List Change) (p : α → Bool) :
    (((k.table (empty.run cs)).values.filter p).map k.id).Nodup :=
  (Table.nodup_map_values fun _ _ h => id_of_get? h).sublist (List.filter_sublist.map k.id)

end Shelf

/-- What is said of a thing that was looked for under an id. -/
def found (entity id : String) : Option α → Except Failure α
  | some a => .ok a
  | none => .error (.notFound entity id)

theorem lookUp_eq_found (entity : String) (t : Table α) (id : String) :
    lookUp entity t id = found entity id (t.get? id) := by
  rw [lookUp]
  cases t.get? id <;> rfl

theorem map_found (f : α → β) (entity id : String) (a : Option α) :
    (found entity id a).map f = found entity id (a.map f) := by
  cases a <;> rfl

theorem lookUp_eq_ok_iff {entity : String} {t : Table α} {id : String} {a : α} :
    lookUp entity t id = .ok a ↔ t.get? id = some a := by
  rw [lookUp]
  cases t.get? id <;> simp

theorem lookUp_eq_error_iff {entity : String} {t : Table α} {id : String} :
    lookUp entity t id = .error (.notFound entity id) ↔ t.get? id = none := by
  rw [lookUp]
  cases t.get? id <;> simp

end Store

end Agora
