import Agora.Proofs.History
import Agora.Shared
import Mathlib.Data.List.Induction
import Mathlib.Data.List.Perm.Basic
import Mathlib.Data.List.Permutation
import Mathlib.Data.List.TakeWhile

/-!
Calls of a shared store take effect one at a time, although some of them need two accesses and
others may get in between. Whatever is called and in whatever order the accesses happen, the calls
that have ended can be put in an order in which, made one after the other, they get the replies
that they got and leave the store that is there; and no call comes before one that was over when
it began.

A call takes effect with its last access, with one exception: a call that has found no post under
its target while somebody files one before its second access takes effect just before the post is
filed. That is early enough since nobody looks at what is kept beside a post, and late enough
since the post was not there when the call began.
-/

namespace Agora

/-- Whether a call files a post under an id, if none stands there. -/
def Call.files (id : String) : Call → Bool
  | .change (.addPost p) => p.id = id
  | _ => false

theorem Rest.files_call (r : Rest) (id : String) : r.call.files id = false := by
  cases r <;> rfl

namespace Store

variable {s t u : Store} {c : Call} {r : Rest}

/-! ### Calls in order -/

/-- The calls, made one after the other, get the replies that they got and lead from one store to
the other. -/
def Serves (s : Store) (order : List Completed) (t : Store) : Prop :=
  s.callAll (order.map (·.call)) = (t, order.map (·.reply))

theorem serves_nil : s.Serves [] t ↔ s = t := by simp [Serves, callAll]

theorem serves_cons {x : Completed} {order : List Completed} :
    s.Serves (x :: order) t ↔
      (s.call x.call).2 = x.reply ∧ (s.call x.call).1.Serves order t := by
  simp only [Serves, List.map_cons, callAll, Prod.ext_iff, List.cons.injEq]
  exact and_left_comm

theorem serves_append {xs ys : List Completed} :
    s.Serves (xs ++ ys) u ↔ ∃ t, s.Serves xs t ∧ t.Serves ys u := by
  induction xs generalizing s with
  | nil => simp [serves_nil]
  | cons x xs ih => simp only [List.cons_append, serves_cons, ih, and_assoc, exists_and_left]

theorem serves_concat {xs : List Completed} {x : Completed} (h : s.Serves xs t)
    (last : t.call x.call = (u, x.reply)) : s.Serves (xs ++ [x]) u :=
  serves_append.2 ⟨t, h, serves_cons.2 ⟨by rw [last], serves_nil.2 (by rw [last])⟩⟩

/-! ### The posts -/

/-- A post stands under an id if one stood there before or the call files one. -/
theorem has_posts_call (s : Store) (c : Call) (id : String) :
    (s.call c).1.posts.has id = (s.posts.has id || c.files id) := by
  cases c with
  | change c =>
    rw [call, Table.has, Table.has, posts_after]
    cases s.posts.get? id with
    | none =>
      cases c with
      | addPost p => by_cases h : p.id = id <;> simp [Change.onPost, Call.files, h]
      | _ => rfl
    | some p => rw [onPost_some]; rfl
  | _ => exact (Bool.or_false _).symm

theorem Serves.has_posts {order : List Completed} (h : s.Serves order t) (id : String) :
    t.posts.has id = (s.posts.has id || order.any (·.call.files id)) := by
  induction order generalizing s with
  | nil => rw [serves_nil.1 h, List.any_nil, Bool.or_false]
  | cons x order ih => rw [ih (serves_cons.1 h).2, has_posts_call, List.any_cons, Bool.or_assoc]

/-! ### The votes kept beside

Once a post stands under a target, or while one is being filed there, nobody looks at the votes
that are kept beside for the target, and nobody changes them. -/

/-- A store with other votes on a target kept beside. -/
def withSide (s : Store) (target : String) (votes : Table Bool) : Store :=
  { s with sideVotes := s.sideVotes.insert target votes }

/-- The votes on a target that are kept beside once a user has voted. -/
def votedBeside (s : Store) (target user : String) (up : Bool) : Table Bool :=
  ((s.sideVotes.get? target).getD .empty).insert user up

theorem Allows.withSide {c : Change} {o : Outcome} (h : s.Allows c t o) (target : String)
    (votes : Table Bool) (closed : (s.posts.has target || (Call.change c).files target) = true) :
    (s.withSide target votes).Allows c (t.withSide target votes) o ∧
      t.sideVotes.get? target = s.sideVotes.get? target := by
  cases h with
  | addUser free => exact ⟨.addUser free, rfl⟩
  | addCommunity free => exact ⟨.addCommunity free, rfl⟩
  | join found => exact ⟨.join found, rfl⟩
  | leave found => exact ⟨.leave found, rfl⟩
  | addPost free => exact ⟨.addPost free, rfl⟩
  | addComment free => exact ⟨.addComment free, rfl⟩
  | votePost found => exact ⟨.votePost found, rfl⟩
  | @voteBeside other user up absent =>
    have hne : other ≠ target := by
      rintro rfl
      simp [Table.has, absent, Call.files] at closed
    have hvotes : (s.withSide target votes).voteBeside other user up =
        (s.voteBeside other user up).withSide target votes := by
      simp only [Store.voteBeside, Store.withSide, Table.get?_insert, if_neg hne.symm,
        Table.insert_comm hne]
    refine ⟨hvotes ▸ .voteBeside absent, ?_⟩
    rw [Store.voteBeside, Table.get?_insert, if_neg hne]
  | send => exact ⟨.send, rfl⟩

theorem Refuses.withSide {c : Change} {f : Failure} (h : s.Refuses c f) (target : String)
    (votes : Table Bool) : (s.withSide target votes).Refuses c f := by
  cases h with
  | addUser taken => exact .addUser taken
  | addCommunity taken => exact .addCommunity taken
  | join absent => exact .join absent
  | leave absent => exact .leave absent
  | addPost taken => exact .addPost taken
  | addComment taken => exact .addComment taken

theorem voteOf_withSide {target : String} (stands : s.posts.has target = true)
    (votes : Table Bool) (other user : String) :
    (s.withSide target votes).voteOf other user = s.voteOf other user := by
  unfold voteOf
  rw [withSide, Table.get?_insert]
  cases h : s.posts.get? other with
  | some p => rfl
  | none =>
    have hne : target ≠ other := by
      rintro rfl
      simp [Table.has, h] at stands
    rw [if_neg hne]

/-- A call does the same whatever is kept beside a post, and leaves it alone. -/
theorem call_withSide {target : String} (closed : (s.posts.has target || c.files target) = true)
    (votes : Table Bool) :
    (s.withSide target votes).call c = ((s.call c).1.withSide target votes, (s.call c).2) ∧
      (s.call c).1.sideVotes.get? target = s.sideVotes.get? target := by
  cases c with
  | change c =>
    rcases allows_or_refuses s c with ⟨t, o, h⟩ | ⟨f, h⟩
    · obtain ⟨hside, hvotes⟩ := h.withSide target votes closed
      simp only [call, after_of_allows h, apply_of_allows h, after_of_allows hside,
        apply_of_allows hside, hvotes, and_true]
      rfl
    · have hside := h.withSide target votes
      simp only [call, after_of_refuses h, apply_of_refuses h, after_of_refuses hside,
        apply_of_refuses hside, and_self]
  | voteOf other user =>
    have stands : s.posts.has target = true := by simpa [Call.files] using closed
    exact ⟨congrArg _ (congrArg _ (voteOf_withSide stands votes other user)), rfl⟩
  | _ => exact ⟨rfl, rfl⟩

/-! ### Second accesses -/

/-- A call that nobody gets in between is its two accesses. -/
theorem call_of_late (absent : s.posts.has r.target = false) :
    s.call r.call = s.secondAccess r := by
  cases r with
  | vote target user up =>
    have hallow : s.Allows (.vote target user up) _ _ := .voteBeside (Table.has_eq_false.1 absent)
    simp only [Rest.call, call, after_of_allows hallow, apply_of_allows hallow, secondAccess]
    rfl
  | voteOf target user =>
    have hnone : s.posts.get? target = none := Table.has_eq_false.1 absent
    simp only [Rest.call, call, voteOf, hnone, secondAccess]

/-- A first access is the whole call, or it changes nothing and has found no post. -/
theorem firstAccess_cases (s : Store) (c : Call) :
    s.firstAccess c = ((s.call c).1, .inl (s.call c).2) ∨
      ∃ r : Rest, r.call = c ∧ s.posts.has r.target = false ∧ s.firstAccess c = (s, .inr r) := by
  cases c with
  | change c =>
    cases c with
    | vote target user up =>
      cases h : s.posts.get? target with
      | none =>
        exact .inr ⟨.vote target user up, rfl, Table.has_eq_false.2 h, by simp [firstAccess, h]⟩
      | some p =>
        have hallow : s.Allows (.vote target user up) _ _ := .votePost h
        refine .inl ?_
        simp only [firstAccess, h, call, after_of_allows hallow, apply_of_allows hallow]
        rfl
    | _ => exact .inl rfl
  | voteOf target user =>
    cases h : s.posts.get? target with
    | none =>
      exact .inr ⟨.voteOf target user, rfl, Table.has_eq_false.2 h, by simp [firstAccess, h]⟩
    | some p => exact .inl (by simp only [firstAccess, h, call, voteOf])
  | _ => exact .inl rfl

/-- Once a post stands under the target, or while one is being filed there, a second access may as
well come first. -/
theorem call_secondAccess (closed : (s.posts.has r.target || c.files r.target) = true) :
    (s.secondAccess r).1.call c = (((s.call c).1.secondAccess r).1, (s.call c).2) ∧
      ((s.call c).1.secondAccess r).2 = (s.secondAccess r).2 := by
  cases r with
  | vote target user up =>
    obtain ⟨hcall, hvotes⟩ :
        (s.withSide target (s.votedBeside target user up)).call c =
          ((s.call c).1.withSide target (s.votedBeside target user up), (s.call c).2) ∧
        (s.call c).1.sideVotes.get? target = s.sideVotes.get? target := call_withSide closed _
    have hbeside : (s.call c).1.votedBeside target user up = s.votedBeside target user up := by
      rw [votedBeside, hvotes, votedBeside]
    exact ⟨hcall.trans (by rw [← hbeside]; rfl), rfl⟩
  | voteOf target user =>
    have hvotes : (s.call c).1.sideVotes.get? target = s.sideVotes.get? target :=
      (call_withSide closed .empty).2
    exact ⟨rfl, by simp only [secondAccess, hvotes]⟩

/-- So it may come before all calls that follow, if that holds when the first of them is made. -/
theorem Serves.secondAccess {order : List Completed} (h : s.Serves order u)
    (closed : ∀ x ∈ order.head?, (s.posts.has r.target || x.call.files r.target) = true) :
    (s.secondAccess r).1.Serves order (u.secondAccess r).1 ∧
      (u.secondAccess r).2 = (s.secondAccess r).2 := by
  induction order generalizing s with
  | nil =>
    obtain rfl := serves_nil.1 h
    exact ⟨serves_nil.2 rfl, rfl⟩
  | cons x order ih =>
    obtain ⟨hreply, hrest⟩ := serves_cons.1 h
    obtain ⟨hcall, hsame⟩ := call_secondAccess (closed x rfl)
    have hstands : (s.call x.call).1.posts.has r.target = true := by
      rw [has_posts_call, closed x rfl]
    obtain ⟨hserves, hlast⟩ := ih hrest fun y _ => by rw [hstands, Bool.true_or]
    exact ⟨serves_cons.2 (hcall ▸ ⟨hreply, hserves⟩), hlast.trans hsame⟩

/-- A second access comes to the same as the whole call before the first that files a post under
the target. -/
theorem Serves.late {before later : List Completed} (h : s.Serves (before ++ later) u)
    (absent : s.posts.has r.target = false)
    (unfiled : before.any (·.call.files r.target) = false)
    (files : ∀ x ∈ later.head?, x.call.files r.target = true) {x : Completed}
    (call : x.call = r.call) (reply : x.reply = (u.secondAccess r).2) :
    s.Serves (before ++ x :: later) (u.secondAccess r).1 := by
  obtain ⟨t, hbefore, hlater⟩ := serves_append.1 h
  have hcall : t.call x.call = t.secondAccess r := by
    rw [call]
    exact call_of_late (by rw [hbefore.has_posts, absent, unfiled]; rfl)
  obtain ⟨hserves, hsame⟩ := hlater.secondAccess fun y hy => by rw [files y hy, Bool.or_true]
  refine serves_append.2 ⟨t, hbefore, serves_cons.2 ?_⟩
  rw [hcall, reply]
  exact ⟨hsame.symm, hserves⟩

end Store

/-! ### Where a late call goes -/

/-- The calls before the first that files a post under an id. -/
def beforeFiling (id : String) (order : List Completed) : List Completed :=
  order.takeWhile fun x => !x.call.files id

/-- The calls from the first on that files a post under an id. -/
def fromFiling (id : String) (order : List Completed) : List Completed :=
  order.dropWhile fun x => !x.call.files id

theorem beforeFiling_append_fromFiling (id : String) (order : List Completed) :
    beforeFiling id order ++ fromFiling id order = order := List.takeWhile_append_dropWhile

theorem any_beforeFiling (id : String) (order : List Completed) :
    (beforeFiling id order).any (·.call.files id) = false := by
  rw [List.any_eq_false]
  intro x hx
  simpa using List.mem_takeWhile_imp hx

theorem files_head_fromFiling {id : String} {order : List Completed} :
    ∀ x ∈ (fromFiling id order).head?, x.call.files id = true := by
  intro x hx
  have hhead := List.head?_dropWhile_not (fun x : Completed => !x.call.files id) order
  rw [← fromFiling, hx] at hhead
  simpa using hhead

theorem fromFiling_eq_nil {id : String} {order : List Completed}
    (unfiled : order.any (·.call.files id) = false) : fromFiling id order = [] := by
  rw [fromFiling, List.dropWhile_eq_nil_iff]
  intro x hx
  simpa using List.any_eq_false.1 unfiled x hx

/-- A call that comes in at the end, or that files no post, moves nothing else behind a filing. -/
theorem mem_fromFiling_insert {id : String} {before later : List Completed} {x y : Completed}
    (quiet : later = [] ∨ x.call.files id = false)
    (h : y ∈ fromFiling id (before ++ x :: later)) :
    y = x ∨ y ∈ fromFiling id (before ++ later) := by
  rw [fromFiling, List.dropWhile_append] at h ⊢
  by_cases hbefore : (before.dropWhile fun x => !x.call.files id).isEmpty
  · rw [if_pos hbefore] at h ⊢
    rcases quiet with rfl | quiet
    · exact .inl (List.mem_singleton.1 ((List.dropWhile_sublist _).subset h))
    · rw [List.dropWhile_cons_of_pos (by rw [quiet]; rfl)] at h
      exact .inr h
  · rw [if_neg hbefore] at h ⊢
    rcases List.mem_append.1 h with h | h
    · exact .inr (List.mem_append_left _ h)
    · exact (List.mem_cons.1 h).imp_right (List.mem_append_right _)

/-- The call that has got so far. -/
def Stage.call : Stage → Call
  | .fresh c => c
  | .late r => r.call

namespace Shared

/-! ### Steps -/

/-- What may happen to a shared store, and what becomes of it. -/
inductive Moves (m : Shared) : Action → Shared → Prop
  | enter {c : Call} :
    Moves m (.enter c)
      { m with clock := m.clock + 1, underway := m.underway ++ [⟨m.clock, .fresh c⟩] }
  | whole {place began : Nat} {c : Call} (found : m.underway[place]? = some ⟨began, .fresh c⟩) :
    Moves m (.access place) ⟨(m.store.call c).1, m.clock + 1, m.underway.eraseIdx place,
      ⟨c, (m.store.call c).2, began, m.clock⟩ :: m.completed⟩
  | miss {place began : Nat} {r : Rest} (found : m.underway[place]? = some ⟨began, .fresh r.call⟩)
    (absent : m.store.posts.has r.target = false) :
    Moves m (.access place)
      ⟨m.store, m.clock + 1, m.underway.set place ⟨began, .late r⟩, m.completed⟩
  | late {place began : Nat} {r : Rest} (found : m.underway[place]? = some ⟨began, .late r⟩) :
    Moves m (.access place)
      ⟨(m.store.secondAccess r).1, m.clock + 1, m.underway.eraseIdx place,
        ⟨r.call, (m.store.secondAccess r).2, began, m.clock⟩ :: m.completed⟩

theorem moves_of_step {m m' : Shared} {a : Action} (h : m.step a = some m') : m.Moves a m' := by
  cases a with
  | enter c => exact Option.some.inj h ▸ .enter
  | access place =>
    rw [step] at h
    split at h
    · exact nomatch h
    · rename_i began c found
      rcases m.store.firstAccess_cases c with hfirst | ⟨r, rfl, absent, hfirst⟩
      · rw [hfirst] at h
        exact Option.some.inj h ▸ .whole found
      · rw [hfirst] at h
        exact Option.some.inj h ▸ .miss found absent
    · rename_i began r found
      exact Option.some.inj h ▸ .late found

theorem run_concat_eq_some {m m'' : Shared} {as : List Action} {a : Action}
    (h : m.run (as ++ [a]) = some m'') : ∃ m', m.run as = some m' ∧ m'.Moves a m'' := by
  obtain ⟨m', hm', hstep⟩ : ∃ m', m.run as = some m' ∧ m'.step a = some m'' := by
    simpa [run, List.foldlM_append, Option.bind_eq_some_iff] using h
  exact ⟨m', hm', moves_of_step hstep⟩

/-! ### No call is lost -/

/-- The calls that are made. -/
def made (as : List Action) : List Call :=
  as.filterMap fun
    | .enter c => some c
    | .access _ => none

/-- The calls that a shared store knows of. -/
def calls (m : Shared) : List Call := m.underway.map (·.stage.call) ++ m.completed.map (·.call)

variable {place : Nat} {x y : Underway}

theorem calls_of_ended {m : Shared} (found : m.underway[place]? = some x) :
    ((m.underway.eraseIdx place).map (·.stage.call) ++
      x.stage.call :: m.completed.map (·.call)).Perm m.calls := by
  obtain ⟨hplace, hx⟩ := List.getElem?_eq_some_iff.1 found
  have hall := (List.getElem_cons_eraseIdx_perm hplace).map (·.stage.call)
  rw [hx] at hall
  exact List.perm_middle.trans (hall.append_right _)

theorem map_call_set {underway : List Underway} (found : underway[place]? = some x)
    (same : y.stage.call = x.stage.call) :
    (underway.set place y).map (·.stage.call) = underway.map (·.stage.call) := by
  obtain ⟨hplace, hx⟩ := List.getElem?_eq_some_iff.1 found
  have hmapped : place < (underway.map (·.stage.call)).length := by simpa using hplace
  have hcall : (underway.map (·.stage.call))[place] = x.stage.call := by rw [List.getElem_map, hx]
  rw [List.map_set, same, ← hcall, List.set_getElem_self]

theorem calls_of_moves {m m' : Shared} {a : Action} (moves : m.Moves a m') :
    m'.calls.Perm (m.calls ++ made [a]) := by
  cases moves with
  | @enter c =>
    have hnew : ([c] ++ m.completed.map (·.call)).Perm (m.completed.map (·.call) ++ [c]) :=
      List.perm_append_comm
    simp only [calls, List.map_append, List.append_assoc]
    exact hnew.append_left _
  | whole found => exact (calls_of_ended found).trans (by simp [made])
  | late found => exact (calls_of_ended found).trans (by simp [made])
  | @miss place began r found absent =>
    have hsame := map_call_set (y := ⟨began, .late r⟩) found rfl
    simp [made, calls, hsame]

/-- The calls that are underway and those that have ended are the calls that were made. -/
theorem no_call_is_lost (s : Store) {as : List Action} {m : Shared}
    (h : (start s).run as = some m) : m.calls.Perm (made as) := by
  induction as using List.reverseRecOn generalizing m with
  | nil =>
    obtain rfl : start s = m := Option.some.inj h
    exact .nil
  | append_singleton as a ih =>
    obtain ⟨n, hn, hmoves⟩ := run_concat_eq_some h
    rw [made, List.filterMap_append]
    exact (calls_of_moves hmoves).trans ((ih hn).append_right _)

/-! ### An order of the calls -/

/-- A call that has found no post can still come before the first that files one under its target:
all from that one on ended after it began. -/
def Fits (s : Store) (order : List Completed) (x : Underway) : Prop :=
  ∀ r, x.stage = .late r → s.posts.has r.target = false ∧
    ∀ y ∈ fromFiling r.target order, x.began ≤ y.ended

/-- An order of the calls that have ended which explains what has become of a store. -/
structure Explains (s : Store) (m : Shared) (order : List Completed) : Prop where
  perm : order.Perm m.completed
  serves : s.Serves order m.store
  inTime : order.Pairwise fun x y => x.began ≤ y.ended
  began : ∀ x ∈ order, x.began ≤ m.clock
  underway : ∀ x ∈ m.underway, x.began ≤ m.clock
  fits : ∀ x ∈ m.underway, Fits s order x

variable {s t : Store} {m m' : Shared} {order before later : List Completed}

theorem explains_start (s : Store) : Explains s (start s) [] where
  perm := .nil
  serves := Store.serves_nil.2 rfl
  inTime := .nil
  began := fun _ h => nomatch h
  underway := fun _ h => nomatch h
  fits := fun _ h => nomatch h

theorem Explains.enter (h : Explains s m order) (c : Call) :
    Explains s
      { m with clock := m.clock + 1, underway := m.underway ++ [⟨m.clock, .fresh c⟩] } order where
  perm := h.perm
  serves := h.serves
  inTime := h.inTime
  began := fun x hx => Nat.le_succ_of_le (h.began x hx)
  underway := fun x hx => by
    rcases List.mem_append.1 hx with hx | hx
    · exact Nat.le_succ_of_le (h.underway x hx)
    · rw [List.mem_singleton.1 hx]
      exact Nat.le_succ m.clock
  fits := fun x hx => by
    rcases List.mem_append.1 hx with hx | hx
    · exact h.fits x hx
    · intro r hr
      exact nomatch List.mem_singleton.1 hx ▸ hr

/-- When no post is found, none has been filed so far. -/
theorem Explains.miss (h : Explains s m order) {place began : Nat} {r : Rest}
    (found : m.underway[place]? = some ⟨began, .fresh r.call⟩)
    (absent : m.store.posts.has r.target = false) :
    Explains s ⟨m.store, m.clock + 1, m.underway.set place ⟨began, .late r⟩, m.completed⟩
      order where
  perm := h.perm
  serves := h.serves
  inTime := h.inTime
  began := fun x hx => Nat.le_succ_of_le (h.began x hx)
  underway := fun x hx => by
    rcases List.mem_or_eq_of_mem_set hx with hx | rfl
    · exact Nat.le_succ_of_le (h.underway x hx)
    · have hbegan : began ≤ m.clock := h.underway _ (List.mem_of_getElem? found)
      exact Nat.le_succ_of_le hbegan
  fits := fun x hx => by
    rcases List.mem_or_eq_of_mem_set hx with hx | rfl
    · exact h.fits x hx
    · rintro _ ⟨⟩
      rw [h.serves.has_posts, Bool.or_eq_false_iff] at absent
      rw [fromFiling_eq_nil absent.2]
      exact ⟨absent.1, fun _ hy => nomatch hy⟩

/-- A call that ends now comes in anywhere before calls that ended after it began, if it files no
post or comes in at the end. -/
theorem Explains.insert (h : Explains s m (before ++ later)) {place began : Nat} {stage : Stage}
    (found : m.underway[place]? = some ⟨began, stage⟩) {c : Call} {reply : Reply}
    (quiet : ∀ id, later = [] ∨ c.files id = false) (fits : ∀ y ∈ later, began ≤ y.ended)
    (serves : s.Serves (before ++ ⟨c, reply, began, m.clock⟩ :: later) t) :
    Explains s
      ⟨t, m.clock + 1, m.underway.eraseIdx place, ⟨c, reply, began, m.clock⟩ :: m.completed⟩
      (before ++ ⟨c, reply, began, m.clock⟩ :: later) where
  perm := List.perm_middle.trans (h.perm.cons _)
  serves := serves
  inTime := by
    obtain ⟨hbefore, hlater, hacross⟩ := List.pairwise_append.1 h.inTime
    refine List.pairwise_append.2 ⟨hbefore, List.pairwise_cons.2 ⟨fits, hlater⟩, ?_⟩
    intro x hx y hy
    rcases List.mem_cons.1 hy with rfl | hy
    · exact h.began x (List.mem_append_left _ hx)
    · exact hacross x hx y hy
  began := fun x hx => by
    rcases List.mem_cons.1 (List.perm_middle.mem_iff.1 hx) with rfl | hx
    · exact Nat.le_succ_of_le (h.underway _ (List.mem_of_getElem? found))
    · exact Nat.le_succ_of_le (h.began x hx)
  underway := fun x hx => Nat.le_succ_of_le (h.underway x (List.mem_of_mem_eraseIdx hx))
  fits := fun x hx r hr => by
    have hmem := List.mem_of_mem_eraseIdx hx
    obtain ⟨habsent, hended⟩ := h.fits x hmem r hr
    refine ⟨habsent, fun y hy => ?_⟩
    rcases mem_fromFiling_insert (quiet r.target) hy with rfl | hy
    · exact h.underway x hmem
    · exact hended y hy

/-- Whatever happens next, what has happened can still be explained. -/
theorem Explains.step {a : Action} (h : Explains s m order) (moves : m.Moves a m') :
    ∃ order, Explains s m' order := by
  cases moves with
  | enter => exact ⟨order, h.enter _⟩
  | miss found absent => exact ⟨order, h.miss found absent⟩
  | whole found =>
    -- the call takes effect now, after all others
    have hlast : Explains s m (order ++ []) := (List.append_nil order).symm ▸ h
    exact ⟨_, hlast.insert found (fun _ => .inl rfl) (fun _ hy => nomatch hy)
      (Store.serves_concat h.serves rfl)⟩
  | @late place began r found =>
    -- the call takes effect before the first that files a post under its target
    obtain ⟨habsent, hended⟩ := h.fits _ (List.mem_of_getElem? found) r rfl
    rw [← beforeFiling_append_fromFiling r.target order] at h
    exact ⟨_, h.insert found (fun id => .inr (r.files_call id)) hended
      (h.serves.late habsent (any_beforeFiling ..) files_head_fromFiling rfl rfl)⟩

theorem exists_explains (s : Store) {as : List Action} (h : (start s).run as = some m) :
    ∃ order, Explains s m order := by
  induction as using List.reverseRecOn generalizing m with
  | nil => exact ⟨[], Option.some.inj h ▸ explains_start s⟩
  | append_singleton as a ih =>
    obtain ⟨n, hn, hmoves⟩ := run_concat_eq_some h
    obtain ⟨order, horder⟩ := ih hn
    exact horder.step hmoves

/-- Every call is atomic, whatever others do in the meantime: there is an order of the calls that
have ended in which, one after the other, they get the replies that they got and leave the store
that is there, and in which no call comes before one that was over when it began. -/
theorem calls_are_atomic (s : Store) (as : List Action) (m : Shared)
    (run : (start s).run as = some m) :
    ∃ order : List Completed, order.Perm m.completed ∧
      (order.Pairwise fun x y => ¬ y.ended < x.began) ∧
      s.callAll (order.map (·.call)) = (m.store, order.map (·.reply)) := by
  obtain ⟨order, h⟩ := exists_explains s run
  exact ⟨order, h.perm, h.inTime.imp Nat.not_lt.2, h.serves⟩

/-- A post that comes between the two accesses of a vote on its id. -/
def filed : Post := ⟨"x", "c", "a", "", "", 0, .epoch, .empty⟩

/-- A vote finds no post, somebody files one, somebody else asks for the vote and gets none, and
only then is the vote kept beside. -/
def overtaken : List Action :=
  [.enter (.change (.vote "x" "u" true)), .access 0, .enter (.change (.addPost filed)), .access 1,
    .enter (.voteOf "x" "u"), .access 1, .access 0]

/-- What becomes of the three calls. -/
def replied : List Completed :=
  [⟨.change (.vote "x" "u" true), .change (.ok (.karma none)), 0, 6⟩,
    ⟨.voteOf "x" "u", .vote none, 4, 5⟩,
    ⟨.change (.addPost filed), .change (.ok .done), 2, 3⟩]

theorem completed_overtaken :
    ((start .empty).run overtaken).map (·.completed) = some replied := by
  decide

/-- The vote that ends last comes first. -/
theorem atomic_of_overtaken :
    ∃ (m : Shared) (order : List Completed), (start .empty).run overtaken = some m ∧
      Store.empty.callAll (order.map (·.call)) = (m.store, order.map (·.reply)) ∧
      order.map (fun x => (x.began, x.ended)) = [(0, 6), (2, 3), (4, 5)] := by
  obtain ⟨m, run, hm⟩ := Option.map_eq_some_iff.1 completed_overtaken
  obtain ⟨order, hperm, htime, hserves⟩ := calls_are_atomic .empty overtaken m run
  have hreplies := congrArg Prod.snd hserves
  have honly : ∀ order ∈ replied.permutations', (order.Pairwise fun x y => ¬ y.ended < x.began) →
      (Store.empty.callAll (order.map (·.call))).2 = order.map (·.reply) →
      order.map (fun x => (x.began, x.ended)) = [(0, 6), (2, 3), (4, 5)] := by decide
  exact ⟨m, order, run, hserves, honly order (List.mem_permutations'.2 (hm ▸ hperm)) htime hreplies⟩

end Shared

end Agora
