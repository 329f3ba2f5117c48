import Agora.Proofs.Decode
import Agora.Proofs.Record
import Agora.Proofs.Tagged
import Agora.Request.Codec

/-!
What the fields of a request hold, and when members or items make a request up. Each field that an
object holds once with its value, or not at all if it may be missing and holds none, counts; items
count in the order of the fields, of which the last may be left out.
-/

namespace Agora

open Json Json.Fields Json.Decoder

/-! ### What a request holds -/

/-- What a field of a request holds: something that must be there, or something that may be
missing. -/
inductive Particular where
  | text (s : String)
  | flag (b : Bool)
  | texts (ss : List String)
  | mayText (s : Option String)
  | mayCount (n : Option UInt64)

namespace Particular

/-- The JSON value that a field holds. -/
def json : Particular → Json
  | .text s => .str s
  | .flag b => .bool b
  | .texts ss => .arr (ss.map .str)
  | .mayText s => Json.optional .str s
  | .mayCount n => Json.optional (fun n => .int n.toNat) n

/-- Whether a field may be left out: it need not be there, and holds none. -/
def spare : Particular → Bool
  | .mayText s => s.isNone
  | .mayCount n => n.isNone
  | _ => false

/-- A field is there with its value, or is left out. -/
def Found (p : Particular) (found : Option Json) : Prop :=
  found = some p.json ∨ found = none ∧ p.spare = true

/-- The members with the name of a field are one with its value, or none if it is left out. -/
def HeldBy (p : Particular) (held : List Json) : Prop :=
  held = [p.json] ∨ held = [] ∧ p.spare = true

theorem heldBy_iff {p : Particular} {held : List Json} :
    p.HeldBy held ↔ held.length ≤ 1 ∧ p.Found held.head? := by
  match held with
  | [] => simp [HeldBy, Found]
  | [j] => simp [HeldBy, Found]
  | _ :: _ :: _ => simp [HeldBy]

/-- Items that stand for fields in their order, of which the last are left out. -/
inductive Listed : List Particular → List Json → Prop
  | rest {ps : List Particular} (spare : ∀ p ∈ ps, p.spare = true) : Listed ps []
  | item {p : Particular} {ps : List Particular} {items : List Json} (more : Listed ps items) :
    Listed (p :: ps) (p.json :: items)

end Particular

namespace Request

/-- The fields of a request with what they hold, in their order. -/
def particulars : Request → List (String × Particular)
  | .ping => []
  | .createUser id username password =>
    [("id", .text id), ("username", .text username), ("password", .text password)]
  | .createCommunity id name description creator =>
    [("id", .text id), ("name", .text name), ("description", .text description),
      ("creator_id", .text creator)]
  | .join community user => [("subreddit_id", .text community), ("user_id", .text user)]
  | .leave community user => [("subreddit_id", .text community), ("user_id", .text user)]
  | .createPost id community author title content =>
    [("id", .text id), ("subreddit_id", .text community), ("author_id", .text author),
      ("title", .text title), ("content", .text content)]
  | .createComment id post parent author content =>
    [("id", .text id), ("post_id", .text post), ("parent_id", .mayText parent),
      ("author_id", .text author), ("content", .text content)]
  | .vote target user up =>
    [("target_id", .text target), ("user_id", .text user), ("is_upvote", .flag up)]
  | .sendMessage id sender recipient content repliesTo =>
    [("id", .text id), ("from_id", .text sender), ("to_id", .text recipient),
      ("content", .text content), ("reply_to_id", .mayText repliesTo)]
  | .getFeed communities limit =>
    [("subreddit_ids", .texts communities), ("limit", .mayCount limit)]
  | .getComments post => [("post_id", .text post)]
  | .getMessages user => [("user_id", .text user)]

/-! ### Fields and what they hold -/

/-- A field suits what it is to hold: it has its name, and may be left out of a list if that is
spare. -/
def Suits (x : Field) (p : String × Particular) : Prop :=
  x.name = p.1 ∧ (p.2.spare = true → x.presence = .defaulted)

theorem fields_suit (r : Request) : List.Forall₂ Suits r.kind.fields.list r.particulars := by
  cases r <;> simp [Suits, kind, Kind.fields, particulars, Fields.also, done, required, defaulted,
    optionalField, Particular.spare]

theorem names_eq (r : Request) : r.kind.fields.list.map (·.name) = r.particulars.map (·.1) := by
  cases r <;> rfl

theorem forall_names (P : String → Prop) (r : Request) :
    (∀ x ∈ r.kind.fields.list, P x.name) ↔ ∀ p ∈ r.particulars, P p.1 := by
  have hmap : (∀ name ∈ r.kind.fields.list.map (·.name), P name) ↔
      ∀ name ∈ r.particulars.map (·.1), P name := by rw [r.names_eq]
  rwa [List.forall_mem_map, List.forall_mem_map] at hmap

theorem nodup_names (r : Request) : (r.particulars.map (·.1)).Nodup := by
  cases r <;> simp [particulars]

theorem name_ne_tag (r : Request) : ∀ p ∈ r.particulars, p.1 ≠ Tagged.tagName := by
  cases r <;> simp [particulars, Tagged.tagName]

theorem build_done {α : Type} {a b : α} {find : String → Option Json} :
    (done a).build find = .ok b ↔ a = b := by
  simp [done]

theorem build_also {α β : Type} {f : Fields (α → β)} {g : Fields α} {find : String → Option Json}
    {b : β} : (f.also g).build find = .ok b ↔
      ∃ make, f.build find = .ok make ∧ ∃ a, g.build find = .ok a ∧ make a = b := by
  simp only [Fields.also, bind, Except.bind]
  cases f.build find <;> cases g.build find <;> simp

theorem build_required {α : Type} {d : Decoder α} {write : α → Json} (exact : d.Exact write)
    (name : String) {find : String → Option Json} {a : α} :
    (required name d).build find = .ok a ↔ find name = some (write a) := by
  simp only [required]
  cases find name with
  | none => simp
  | some j => simpa using exact

theorem build_defaulted {α : Type} {d : Decoder α} {write : α → Json} (exact : d.Exact write)
    (filled : ∀ a, write a ≠ .null) (name : String) {find : String → Option Json}
    {a : Option α} : (defaulted name d).build find = .ok a ↔
      find name = some (Json.optional write a) ∨ find name = none ∧ a = none := by
  simp only [defaulted, optionalField]
  cases find name with
  | none => simp [eq_comm]
  | some j => simpa using exact_optional exact filled

/-- The fields of a request make it up if each is found with what it holds. -/
theorem build_eq_ok_iff {r : Request} {find : String → Option Json} :
    r.kind.fields.build find = .ok r ↔ ∀ p ∈ r.particulars, p.2.Found (find p.1) := by
  cases r <;> simp [-Bool.exists_bool, kind, Kind.fields, particulars, build_also, build_done,
    Particular.Found, Particular.spare, Particular.json, build_required exact_text,
    build_required exact_bool, build_required (exact_list exact_text),
    build_defaulted exact_text fun _ => Json.noConfusion,
    build_defaulted exact_uint64 fun _ => Json.noConfusion, and_assoc]

/-- The fields of a kind make up only requests of that kind. -/
theorem kind_of_build {k : Kind} {find : String → Option Json} {r : Request}
    (built : k.fields.build find = .ok r) : r.kind = k := by
  cases k <;> simp [-Bool.exists_bool, Kind.fields, build_also, build_done] at built <;>
    grind [kind]

theorem defaulted_of_listed {fields : List Field} {ps : List (String × Particular)}
    {items : List Json} (suit : List.Forall₂ Suits fields ps)
    (listed : Particular.Listed (ps.map (·.2)) items) :
    ∀ x ∈ fields.drop items.length, x.presence = .defaulted := by
  induction suit generalizing items with
  | nil => simp
  | @cons x p fields ps hx hrest ih =>
    cases listed with
    | rest spare =>
      intro y hy
      rw [List.length_nil, List.drop_zero] at hy
      rcases List.mem_cons.1 hy with rfl | hy
      · exact hx.2 (spare _ List.mem_cons_self)
      · exact ih (.rest fun q hq => spare q (List.mem_cons_of_mem _ hq)) y hy
    | item more => exact ih more

/-- Items stand for fields in their order exactly if each field is found among the items under its
name and there are no more of them. -/
theorem listed_iff {ps : List (String × Particular)} {items : List Json}
    (own : (ps.map (·.1)).Nodup) :
    Particular.Listed (ps.map (·.2)) items ↔ items.length ≤ ps.length ∧
      ∀ p ∈ ps, p.2.Found (member? p.1 ((ps.map (·.1)).zip items)) := by
  induction ps generalizing items with
  | nil =>
    cases items with
    | nil => exact ⟨fun _ => by simp, fun _ => .rest (by simp)⟩
    | cons j items => exact ⟨nofun, fun h => absurd h.1 (Nat.not_succ_le_zero _)⟩
  | cons p ps ih =>
    obtain ⟨hp, hown⟩ := List.nodup_cons.1 own
    cases items with
    | nil =>
      have hspare : (∀ q ∈ p :: ps, q.2.Found none) ↔
          ∀ q ∈ (p :: ps).map (·.2), q.spare = true := by
        rw [List.forall_mem_map]
        simp [Particular.Found]
      rw [List.zip_nil_right]
      refine ⟨fun h => ⟨Nat.zero_le _, hspare.2 ?_⟩, fun h => .rest (hspare.1 h.2)⟩
      cases h with
      | rest spare => exact spare
    | cons j items =>
      have hlater : ∀ q ∈ ps, member? q.1 (((p :: ps).map (·.1)).zip (j :: items)) =
          member? q.1 ((ps.map (·.1)).zip items) := by
        intro q hq
        have hne : p.1 ≠ q.1 := fun h => hp (List.mem_map.2 ⟨q, hq, h.symm⟩)
        rw [List.map_cons, List.zip_cons_cons, member?, if_neg hne]
      have hfirst : p.2.Found (member? p.1 (((p :: ps).map (·.1)).zip (j :: items))) ↔
          j = p.2.json := by
        simp [Particular.Found, member?]
      have hmore : (∀ q ∈ ps, q.2.Found (member? q.1 (((p :: ps).map (·.1)).zip (j :: items)))) ↔
          ∀ q ∈ ps, q.2.Found (member? q.1 ((ps.map (·.1)).zip items)) :=
        forall₂_congr fun q hq => by rw [hlater q hq]
      rw [List.forall_mem_cons, hfirst, hmore, List.length_cons, List.length_cons,
        Nat.succ_le_succ_iff]
      constructor
      · intro h
        cases h with
        | item more => exact ⟨((ih hown).1 more).1, rfl, ((ih hown).1 more).2⟩
      · rintro ⟨hlong, rfl, hfound⟩
        exact .item ((ih hown).2 ⟨hlong, hfound⟩)

/-- The fields of an object other than its tag make up a request if each is held. -/
theorem ofObject_eq_ok_iff_held {r : Request} {members : List (String × Json)}
    (whole : ∀ m ∈ members, m.2.broken = false) :
    r.kind.fields.ofObject (Tagged.untagged members) = .ok r ↔
      ∀ p ∈ r.particulars, p.2.HeldBy (values p.1 members) := by
  have huntagged : ∀ m ∈ Tagged.untagged members, m.2.broken = false :=
    fun m hm => whole m (List.mem_filter.1 hm).1
  have hvalues : ∀ p ∈ r.particulars, values p.1 (Tagged.untagged members) = values p.1 members :=
    fun p hp => Tagged.values_untagged (r.name_ne_tag p hp) members
  have hsingle : (∀ x ∈ r.kind.fields.list,
      (values x.name (Tagged.untagged members)).length ≤ 1) ↔
      ∀ p ∈ r.particulars, (values p.1 (Tagged.untagged members)).length ≤ 1 :=
    r.forall_names fun name => (values name (Tagged.untagged members)).length ≤ 1
  rw [ofObject_eq_ok_iff huntagged, build_eq_ok_iff, hsingle, ← forall₂_and]
  refine forall₂_congr fun p hp => ?_
  rw [hvalues p hp, Particular.heldBy_iff, member?_eq_head?, hvalues p hp]

/-- Items make up a request if they are listed in the order of its fields. -/
theorem ofList_eq_ok_iff_listed {r : Request} {shape : String} {tooLong : Nat → Problem}
    {items : List Json} : r.kind.fields.ofList shape tooLong items = .ok r ↔
      Particular.Listed (r.particulars.map (·.2)) items := by
  have hown : (r.kind.fields.list.map (·.name)).Nodup := r.names_eq ▸ r.nodup_names
  have hcount : r.kind.fields.count = r.particulars.length := r.fields_suit.length_eq
  rw [ofList_eq_ok_iff hown, build_eq_ok_iff, listed_iff r.nodup_names, hcount, r.names_eq]
  constructor
  · rintro ⟨short, -, found⟩
    exact ⟨short, found⟩
  · rintro ⟨short, found⟩
    exact ⟨short, defaulted_of_listed r.fields_suit ((listed_iff r.nodup_names).2 ⟨short, found⟩),
      found⟩

end Request

end Agora
