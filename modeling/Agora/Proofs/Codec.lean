import Agora.Proofs.Decode
import Agora.Proofs.Record
import Agora.Proofs.Tagged
import Agora.Request.Codec

/-!
Entities and responses are read back from the texts that they are written as. Each is an object of
little depth whose strings may be anything; sets and tables in it may stand in any order. A response
is a tagged object with views or messages in it.
-/

namespace Agora

open Json Json.Fields Json.Decoder

/-! ### Values of fields -/

theorem plain_idOrNull {depth : Nat} (id : Option String) : Plain depth (idOrNull id) :=
  plain_optional (fun _ => .str) id

theorem plain_idList {depth : Nat} (ids : List String) : Plain (depth + 1) (idList ids) :=
  plain_list (fun _ => .str) ids

theorem plain_karmaJson {depth : Nat} (k : Int64) : Plain depth (karmaJson k) := by
  have hlow : -0x8000000000000000 ≤ k.toInt := k.le_toInt
  have hhigh : k.toInt < 0x8000000000000000 := k.toInt_lt
  exact .int ⟨hlow, by omega⟩

theorem Timestamp.plain_toJson {depth : Nat} (t : Timestamp) : Plain depth t.toJson := .str

theorem exact_idOrNull : Decoder.text.optional.Exact idOrNull :=
  exact_optional exact_text (by simp)

/-! ### Entities -/

theorem User.depicts (u : User) : User.fields.Depicts u.toJson u :=
  ⟨_, rfl,
    ((((written_done User.mk).also (written_required _ rfl)).also
      (written_required _ rfl)).also (written_required _ rfl)).also
      (written_required _ (instant_toJson u.created)), by simp⟩

theorem User.plain_toJson {depth : Nat} (u : User) : Plain (depth + 1) u.toJson :=
  .obj (by simp [Plain.str, Timestamp.plain_toJson])

theorem Community.depicts (c : Community) {members : List String}
    (perm : members.Perm c.members.keys) :
    Community.fields.Depicts (c.jsonWith members) c :=
  ⟨_, rfl,
    ((((((written_done Community.mk).also (written_required _ rfl)).also
      (written_required _ rfl)).also (written_required _ rfl)).also
      (written_required _ rfl)).also (written_required _ (ids_of_perm perm))).also
      (written_required _ (instant_toJson c.created)), by simp⟩

theorem Community.plain_jsonWith {depth : Nat} (c : Community) (members : List String) :
    Plain (depth + 2) (c.jsonWith members) :=
  .obj (by simp [Plain.str, plain_idList, Timestamp.plain_toJson])

theorem Post.depicts (p : Post) {votes : List (String × Bool)} (perm : votes.Perm p.votes.entries) :
    Post.fields.Depicts (p.jsonWith votes) p :=
  ⟨_, rfl,
    ((((((((written_done Post.mk).also (written_required _ rfl)).also
      (written_required _ rfl)).also (written_required _ rfl)).also
      (written_required _ rfl)).also (written_required _ rfl)).also
      (written_required _ (exact_int64.ok p.karma))).also
      (written_required _ (instant_toJson p.created))).also
      (written_required _ (table_of_perm exact_bool.ok perm)), by simp⟩

theorem Post.plain_jsonWith {depth : Nat} (p : Post) (votes : List (String × Bool)) :
    Plain (depth + 2) (p.jsonWith votes) := by
  have hvotes : Plain (depth + 1) (.obj (votes.map fun e => (e.1, .bool e.2))) := by
    refine .obj fun m hm => ?_
    obtain ⟨e, -, rfl⟩ := List.mem_map.1 hm
    exact .bool
  exact .obj (by simp [Plain.str, plain_karmaJson, Timestamp.plain_toJson, hvotes])

theorem PostView.depicts (p : PostView) : PostView.fields.Depicts p.toJson p :=
  ⟨_, rfl,
    (((((((written_done PostView.mk).also (written_required _ rfl)).also
      (written_required _ rfl)).also (written_required _ rfl)).also
      (written_required _ rfl)).also (written_required _ rfl)).also
      (written_required _ (exact_int64.ok p.karma))).also
      (written_required _ (instant_toJson p.created)), by simp⟩

theorem PostView.plain_toJson {depth : Nat} (p : PostView) : Plain (depth + 1) p.toJson :=
  .obj (by simp [Plain.str, plain_karmaJson, Timestamp.plain_toJson])

theorem Comment.depicts (c : Comment) : Comment.fields.Depicts c.toJson c :=
  ⟨_, rfl,
    ((((((written_done Comment.mk).also (written_required _ rfl)).also
      (written_required _ rfl)).also
      (written_optionalField _ _ (exact_idOrNull.ok c.parent))).also
      (written_required _ rfl)).also (written_required _ rfl)).also
      (written_required _ (instant_toJson c.created)), by simp⟩

theorem Comment.plain_toJson {depth : Nat} (c : Comment) : Plain (depth + 1) c.toJson :=
  .obj (by simp [Plain.str, plain_idOrNull, Timestamp.plain_toJson])

theorem CommentView.depicts (c : CommentView) : CommentView.fields.Depicts c.toJson c :=
  ⟨_, rfl,
    (((((((written_done CommentView.mk).also (written_required _ rfl)).also
      (written_required _ rfl)).also
      (written_optionalField _ _ (exact_idOrNull.ok c.parent))).also
      (written_required _ rfl)).also (written_required _ rfl)).also
      (written_required _ (instant_toJson c.created))).also
      (written_required _ (list_of_ok exact_text.ok c.children)), by simp⟩

theorem CommentView.plain_toJson {depth : Nat} (c : CommentView) : Plain (depth + 2) c.toJson :=
  .obj (by simp [Plain.str, plain_idOrNull, plain_idList, Timestamp.plain_toJson])

theorem Message.depicts (m : Message) : Message.fields.Depicts m.toJson m :=
  ⟨_, rfl,
    ((((((written_done Message.mk).also (written_required _ rfl)).also
      (written_required _ rfl)).also (written_required _ rfl)).also
      (written_required _ rfl)).also (written_required _ (instant_toJson m.created))).also
      (written_optionalField _ _ (exact_idOrNull.ok m.repliesTo)), by simp⟩

theorem Message.plain_toJson {depth : Nat} (m : Message) : Plain (depth + 1) m.toJson :=
  .obj (by simp [Plain.str, plain_idOrNull, Timestamp.plain_toJson])

/-! ### Responses -/

namespace Response

/-- Records in a list, each written as an object that makes it up, are decoded one by one. -/
theorem decode_records {α : Type} {f : Fields α} {write : α → Json} (shape : String)
    (depicts : ∀ a, f.Depicts (write a) a) (plain : ∀ a, Plain 2 (write a)) (as : List α) :
    (f.whole shape).list (.arr (as.map write)) = .ok as :=
  list_of_ok (fun a => (depicts a).decode (whole_of_plain (plain a)) shape _) as

/-- A response is written as a tagged object that the decoder for its tag turns back into the
response. -/
theorem exists_tagged (r : Response) :
    ∃ name members decoder, r.toJson = .obj ((Tagged.tagName, .str name) :: members) ∧
      variants.decoder? name = some decoder ∧ decoder (.obj members) = .ok r ∧
      (∀ m ∈ members, m.1 ≠ Tagged.tagName) ∧ ∀ m ∈ members, Plain 3 m.2 := by
  cases r with
  | pong => exact ⟨_, _, _, rfl, rfl, (written_done _).ofObject .nil nofun, by simp, by simp⟩
  | success message =>
    exact ⟨_, _, _, rfl, rfl, ofObject_single "message" (exact_text.ok message) rfl,
      by simp [Tagged.tagName], by simp [Plain.str]⟩
  | error message =>
    exact ⟨_, _, _, rfl, rfl, ofObject_single "message" (exact_text.ok message) rfl,
      by simp [Tagged.tagName], by simp [Plain.str]⟩
  | feed posts =>
    have hplain : Plain 3 (.arr (posts.map (·.toJson))) := plain_list PostView.plain_toJson posts
    exact ⟨_, _, _, rfl, rfl,
      ofObject_single "posts" (decode_records _ PostView.depicts PostView.plain_toJson posts)
        (whole_of_plain hplain), by simp [Tagged.tagName], by simpa using hplain⟩
  | comments views =>
    have hplain : Plain 3 (.arr (views.map (·.toJson))) := plain_list CommentView.plain_toJson views
    exact ⟨_, _, _, rfl, rfl,
      ofObject_single "comments"
        (decode_records _ CommentView.depicts CommentView.plain_toJson views)
        (whole_of_plain hplain), by simp [Tagged.tagName], by simpa using hplain⟩
  | messages inbox =>
    have hplain : Plain 3 (.arr (inbox.map (·.toJson))) := plain_list Message.plain_toJson inbox
    exact ⟨_, _, _, rfl, rfl,
      ofObject_single "messages" (decode_records _ Message.depicts Message.plain_toJson inbox)
        (whole_of_plain hplain), by simp [Tagged.tagName], by simpa using hplain⟩

theorem plain_toJson (r : Response) : Plain 4 r.toJson := by
  obtain ⟨name, members, decoder, hjson, -, -, -, hplain⟩ := r.exists_tagged
  rw [hjson]
  exact .obj (List.forall_mem_cons.2 ⟨.str, hplain⟩)

/-- A response is read back from the text that it is written as. -/
theorem ofText_toJson (r : Response) : ofText r.toJson.write = .ok r := by
  obtain ⟨name, members, decoder, hjson, hknown, hdecode, hother, -⟩ := r.exists_tagged
  obtain ⟨hroot, hsound, hmarks⟩ := readText_spells (spells_write r.plain_toJson) (by decide) true
  have hparted : Tagged.Parted r.toJson ⟨name, .obj members⟩ := hjson ▸ Tagged.parted_cons hother
  exact (Tagged.decode_eq_ok_iff hroot hsound hmarks (whole_of_plain r.plain_toJson)).2
    ⟨_, decoder, hparted, hknown, hdecode⟩

end Response

/-! ### Round trips -/

/-- The values of a type are read back from every text that they may be written as, so no text
stands for two of them. -/
structure RoundTrips {α ε : Type} (Form : α → Json → Prop) (read : List Char → Except ε α) :
    Prop where
  formed (a : α) : ∃ j, Form a j
  reads {a : α} {j : Json} (form : Form a j) : read j.write = .ok a
  apart {a b : α} {j k : Json} (ha : Form a j) (hb : Form b k) (same : j.write = k.write) : a = b

theorem roundTrips_of_reads {α ε : Type} {Form : α → Json → Prop} {read : List Char → Except ε α}
    (formed : ∀ a, ∃ j, Form a j) (reads : ∀ {a j}, Form a j → read j.write = .ok a) :
    RoundTrips Form read where
  formed := formed
  reads := reads
  apart ha hb same := Except.ok.inj ((reads ha).symm.trans ((congrArg read same).trans (reads hb)))

theorem roundTrips_of_depicts {α : Type} {f : Fields α} {Form : α → Json → Prop} (shape : String)
    (formed : ∀ a, ∃ j, Form a j) (depicts : ∀ {a j}, Form a j → f.Depicts j a)
    (plain : ∀ {a j}, Form a j → Plain 2 j) : RoundTrips Form (f.ofText shape) :=
  roundTrips_of_reads formed fun form => (depicts form).ofText (plain form) (by decide) shape

/-- What a response, a user, a community, a post, a comment, a view of one or a message is written
as is read back as the value, in whatever order sets and tables are written, and no two values are
written as the same text. -/
theorem written_values_read_back :
    RoundTrips (fun r j => j = Response.toJson r) Response.ofText ∧
    RoundTrips (fun u j => j = User.toJson u) (User.fields.ofText User.shape) ∧
    RoundTrips (fun c j => ∃ ids, ids.Perm c.members.keys ∧ j = Community.jsonWith c ids)
      (Community.fields.ofText Community.shape) ∧
    RoundTrips (fun p j => ∃ votes, votes.Perm p.votes.entries ∧ j = Post.jsonWith p votes)
      (Post.fields.ofText Post.shape) ∧
    RoundTrips (fun p j => j = PostView.toJson p) (PostView.fields.ofText PostView.shape) ∧
    RoundTrips (fun c j => j = Comment.toJson c) (Comment.fields.ofText Comment.shape) ∧
    RoundTrips (fun c j => j = CommentView.toJson c) (CommentView.fields.ofText CommentView.shape) ∧
    RoundTrips (fun m j => j = Message.toJson m) (Message.fields.ofText Message.shape) := by
  refine ⟨?response, ?user, ?community, ?post, ?postView, ?comment, ?commentView, ?message⟩
  case response =>
    refine roundTrips_of_reads (fun r => ⟨_, rfl⟩) ?_
    rintro r j rfl
    exact r.ofText_toJson
  case user =>
    refine roundTrips_of_depicts _ (fun u => ⟨_, rfl⟩) ?_ ?_ <;> rintro u j rfl
    · exact u.depicts
    · exact u.plain_toJson
  case community =>
    refine roundTrips_of_depicts _ (fun c => ⟨_, _, .refl _, rfl⟩) ?_ ?_ <;>
      rintro c j ⟨ids, hperm, rfl⟩
    · exact c.depicts hperm
    · exact c.plain_jsonWith ids
  case post =>
    refine roundTrips_of_depicts _ (fun p => ⟨_, _, .refl _, rfl⟩) ?_ ?_ <;>
      rintro p j ⟨votes, hperm, rfl⟩
    · exact p.depicts hperm
    · exact p.plain_jsonWith votes
  case postView =>
    refine roundTrips_of_depicts _ (fun p => ⟨_, rfl⟩) ?_ ?_ <;> rintro p j rfl
    · exact p.depicts
    · exact p.plain_toJson
  case comment =>
    refine roundTrips_of_depicts _ (fun c => ⟨_, rfl⟩) ?_ ?_ <;> rintro c j rfl
    · exact c.depicts
    · exact c.plain_toJson
  case commentView =>
    refine roundTrips_of_depicts _ (fun c => ⟨_, rfl⟩) ?_ ?_ <;> rintro c j rfl
    · exact c.depicts
    · exact c.plain_toJson
  case message =>
    refine roundTrips_of_depicts _ (fun m => ⟨_, rfl⟩) ?_ ?_ <;> rintro m j rfl
    · exact m.depicts
    · exact m.plain_toJson

end Agora
