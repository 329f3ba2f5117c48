import Agora.Json.Tagged
import Agora.Proofs.Reading
import Agora.Proofs.Record

/-!
How a value of several variants is decoded. The tag comes off an object in which exactly one member
is a tag that is a text, wherever it stands, and off a list that starts with one; what is left is
for the decoder of the variant to judge. A text that spells no such value is refused.
-/

namespace Agora.Json.Tagged

variable {α : Type} {d : Document} {names : List String}

/-- The members of an object that are not its tag. -/
def untagged (members : List (String × Json)) : List (String × Json) :=
  members.filter (·.1 ≠ tagName)

theorem values_untagged {name : String} (other : name ≠ tagName)
    (members : List (String × Json)) : values name (untagged members) = values name members :=
  values_filter (p := fun name => name ≠ tagName) (by simpa using other) members

/-- A tag that is a text taken off a value. -/
inductive Parted : Json → Split → Prop
  | object {tag : String} {members : List (String × Json)}
    (once : values tagName members = [.str tag]) :
    Parted (.obj members) ⟨tag, .obj (untagged members)⟩
  | list {tag : String} {items : List Json} : Parted (.arr (.str tag :: items)) ⟨tag, .arr items⟩

theorem parted_cons {tag : String} {members : List (String × Json)}
    (other : ∀ m ∈ members, m.1 ≠ tagName) :
    Parted (.obj ((tagName, .str tag) :: members)) ⟨tag, .obj members⟩ := by
  have huntagged : untagged ((tagName, .str tag) :: members) = members := by
    simpa [untagged] using other
  have honce : values tagName ((tagName, .str tag) :: members) = [.str tag] := by
    rw [values_cons, if_pos rfl, values_eq_nil other]
  have hparted := Parted.object honce
  rwa [huntagged] at hparted

theorem readTag_eq_ok_iff {m : Mark} {j : Json} {tag : String} :
    readTag d names m j = .ok tag ↔ j = .str tag ∧ tag ∈ names := by
  constructor
  · intro h
    cases j with
    | str s =>
      rw [readTag] at h
      split at h
      · cases h
        exact ⟨rfl, ‹_›⟩
      · exact nomatch h
    | _ => exact nomatch h
  · rintro ⟨rfl, hmem⟩
    exact if_pos hmem

/-- Once the tag is known, no other may come. -/
theorem splitMembers_some {tag : String} {content members : List (String × Json)}
    {marks : List Mark} (long : members.length ≤ marks.length)
    (whole : ∀ m ∈ members, m.2.broken = false) {s : Split} :
    splitMembers d names (some tag) content (members.zip marks) = .ok s ↔
      values tagName members = [] ∧ s = ⟨tag, .obj (content.reverse ++ untagged members)⟩ := by
  induction members generalizing content marks with
  | nil => simp [splitMembers, values, untagged, eq_comm]
  | cons m members ih =>
    obtain ⟨name, j⟩ := m
    obtain ⟨hj, hwhole⟩ := List.forall_mem_cons.1 whole
    cases marks with
    | nil => exact absurd long (Nat.not_succ_le_zero _)
    | cons mark marks =>
      rw [List.zip_cons_cons, splitMembers, values_cons]
      by_cases hname : name = tagName
      · simp [hname]
      · rw [if_neg hname, if_neg hname, if_neg (by simp [hj]),
          ih (Nat.le_of_succ_le_succ long) hwhole]
        simp [untagged, hname]

/-- The tag is found wherever it stands, if there is exactly one. -/
theorem splitMembers_none {content members : List (String × Json)} {marks : List Mark}
    (long : members.length ≤ marks.length) (whole : ∀ m ∈ members, m.2.broken = false)
    {s : Split} :
    splitMembers d names none content (members.zip marks) = .ok s ↔
      s.tag ∈ names ∧ values tagName members = [.str s.tag] ∧
        s.content = .obj (content.reverse ++ untagged members) := by
  induction members generalizing content marks with
  | nil => simp [splitMembers, values]
  | cons m members ih =>
    obtain ⟨name, j⟩ := m
    obtain ⟨hj, hwhole⟩ := List.forall_mem_cons.1 whole
    cases marks with
    | nil => exact absurd long (Nat.not_succ_le_zero _)
    | cons mark marks =>
      have hlong := Nat.le_of_succ_le_succ long
      rw [List.zip_cons_cons, splitMembers, values_cons]
      by_cases hname : name = tagName
      · rw [if_pos hname, if_pos hname]
        have huntagged : untagged ((name, j) :: members) = untagged members := by
          simp [untagged, hname]
        rw [huntagged]
        cases hread : readTag d names mark j with
        | error e =>
          constructor
          · intro h
            cases h
          · rintro ⟨hmem, hvalues, -⟩
            have htag : readTag d names mark j = .ok s.tag :=
              readTag_eq_ok_iff.2 ⟨(List.cons.inj hvalues).1, hmem⟩
            cases hread.symm.trans htag
        | ok tag =>
          obtain ⟨rfl, hmem⟩ := readTag_eq_ok_iff.1 hread
          dsimp only
          rw [splitMembers_some hlong hwhole]
          constructor
          · rintro ⟨hnone, rfl⟩
            exact ⟨hmem, by rw [hnone], rfl⟩
          · rintro ⟨-, hvalues, hcontent⟩
            obtain ⟨htag, hnone⟩ := List.cons.inj hvalues
            obtain ⟨s, content⟩ := s
            cases htag
            cases hcontent
            exact ⟨hnone, rfl⟩
      · rw [if_neg hname, if_neg hname, if_neg (by simp [hj]), ih hlong hwhole]
        simp [untagged, hname]

/-- The tag comes off the document of a value. -/
theorem split_eq_ok_iff {shape : String} {j : Json} (root : d.root = j)
    (marks : d.marks.length = parts j) (whole : j.broken = false) {s : Split} :
    split shape names d = .ok s ↔ s.tag ∈ names ∧ Parted j s := by
  subst root
  rw [split]
  cases hroot : d.root with
  | obj members =>
    rw [hroot] at marks whole
    rw [splitMembers_none (Nat.le_of_eq marks.symm) (brokenMembers_eq_false_iff.1 whole)]
    constructor
    · rintro ⟨hmem, honce, hcontent⟩
      obtain ⟨tag, content⟩ := s
      cases hcontent
      exact ⟨hmem, .object honce⟩
    · rintro ⟨hmem, honce⟩
      cases honce with
      | object honce => exact ⟨hmem, honce, rfl⟩
  | arr items =>
    rw [hroot] at marks whole
    cases items with
    | nil => exact ⟨nofun, fun ⟨_, h⟩ => nomatch h⟩
    | cons j items =>
      obtain ⟨mark, tail, hmarks⟩ := List.exists_cons_of_length_eq_add_one marks
      have hitems : brokenItems items = false := (Bool.or_eq_false_iff.1 whole).2
      simp only [hmarks]
      cases hread : readTag d names mark j with
      | error e =>
        dsimp only
        constructor
        · intro h
          cases h
        · rintro ⟨hmem, hlist⟩
          cases hlist with
          | @list tag =>
            have htag : readTag d names mark (.str tag) = .ok tag :=
              readTag_eq_ok_iff.2 ⟨rfl, hmem⟩
            cases hread.symm.trans htag
      | ok tag =>
        obtain ⟨rfl, hmem⟩ := readTag_eq_ok_iff.1 hread
        dsimp only
        rw [hitems, if_neg Bool.false_ne_true]
        constructor
        · intro h
          cases h
          exact ⟨hmem, .list⟩
        · rintro ⟨-, hlist⟩
          cases hlist
          rfl
  | _ => exact ⟨nofun, fun ⟨_, h⟩ => nomatch h⟩

theorem mem_names_of_decoder? {v : Variants α} {name : String} {decoder : Decoder α}
    (known : v.decoder? name = some decoder) : name ∈ v.names := by
  obtain ⟨x, hx, -⟩ := Option.map_eq_some_iff.1 known
  have hname : x.1 = name := by simpa using List.find?_some hx
  exact List.mem_map.2 ⟨x, List.mem_of_find?_eq_some hx, hname⟩

/-- Only a document without a fault is decoded. -/
theorem sound_of_decode {v : Variants α} {a : α} (h : v.decode d = .ok a) : d.fault = none := by
  rw [Variants.decode] at h
  split at h
  · exact nomatch h
  split at h
  · exact nomatch h
  split at h
  · exact nomatch h
  · exact nomatch h
  split at h
  · exact nomatch h
  · assumption

/-- A document is decoded by the decoder of its variant, from what is left without the tag. -/
theorem decode_eq_ok_iff {v : Variants α} {j : Json} (root : d.root = j) (sound : d.fault = none)
    (marks : d.marks.length = parts j) (whole : j.broken = false) {a : α} :
    v.decode d = .ok a ↔ ∃ s decoder, Parted j s ∧ v.decoder? s.tag = some decoder ∧
      decoder s.content = .ok a := by
  rw [Variants.decode]
  constructor
  · intro h
    split at h
    · exact nomatch h
    rename_i s hsplit
    split at h
    · exact nomatch h
    rename_i decoder hdecoder
    split at h
    · exact nomatch h
    · exact nomatch h
    rename_i a' hdecode
    rw [sound] at h
    cases h
    exact ⟨s, decoder, ((split_eq_ok_iff root marks whole).1 hsplit).2, hdecoder, hdecode⟩
  · rintro ⟨s, decoder, hparted, hdecoder, hdecode⟩
    have hsplit : split v.shape v.names d = .ok s :=
      (split_eq_ok_iff root marks whole).2 ⟨mem_names_of_decoder? hdecoder, hparted⟩
    simp only [hsplit, hdecoder, hdecode, sound]

end Agora.Json.Tagged
