import Agora.Json.Record
import Agora.Proofs.Reading

/-!
When a record is decoded, and from what. An object makes up a record when no field occurs in it
twice and the members with the names of the fields make it up, wherever they stand and whatever
else there is; a list does when its items do under the names of the fields, of which only the last
that may be missing are left out. From this, records are decoded from what they are written as.
-/

namespace Agora.Json

variable {α β : Type}

/-! ### Members with a name -/

/-- The values of the members with a name. -/
def values (name : String) (members : List (String × Json)) : List Json :=
  (members.filter (·.1 = name)).map (·.2)

theorem values_cons (name : String) (m : String × Json) (members : List (String × Json)) :
    values name (m :: members) =
      if m.1 = name then m.2 :: values name members else values name members := by
  unfold values
  split <;> simp [*]

theorem values_sublist (name : String) (m : String × Json) (members : List (String × Json)) :
    (values name members).Sublist (values name (m :: members)) := by
  rw [values_cons]
  split
  · exact List.sublist_cons_self _ _
  · exact List.Sublist.refl _

theorem member?_eq_head? (name : String) (members : List (String × Json)) :
    member? name members = (values name members).head? := by
  induction members with
  | nil => rfl
  | cons m members ih =>
    rw [member?, values_cons]
    split
    · rfl
    · exact ih

theorem mem_of_mem_values {name : String} {j : Json} {members : List (String × Json)}
    (h : j ∈ values name members) : (name, j) ∈ members := by
  obtain ⟨m, hfilter, rfl⟩ := List.mem_map.1 h
  obtain ⟨hmem, hname⟩ := List.mem_filter.1 hfilter
  obtain rfl : m.1 = name := by simpa using hname
  exact hmem

theorem values_eq_nil {name : String} {members : List (String × Json)}
    (missing : ∀ m ∈ members, m.1 ≠ name) : values name members = [] :=
  List.eq_nil_iff_forall_not_mem.2 fun _ hj => missing _ (mem_of_mem_values hj) rfl

/-- Members may be left out by names other than the one that is looked for. -/
theorem values_filter {p : String → Bool} {name : String} (kept : p name = true)
    (members : List (String × Json)) :
    values name (members.filter fun m => p m.1) = values name members := by
  rw [values, values, List.filter_filter]
  congr 1
  refine List.filter_congr fun m _ => ?_
  by_cases h : m.1 = name <;> simp [h, kept]

/-- Members that all have names of their own occur once. -/
theorem values_of_mem {members : List (String × Json)} (own : (members.map (·.1)).Nodup)
    {m : String × Json} (h : m ∈ members) : values m.1 members = [m.2] := by
  induction members with
  | nil => exact nomatch h
  | cons n members ih =>
    obtain ⟨hn, hown⟩ := List.nodup_cons.1 own
    have hother : ∀ o ∈ members, o.1 ≠ n.1 := fun o ho heq => hn (List.mem_map.2 ⟨o, ho, heq⟩)
    rw [values_cons]
    rcases List.mem_cons.1 h with rfl | h
    · rw [if_pos rfl, values_eq_nil hother]
    · rw [if_neg (hother m h).symm, ih hown h]

theorem length_values_le {members : List (String × Json)} (own : (members.map (·.1)).Nodup)
    (name : String) : (values name members).length ≤ 1 := by
  cases hvalues : values name members with
  | nil => exact Nat.zero_le 1
  | cons j js =>
    have hmem : (name, j) ∈ members := mem_of_mem_values (hvalues ▸ List.mem_cons_self)
    rw [← hvalues, values_of_mem own hmem]
    exact Nat.le_refl 1

theorem member?_of_mem {members : List (String × Json)} (own : (members.map (·.1)).Nodup)
    {m : String × Json} (h : m ∈ members) : member? m.1 members = some m.2 := by
  rw [member?_eq_head?, values_of_mem own h, List.head?_cons]

namespace Fields

/-! ### Objects -/

/-- Members among which no problem shows hold no field twice, and none that was seen before. -/
theorem single_of_survey {fields : List Field} {members : List (String × Json)}
    {seen : List String} (h : survey fields seen members = none) :
    ∀ x ∈ fields, (values x.name members).length ≤ 1 ∧
      (x.name ∈ seen → values x.name members = []) := by
  induction members generalizing seen with
  | nil => exact fun x _ => ⟨Nat.zero_le 1, fun _ => rfl⟩
  | cons m members ih =>
    intro x hx
    obtain ⟨name, j⟩ := m
    rw [survey] at h
    rw [values_cons]
    split at h
    · rename_i y hy
      split at h
      · exact nomatch h
      · rename_i hnew
        split at h
        · exact nomatch h
        · obtain ⟨hone, hseen⟩ := ih h x hx
          split
          · rename_i hname
            subst hname
            rw [hseen List.mem_cons_self]
            exact ⟨Nat.le_refl 1, fun hold => absurd hold hnew⟩
          · exact ⟨hone, fun hold => hseen (List.mem_cons_of_mem _ hold)⟩
    · rename_i hnone
      split at h
      · exact nomatch h
      · have hne : name ≠ x.name := by
          rintro rfl
          exact absurd (List.find?_eq_none.1 hnone x hx) (by simp)
        rw [if_neg hne]
        exact ih h x hx

/-- Fields that occur once and have no problem let none show among the members. -/
theorem survey_eq_none {fields : List Field} {members : List (String × Json)} {seen : List String}
    (whole : ∀ m ∈ members, m.2.broken = false)
    (single : ∀ x ∈ fields, (values x.name members).length ≤ 1)
    (new : ∀ x ∈ fields, x.name ∈ seen → values x.name members = [])
    (fine : ∀ x ∈ fields, ∀ j ∈ values x.name members, x.problem? j = none) :
    survey fields seen members = none := by
  induction members generalizing seen with
  | nil => rfl
  | cons m members ih =>
    obtain ⟨name, j⟩ := m
    obtain ⟨hj, hwhole⟩ := List.forall_mem_cons.1 whole
    have hsub (x : Field) := values_sublist x.name (name, j) members
    have hsingle : ∀ x ∈ fields, (values x.name members).length ≤ 1 :=
      fun x hx => Nat.le_trans (hsub x).length_le (single x hx)
    have hfine : ∀ x ∈ fields, ∀ j ∈ values x.name members, x.problem? j = none :=
      fun x hx j hj => fine x hx j ((hsub x).subset hj)
    have hold : ∀ x ∈ fields, x.name ∈ seen → values x.name members = [] :=
      fun x hx hseen => List.sublist_nil.1 (new x hx hseen ▸ hsub x)
    rw [survey]
    cases hfind : fields.find? (·.name = name) with
    | none =>
      simp only [hj, Bool.false_eq_true, if_false]
      exact ih hwhole hsingle hold hfine
    | some x =>
      have hx : x ∈ fields := List.mem_of_find?_eq_some hfind
      obtain rfl : x.name = name := by simpa using List.find?_some hfind
      have hvalues : values x.name ((x.name, j) :: members) = j :: values x.name members := by
        rw [values_cons, if_pos rfl]
      have hnew : x.name ∉ seen := fun hseen => by simpa [hvalues] using new x hx hseen
      have hnone : values x.name members = [] := by simpa [hvalues] using single x hx
      simp only [hnew, if_false, fine x hx j (by rw [hvalues]; exact List.mem_cons_self)]
      refine ih hwhole hsingle (fun y hy hseen => ?_) hfine
      rcases List.mem_cons.1 hseen with hname | hseen
      · rw [hname, hnone]
      · exact hold y hy hseen

/-- The record of an object is the one that its members make up, each field occurring once at
most. -/
theorem ofObject_eq_ok_iff {f : Fields α} {members : List (String × Json)} {a : α}
    (whole : ∀ m ∈ members, m.2.broken = false) :
    f.ofObject members = .ok a ↔ (∀ x ∈ f.list, (values x.name members).length ≤ 1) ∧
      f.build (member? · members) = .ok a := by
  rw [ofObject]
  constructor
  · intro h
    split at h
    · cases h
    rename_i hsurvey
    split at h
    · cases h
    exact ⟨fun x hx => (single_of_survey hsurvey x hx).1, h⟩
  · rintro ⟨single, built⟩
    have hfine : ∀ x ∈ f.list, ∀ j ∈ values x.name members, x.problem? j = none := by
      intro x hx j hj
      refine (f.fine built x hx).2 j ?_
      obtain ⟨i, hi⟩ : ∃ i, values x.name members = [i] :=
        List.length_eq_one_iff.1
          (Nat.le_antisymm (single x hx) (List.length_pos_of_mem hj))
      rw [hi] at hj
      rw [member?_eq_head?, hi, List.head?_cons, List.mem_singleton.1 hj]
      rfl
    have hpresent : f.list.find? (fun x => x.presence = .required &&
        (member? x.name members).isNone) = none := by
      rw [List.find?_eq_none]
      intro x hx hmissing
      simp only [Bool.and_eq_true, decide_eq_true_eq, Option.isNone_iff_eq_none] at hmissing
      exact (f.fine built x hx).1 hmissing.2 hmissing.1
    rw [survey_eq_none whole single (fun _ _ h => absurd h List.not_mem_nil) hfine, hpresent]
    exact built

/-! ### Lists -/

theorem absent_eq_none_iff {fields : List Field} {n : Nat} :
    absent fields n = none ↔ ∀ x ∈ fields.drop n, x.presence = .defaulted := by
  rw [absent, List.find?_eq_none]
  constructor
  · intro h x hx
    obtain ⟨i, hi, rfl⟩ := List.mem_iff_getElem.1 hx
    rw [List.length_drop] at hi
    have hplace := h (n + i) (List.mem_range.2 (by omega))
    simpa [List.getElem_drop, List.getElem?_eq_getElem (show n + i < fields.length by omega)]
      using hplace
  · intro h i hi
    have hlt : i < fields.length := List.mem_range.1 hi
    by_cases hn : n ≤ i
    · have hdrop : i - n < (fields.drop n).length := by rw [List.length_drop]; omega
      have hmem := List.getElem_mem hdrop
      rw [List.getElem_drop] at hmem
      have hplace : n + (i - n) = i := by omega
      simp [hn, List.getElem?_eq_getElem hlt, h _ (by simpa only [hplace] using hmem)]
    · simp [hn]

/-- Items that make up fields under their names have no problem. -/
theorem itemProblem_eq_none {fields : List Field} {items : List Json}
    (own : (fields.map (·.name)).Nodup)
    (fine : ∀ x ∈ fields, ∀ j ∈ member? x.name ((fields.map (·.name)).zip items),
      x.problem? j = none) : itemProblem fields items = none := by
  induction fields generalizing items with
  | nil => cases items <;> rfl
  | cons x fields ih =>
    cases items with
    | nil => rfl
    | cons j items =>
      obtain ⟨hx, hown⟩ := List.nodup_cons.1 own
      rw [itemProblem, fine x List.mem_cons_self j (by simp [member?])]
      refine ih hown fun y hy i hi => fine y (List.mem_cons_of_mem x hy) i ?_
      have hne : x.name ≠ y.name := fun h => hx (List.mem_map.2 ⟨y, hy, h.symm⟩)
      rwa [List.map_cons, List.zip_cons_cons, member?, if_neg hne]

/-- The record of a list is the one that its items make up under the names of the fields, of which
only the last may be missing. -/
theorem ofList_eq_ok_iff {shape : String} {tooLong : Nat → Problem} {f : Fields α}
    {items : List Json} {a : α} (own : (f.list.map (·.name)).Nodup) :
    f.ofList shape tooLong items = .ok a ↔ items.length ≤ f.count ∧
      (∀ x ∈ f.list.drop items.length, x.presence = .defaulted) ∧
      f.build (member? · ((f.list.map (·.name)).zip items)) = .ok a := by
  rw [ofList]
  constructor
  · intro h
    split at h
    · cases h
    split at h
    · cases h
    rename_i habsent
    split at h
    · cases h
    rename_i hlong
    exact ⟨Nat.not_lt.1 hlong, absent_eq_none_iff.1 habsent, h⟩
  · rintro ⟨short, omitted, built⟩
    rw [itemProblem_eq_none own fun x hx => (f.fine built x hx).2, absent_eq_none_iff.2 omitted]
    dsimp only
    rw [if_neg (Nat.not_lt.2 short)]
    exact built

/-- A record that is decoded was made up by its fields. -/
theorem exists_build_of_decode {f : Fields α} {shape : String}
    {tooLong : Nat → Problem} {j : Json} {a : α} (h : f.decode shape tooLong j = .ok a) :
    ∃ find, f.build find = .ok a := by
  cases j with
  | obj members =>
    rw [Fields.decode, ofObject] at h
    split at h
    · cases h
    split at h
    · cases h
    exact ⟨_, h⟩
  | arr items =>
    rw [Fields.decode, ofList] at h
    split at h
    · cases h
    split at h
    · cases h
    split at h
    · cases h
    exact ⟨_, h⟩
  | _ => cases h

/-! ### Written records -/

/-- Members of an object make up a record, whatever else can be looked up. -/
def Written (f : Fields α) (members : List (String × Json)) (a : α) : Prop :=
  ∀ find : String → Option Json, (∀ m ∈ members, find m.1 = some m.2) → f.build find = .ok a

theorem written_done (a : α) : (done a).Written [] a := fun _ _ => rfl

theorem Written.also {f : Fields (α → β)} {g : Fields α} {fs gs : List (String × Json)}
    {make : α → β} {a : α} (hf : f.Written fs make) (hg : g.Written gs a) :
    (f.also g).Written (fs ++ gs) (make a) := by
  intro find hfind
  have hmake := hf find fun m hm => hfind m (List.mem_append_left gs hm)
  have harg := hg find fun m hm => hfind m (List.mem_append_right fs hm)
  simp only [Fields.also, hmake, harg, bind, Except.bind]

theorem written_required {d : Decoder α} {j : Json} {a : α} (name : String) (h : d j = .ok a) :
    (required name d).Written [(name, j)] a := by
  intro find hfind
  simp only [required, hfind (name, j) List.mem_cons_self, h]

theorem written_optionalField {d : Decoder α} {j : Json} {a : Option α} {presence : Presence}
    (spare : presence ≠ .required) (name : String) (h : d.optional j = .ok a) :
    (optionalField presence spare name d).Written [(name, j)] a := by
  intro find hfind
  simp only [optionalField, hfind (name, j) List.mem_cons_self, h]

/-- A record is decoded from the members that it is written as. -/
theorem Written.ofObject {f : Fields α} {members : List (String × Json)} {a : α}
    (h : f.Written members a) (own : (members.map (·.1)).Nodup)
    (whole : ∀ m ∈ members, m.2.broken = false) : f.ofObject members = .ok a :=
  (ofObject_eq_ok_iff whole).2
    ⟨fun x _ => length_values_le own x.name, h _ fun _ hm => member?_of_mem own hm⟩

/-- A record of one field is decoded from the member for it. -/
theorem ofObject_single {make : α → β} {d : Decoder α} {j : Json} {a : α} (name : String)
    (h : d j = .ok a) (whole : j.broken = false) :
    ((done make).also (required name d)).ofObject [(name, j)] = .ok (make a) :=
  ((written_done make).also (written_required name h)).ofObject (List.pairwise_singleton _ name)
    (List.forall_mem_singleton.2 whole)

/-- An object whose members have names of their own and make up a record. -/
def Depicts (f : Fields α) (j : Json) (a : α) : Prop :=
  ∃ members, j = .obj members ∧ f.Written members a ∧ (members.map (·.1)).Nodup

theorem Depicts.decode {f : Fields α} {j : Json} {a : α} (h : f.Depicts j a)
    (whole : j.broken = false) (shape : String) (tooLong : Nat → Problem) :
    f.decode shape tooLong j = .ok a := by
  obtain ⟨members, rfl, hwritten, hown⟩ := h
  exact hwritten.ofObject hown (brokenMembers_eq_false_iff.1 whole)

/-- A record is read from the text of an object that makes it up. -/
theorem Depicts.ofText {f : Fields α} {j : Json} {a : α} (h : f.Depicts j a) {depth : Nat}
    (plain : Plain depth j) (shallow : depth ≤ depthLimit) (shape : String) :
    f.ofText shape j.write = .ok a := by
  obtain ⟨hroot, hsound, -⟩ := readText_spells (spells_write plain) shallow false
  have hdecode : f.streamed shape j = .ok a := h.decode (whole_of_plain plain) shape _
  rw [Fields.ofText, Document.decode, hroot, hdecode, hsound]
  rfl

end Fields

end Agora.Json
