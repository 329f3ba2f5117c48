import Agora.Entity.Codec
import Agora.Proofs.Table
import Agora.Proofs.Timestamp
import Agora.Proofs.Writing
import Mathlib.Data.List.Forall2

/-!
What decoders take. The decoders for texts, truth values, integers, and lists and optional values of
these take exactly what their values are written as, so that every other JSON value is refused. A
point in time has many texts, a set or a table many orders: they are decoded from each that they may
be written as.
-/

namespace Agora.Json

variable {α : Type}

namespace Decoder

/-- A decoder takes what its values are written as, and nothing else. -/
def Exact (d : Decoder α) (write : α → Json) : Prop := ∀ {j a}, d j = .ok a ↔ j = write a

theorem Exact.ok {d : Decoder α} {write : α → Json} (exact : d.Exact write) (a : α) :
    d (write a) = .ok a := exact.2 rfl

theorem exact_text : text.Exact .str := by
  intro j s
  constructor
  · intro h
    cases j <;> cases h
    rfl
  · rintro rfl
    rfl

theorem exact_bool : bool.Exact .bool := by
  intro j b
  constructor
  · intro h
    cases j <;> cases h
    rfl
  · rintro rfl
    rfl

theorem intBetween_eq_ok_iff {low high : Int} {expected : String} {j : Json} {i : Int} :
    intBetween low high expected j = .ok i ↔ j = .int i ∧ low ≤ i ∧ i ≤ high := by
  constructor
  · intro h
    unfold intBetween at h
    split at h
    · split at h
      · cases h
        exact ⟨rfl, ‹_›⟩
      · exact nomatch h
    · exact nomatch h
  · rintro ⟨rfl, hrange⟩
    simp [intBetween, Json.int, hrange]

theorem map_eq_ok_iff {ε β γ : Type} {e : Except ε β} {f : β → γ} {c : γ} :
    e.map f = .ok c ↔ ∃ b, e = .ok b ∧ f b = c := by
  cases e <;> simp [Except.map]

theorem exact_int64 : int64.Exact karmaJson := by
  intro j k
  rw [int64, map_eq_ok_iff]
  constructor
  · rintro ⟨i, hi, rfl⟩
    obtain ⟨rfl, hlow, hhigh⟩ := intBetween_eq_ok_iff.1 hi
    rw [karmaJson, Int64.toInt_ofInt_of_le hlow (Int.lt_add_one_of_le hhigh)]
  · rintro rfl
    have hhigh : k.toInt ≤ 0x7fffffffffffffff := Int.le_of_lt_add_one k.toInt_lt
    exact ⟨k.toInt, intBetween_eq_ok_iff.2 ⟨rfl, k.le_toInt, hhigh⟩, Int64.ofInt_toInt k⟩

theorem exact_uint64 : uint64.Exact fun n => .int n.toNat := by
  intro j n
  rw [uint64, map_eq_ok_iff]
  constructor
  · rintro ⟨i, hi, rfl⟩
    obtain ⟨rfl, hlow, hhigh⟩ := intBetween_eq_ok_iff.1 hi
    have hnat : i.toNat.toUInt64.toNat = i.toNat := UInt64.toNat_ofNat_of_lt' (by
      have : UInt64.size = 0x10000000000000000 := rfl
      omega)
    dsimp only
    rw [hnat, Int.toNat_of_nonneg hlow]
  · rintro rfl
    have hlt := n.toNat_lt
    exact ⟨n.toNat, intBetween_eq_ok_iff.2 ⟨rfl, by omega, by omega⟩, by simp⟩

/-- An optional value is taken from `null` or from what it is written as. -/
theorem exact_optional {d : Decoder α} {write : α → Json} (exact : d.Exact write)
    (filled : ∀ a, write a ≠ .null) : d.optional.Exact (Json.optional write) := by
  intro j a
  by_cases hnull : j = .null
  · subst hnull
    cases a with
    | none => simp [Decoder.optional, Json.optional]
    | some a => simp [Decoder.optional, Json.optional, (filled a).symm]
  · have hmap : d.optional j = (d j).map some := by
      rw [Decoder.optional]
      exact hnull
    rw [hmap, map_eq_ok_iff]
    cases a with
    | none => simp [Json.optional, hnull]
    | some a => simpa [Json.optional] using exact

theorem mapM_eq_ok_iff {ε β γ : Type} {f : β → Except ε γ} {bs : List β} {cs : List γ} :
    bs.mapM f = .ok cs ↔ List.Forall₂ (fun b c => f b = .ok c) bs cs := by
  induction bs generalizing cs with
  | nil => simp [pure, Except.pure, eq_comm]
  | cons b bs ih =>
    rw [List.mapM_cons, List.forall₂_cons_left_iff]
    cases hb : f b with
    | error p => simp [bind, Except.bind]
    | ok c =>
      cases hbs : bs.mapM f with
      | error p => simp [bind, Except.bind, ← ih, hbs]
      | ok cs => simp [bind, Except.bind, pure, Except.pure, ← ih, hbs, eq_comm]

theorem exact_list {d : Decoder α} {write : α → Json} (exact : d.Exact write) :
    d.list.Exact fun as => .arr (as.map write) := by
  intro j as
  cases j with
  | arr items =>
    have hexact : (fun j a => d j = .ok a) = fun j a => j = write a := by
      funext j a
      exact propext exact
    rw [list, mapM_eq_ok_iff, hexact, Json.arr.injEq, ← List.forall₂_eq_eq_eq,
      List.forall₂_map_right_iff]
  | _ => simp [list]

/-- A list is decoded from what its items are written as. -/
theorem list_of_ok {d : Decoder α} {write : α → Json} (h : ∀ a, d (write a) = .ok a)
    (as : List α) : d.list (.arr (as.map write)) = .ok as := by
  rw [list, mapM_eq_ok_iff, List.forall₂_map_left_iff, List.forall₂_same]
  exact fun a _ => h a

theorem instant_toJson (t : Timestamp) : instant t.toJson = .ok t := by
  rw [Timestamp.toJson, Timestamp.toText, instant, String.toList_ofList, Timestamp.read_write]

/-- A set is decoded from a list of its ids in any order. -/
theorem ids_of_perm {t : IdSet} {members : List String} (perm : members.Perm t.keys) :
    ids (idList members) = .ok t := by
  have hkeys : t.keys.map (fun i => (i, ())) = t.entries := by
    rw [Table.keys, List.map_map]
    exact List.map_id t.entries
  have hentries : (members.map fun i => (i, ())).Perm t.entries := hkeys ▸ perm.map _
  rw [ids, idList, list_of_ok exact_text.ok, Except.map, IdSet.ofIds, Table.ofList_of_perm hentries]

/-- A table is decoded from an object of its entries in any order. -/
theorem table_of_perm {d : Decoder α} {write : α → Json} (h : ∀ a, d (write a) = .ok a)
    {t : Table α} {entries : List (String × α)} (perm : entries.Perm t.entries) :
    d.table (.obj (entries.map fun e => (e.1, write e.2))) = .ok t := by
  have hmembers : (entries.map fun e => (e.1, write e.2)).mapM
      (fun m => (d m.2).map fun a => (m.1, a)) = .ok entries := by
    rw [mapM_eq_ok_iff, List.forall₂_map_left_iff, List.forall₂_same]
    intro e _
    rw [h, Except.map]
  rw [table, hmembers, Except.map, Table.ofList_of_perm perm]

end Decoder

end Agora.Json
