import Agora.Table
import Mathlib.Algebra.Ring.Nat
import Mathlib.Data.List.Dedup

/-!
What a table holds, as a list. Putting a value under a key leaves the values under the other keys
as they are, so the values are, up to their order, the new one and those of the table without the
key. Sums and counts over a table follow: they change by the new value less the one it replaces.
-/

namespace Agora.Table

variable {α : Type u}

theorem filter_eq_self_of_lt {k : String} {es : List (String × α)} (h : ∀ e ∈ es, k < e.1) :
    es.filter (·.1 ≠ k) = es := by
  refine List.filter_eq_self.2 fun e he => ?_
  have hne : e.1 ≠ k := fun heq => String.lt_irrefl k (heq ▸ h e he)
  simpa using hne

/-- An entry put into its place stands among the entries with other keys. -/
theorem place_perm (k : String) (v : α) :
    ∀ {es : List (String × α)}, (es.Pairwise fun a b => a.1 < b.1) →
      (place k v es).Perm ((k, v) :: es.filter (·.1 ≠ k))
  | [], _ => by simp [place]
  | d :: es, h => by
    obtain ⟨hd, hes⟩ := List.pairwise_cons.1 h
    unfold place
    split
    · rename_i hk
      have hlt : ∀ e ∈ d :: es, k < e.1 := by
        rintro e (_ | ⟨_, he⟩)
        · exact hk
        · exact String.lt_trans hk (hd e he)
      rw [filter_eq_self_of_lt hlt]
    · split
      · rename_i hk
        rw [List.filter_cons_of_neg (by simp [hk]), filter_eq_self_of_lt fun e he => hk ▸ hd e he]
      · rename_i hk
        rw [List.filter_cons_of_pos (by simpa using hk)]
        exact ((place_perm k v hes).cons d).trans (.swap ..)

theorem insert_eq_self {t : Table α} {k : String} {v : α} (h : t.get? k = some v) :
    t.insert k v = t := by
  refine ext fun j => ?_
  rw [get?_insert]
  split
  · rename_i hk; rw [← hk, h]
  · rfl

theorem erase_eq_self {t : Table α} {k : String} (h : t.get? k = none) : t.erase k = t := by
  refine ext fun j => ?_
  rw [get?_erase]
  split
  · rename_i hk; rw [← hk, h]
  · rfl

theorem insert_insert (t : Table α) (k : String) (v w : α) :
    (t.insert k v).insert k w = t.insert k w := by
  refine ext fun j => ?_
  rw [get?_insert, get?_insert, get?_insert]
  split <;> rfl

theorem insert_comm {t : Table α} {k j : String} (other : k ≠ j) (v w : α) :
    (t.insert k v).insert j w = (t.insert j w).insert k v := by
  refine ext fun i => ?_
  simp only [get?_insert]
  by_cases hk : k = i
  · have hj : j ≠ i := fun hj => other (hk.trans hj.symm)
    rw [if_pos hk, if_pos hk, if_neg hj]
  · rw [if_neg hk, if_neg hk]

theorem erase_comm (t : Table α) (k j : String) : (t.erase k).erase j = (t.erase j).erase k := by
  refine ext fun i => ?_
  rw [get?_erase, get?_erase, get?_erase, get?_erase]
  split <;> split <;> rfl

theorem insert_erase_comm {t : Table α} {k j : String} (other : k ≠ j) (v : α) :
    (t.insert k v).erase j = (t.erase j).insert k v := by
  refine ext fun i => ?_
  rw [get?_erase, get?_insert, get?_insert, get?_erase]
  by_cases hk : k = i
  · have hj : j ≠ i := fun hj => other (hk.trans hj.symm)
    rw [if_neg hj, if_pos hk, if_pos hk]
  · rw [if_neg hk, if_neg hk]

theorem has_eq_false {t : Table α} {k : String} : t.has k = false ↔ t.get? k = none := by
  simp [has]

theorem has_insert {t : Table α} {k j : String} {v : α} :
    (t.insert k v).has j = true ↔ j = k ∨ t.has j = true := by
  rw [has, get?_insert]
  split
  · rename_i heq
    simp [heq]
  · rename_i hne
    simp [has, Ne.symm hne]

/-! ### Every value replaced -/

theorem map_insert (f : α → β) (t : Table α) (k : String) (a : α) :
    (t.insert k a).map (fun _ x => f x) = (t.map fun _ x => f x).insert k (f a) := by
  refine ext fun j => ?_
  rw [get?_map, get?_insert, get?_insert, get?_map]
  split <;> rfl

theorem has_map (f : α → β) (t : Table α) (k : String) :
    (t.map fun _ x => f x).has k = t.has k := by
  rw [has, has, get?_map, Option.isSome_map]

/-! ### The entries -/

theorem nodup_keys (t : Table α) : t.keys.Nodup := by
  refine List.pairwise_map.2 (t.sorted.imp fun {a b} hlt => ?_)
  intro heq
  exact String.lt_irrefl b.1 (heq ▸ hlt)

theorem find_eq_some_iff {es : List (String × α)} (own : (es.map (·.1)).Nodup) {k : String}
    {v : α} : find k es = some v ↔ (k, v) ∈ es := by
  induction es with
  | nil => simp [find]
  | cons d es ih =>
    obtain ⟨hd, hes⟩ := List.nodup_cons.1 own
    rw [find, List.mem_cons]
    split
    · rename_i hk
      have habsent : (k, v) ∉ es := fun he => hd (List.mem_map.2 ⟨(k, v), he, hk.symm⟩)
      simp [habsent, Prod.ext_iff, hk, eq_comm]
    · rename_i hk
      have hne : (k, v) ≠ d := fun heq => hk (congrArg Prod.fst heq).symm
      rw [ih hes, or_iff_right hne]

theorem mem_entries {t : Table α} {k : String} {v : α} : (k, v) ∈ t.entries ↔ t.get? k = some v :=
  (find_eq_some_iff t.nodup_keys).symm

theorem get?_foldl_insert {es : List (String × α)} (own : (es.map (·.1)).Nodup) (t : Table α)
    (k : String) :
    (es.foldl (fun t e => t.insert e.1 e.2) t).get? k = (find k es).or (t.get? k) := by
  induction es generalizing t with
  | nil => rfl
  | cons e es ih =>
    obtain ⟨he, hes⟩ := List.nodup_cons.1 own
    rw [List.foldl_cons, ih hes, get?_insert, find]
    split
    · rename_i hk
      have hnone : find k es = none := Option.eq_none_iff_forall_ne_some.2 fun v hv =>
        he (List.mem_map.2 ⟨(k, v), (find_eq_some_iff hes).1 hv, hk.symm⟩)
      rw [hnone, Option.none_or, Option.some_or]
    · rfl

/-- A table is the table of its entries in any order. -/
theorem ofList_of_perm {t : Table α} {es : List (String × α)} (perm : es.Perm t.entries) :
    ofList es = t := by
  have hkeys : (es.map (·.1)).Perm t.keys := perm.map (·.1)
  have hown : (es.map (·.1)).Nodup := hkeys.nodup_iff.2 t.nodup_keys
  refine ext fun k => Option.ext fun v => ?_
  rw [ofList, get?_foldl_insert hown, get?_empty, Option.or_none, find_eq_some_iff hown,
    perm.mem_iff, mem_entries]

/-- A table that holds something just under some labels has one entry for each of them. -/
theorem entries_perm {t : Table α} {labels : List String} {value : String → α}
    (h : ∀ l, t.get? l = if l ∈ labels then some (value l) else none) :
    t.entries.Perm (labels.dedup.map fun l => (l, value l)) := by
  have hentries : t.entries.Nodup := List.Nodup.of_map Prod.fst t.nodup_keys
  have hlabels : (labels.dedup.map fun l => (l, value l)).Nodup :=
    labels.nodup_dedup.map fun l l' heq => congrArg Prod.fst heq
  refine (List.perm_ext_iff_of_nodup hentries hlabels).2 fun ⟨l, v⟩ => ?_
  rw [mem_entries, h, List.mem_map]
  constructor
  · intro hv
    split at hv
    · rename_i hl
      exact ⟨l, List.mem_dedup.2 hl, Prod.ext rfl (Option.some.inj hv)⟩
    · exact nomatch hv
  · rintro ⟨k, hk, heq⟩
    cases heq
    exact if_pos (List.mem_dedup.1 hk)

theorem mem_values {t : Table α} {v : α} : v ∈ t.values ↔ ∃ k, t.get? k = some v := by
  rw [values, List.mem_map]
  constructor
  · rintro ⟨⟨k, w⟩, he, rfl⟩
    exact ⟨k, mem_entries.1 he⟩
  · rintro ⟨k, hk⟩
    exact ⟨(k, v), mem_entries.2 hk, rfl⟩

/-- Values that know the key they are filed under are all different. -/
theorem nodup_map_values {t : Table α} {f : α → String} (own : ∀ k v, t.get? k = some v → f v = k) :
    (t.values.map f).Nodup := by
  have hkeys : t.values.map f = t.keys := by
    rw [values, List.map_map, keys]
    exact List.map_congr_left fun e he => own e.1 e.2 (mem_entries.1 he)
  rw [hkeys]
  exact t.nodup_keys

/-! ### The values -/

theorem values_insert_perm (t : Table α) (k : String) (v : α) :
    (t.insert k v).values.Perm (v :: (t.erase k).values) :=
  (place_perm k v t.sorted).map Prod.snd

theorem values_insert_perm_of_none {t : Table α} {k : String} (h : t.get? k = none) (v : α) :
    (t.insert k v).values.Perm (v :: t.values) := by
  have hp := values_insert_perm t k v
  rwa [erase_eq_self h] at hp

theorem values_perm {t : Table α} {k : String} {v : α} (h : t.get? k = some v) :
    t.values.Perm (v :: (t.erase k).values) := by
  have hp := values_insert_perm t k v
  rwa [insert_eq_self h] at hp

theorem size_eq_length_values (t : Table α) : t.size = t.values.length := by
  simp [size, values]

/-- A table grows by one entry when the key is new. -/
theorem size_insert (t : Table α) (k : String) (v : α) :
    (t.insert k v).size = t.size + if t.has k then 0 else 1 := by
  rw [size_eq_length_values, size_eq_length_values, has]
  cases h : t.get? k with
  | none => rw [(values_insert_perm_of_none h v).length_eq]; rfl
  | some w => rw [(values_insert_perm t k v).length_eq, (values_perm h).length_eq]; rfl

theorem size_insert_of_none {t : Table α} {k : String} (h : t.get? k = none) (v : α) :
    (t.insert k v).size = t.size + 1 := by
  rw [size_insert, has, h]; rfl

theorem size_insert_of_some {t : Table α} {k : String} {w : α} (h : t.get? k = some w) (v : α) :
    (t.insert k v).size = t.size := by
  rw [size_insert, has, h]; rfl

/-- A table shrinks by one entry when the key was there. -/
theorem size_erase (t : Table α) (k : String) :
    (t.erase k).size + (if t.has k then 1 else 0) = t.size := by
  rw [size_eq_length_values, size_eq_length_values, has]
  cases h : t.get? k with
  | none => rw [erase_eq_self h]; rfl
  | some w => rw [(values_perm h).length_eq]; rfl

/-- What a new value adds to a sum is its own share less that of the value it replaces. -/
theorem sum_insert (f : α → Nat) (t : Table α) (k : String) (v : α) :
    ((t.insert k v).values.map f).sum + ((t.get? k).map f).getD 0 =
      (t.values.map f).sum + f v := by
  cases h : t.get? k with
  | none =>
    have hnew := ((values_insert_perm_of_none h v).map f).sum_nat
    rw [hnew, List.map_cons, List.sum_cons, Option.map_none, Option.getD_none]
    omega
  | some w =>
    have hnew := ((values_insert_perm t k v).map f).sum_nat
    have hold := ((values_perm h).map f).sum_nat
    rw [hnew, hold, List.map_cons, List.map_cons, List.sum_cons, List.sum_cons, Option.map_some,
      Option.getD_some]
    omega

/-- A count goes up by one when a value that counts comes under a new key. -/
theorem countP_insert_of_none (p : α → Bool) {t : Table α} {k : String} (h : t.get? k = none)
    (v : α) : (t.insert k v).values.countP p = t.values.countP p + if p v then 1 else 0 := by
  rw [(values_insert_perm_of_none h v).countP_eq, List.countP_cons]

/-- A count stays when a value takes the place of one that counts alike. -/
theorem countP_insert_of_some (p : α → Bool) {t : Table α} {k : String} {w : α}
    (h : t.get? k = some w) {v : α} (alike : p v = p w) :
    (t.insert k v).values.countP p = t.values.countP p := by
  rw [(values_insert_perm t k v).countP_eq, (values_perm h).countP_eq, List.countP_cons,
    List.countP_cons, alike]

end Agora.Table
