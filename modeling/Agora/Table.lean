/-!
Tables keyed by ids. A table is a list of entries in strictly increasing order of their keys, so
that a table is determined by what it holds under each key, and listing one never depends on the
order in which it was filled. Main statements: `get?` after each operation, and two tables that
hold the same under every key are equal.
-/

namespace Agora

/-- A finite map from strings, its entries in strictly increasing order of keys. -/
structure Table (α : Type u) where
  entries : List (String × α)
  sorted : entries.Pairwise fun a b => a.1 < b.1
  deriving DecidableEq

namespace Table

variable {α : Type u} {β : Type v}

/-- The table that holds nothing. -/
def empty : Table α := ⟨[], .nil⟩

instance : Inhabited (Table α) := ⟨empty⟩

/-- What stands under a key in a list of entries. -/
def find (k : String) : List (String × α) → Option α
  | [] => none
  | e :: es => if e.1 = k then some e.2 else find k es

/-- What a table holds under a key. -/
def get? (t : Table α) (k : String) : Option α := find k t.entries

/-- Whether a table holds something under a key. -/
def has (t : Table α) (k : String) : Bool := (t.get? k).isSome

/-- The number of entries. -/
def size (t : Table α) : Nat := t.entries.length

/-- The keys, in increasing order. -/
def keys (t : Table α) : List String := t.entries.map (·.1)

/-- What a table holds, in the order of the keys. -/
def values (t : Table α) : List α := t.entries.map (·.2)

/-- An entry put into its place among sorted entries; it replaces one with its key. -/
def place (k : String) (v : α) : List (String × α) → List (String × α)
  | [] => [(k, v)]
  | e :: es =>
    if k < e.1 then (k, v) :: e :: es
    else if e.1 = k then (k, v) :: es
    else e :: place k v es

theorem fst_of_mem_place {k : String} {v : α} {e : String × α} :
    ∀ {es : List (String × α)}, e ∈ place k v es → e.1 = k ∨ e ∈ es
  | [], h => by simp [place] at h; simp [h]
  | d :: es, h => by
    unfold place at h
    split at h
    · rcases List.mem_cons.1 h with rfl | h
      · exact .inl rfl
      · exact .inr h
    · split at h
      · rcases List.mem_cons.1 h with rfl | h
        · exact .inl rfl
        · exact .inr (List.mem_cons_of_mem _ h)
      · rcases List.mem_cons.1 h with rfl | h
        · exact .inr (List.mem_cons_self ..)
        · rcases fst_of_mem_place h with h | h
          · exact .inl h
          · exact .inr (List.mem_cons_of_mem _ h)

theorem sorted_place {k : String} {v : α} :
    ∀ {es : List (String × α)}, (es.Pairwise fun a b => a.1 < b.1) →
      (place k v es).Pairwise fun a b => a.1 < b.1
  | [], _ => by simp [place]
  | d :: es, h => by
    obtain ⟨hd, hes⟩ := List.pairwise_cons.1 h
    unfold place
    split
    · rename_i hk
      refine List.pairwise_cons.2 ⟨fun e he => ?_, h⟩
      rcases List.mem_cons.1 he with rfl | he
      · exact hk
      · exact String.lt_trans hk (hd e he)
    · split
      · rename_i hk
        exact List.pairwise_cons.2 ⟨fun e he => hk ▸ hd e he, hes⟩
      · rename_i hlt hne
        have hdk : d.1 < k := Decidable.byContradiction fun h =>
          hne (String.le_antisymm (String.not_lt.1 hlt) (String.not_lt.1 h))
        refine List.pairwise_cons.2 ⟨fun e he => ?_, sorted_place hes⟩
        rcases fst_of_mem_place he with he | he
        · exact he ▸ hdk
        · exact hd e he

/-- The table with a value put under a key, in place of what stood there. -/
def insert (t : Table α) (k : String) (v : α) : Table α :=
  ⟨place k v t.entries, sorted_place t.sorted⟩

/-- The table without what stood under a key. -/
def erase (t : Table α) (k : String) : Table α :=
  ⟨t.entries.filter (·.1 ≠ k), t.sorted.filter _⟩

/-- The table with every value replaced, seen together with its key. -/
def map (f : String → α → β) (t : Table α) : Table β :=
  ⟨t.entries.map fun e => (e.1, f e.1 e.2), t.sorted.map _ fun _ _ h => h⟩

/-! ### What a table holds after each operation -/

theorem find_eq_none_of_lt {k : String} :
    ∀ {es : List (String × α)}, (∀ e ∈ es, k < e.1) → find k es = none
  | [], _ => rfl
  | d :: es, h => by
    have hd : d.1 ≠ k := fun he =>
      String.lt_irrefl k (by simpa [he] using h d (List.mem_cons_self ..))
    simp [find, hd, find_eq_none_of_lt fun e he => h e (List.mem_cons_of_mem _ he)]

theorem find_place {k j : String} {v : α} :
    ∀ es : List (String × α), find j (place k v es) = if k = j then some v else find j es
  | [] => by by_cases h : k = j <;> simp [place, find, h]
  | d :: es => by
    unfold place
    split
    · by_cases h : k = j <;> simp [find, h]
    · split
      · rename_i hk
        by_cases h : k = j <;> simp [find, h, hk]
      · rename_i hlt hne
        by_cases h : k = j
        · subst h; simp [find, hne, find_place es]
        · simp [find, h, find_place es]

@[simp] theorem get?_empty (k : String) : (empty : Table α).get? k = none := rfl

@[simp] theorem get?_insert (t : Table α) (k j : String) (v : α) :
    (t.insert k v).get? j = if k = j then some v else t.get? j := find_place _

@[simp] theorem get?_map (f : String → α → β) (t : Table α) (k : String) :
    (t.map f).get? k = (t.get? k).map (f k) := by
  suffices h : ∀ es : List (String × α),
      find k (es.map fun e => (e.1, f e.1 e.2)) = (find k es).map (f k) from h t.entries
  intro es
  induction es with
  | nil => rfl
  | cons d es ih => by_cases h : d.1 = k <;> simp_all [find]

@[simp] theorem get?_erase (t : Table α) (k j : String) :
    (t.erase k).get? j = if k = j then none else t.get? j := by
  suffices h : ∀ es : List (String × α),
      find j (es.filter (·.1 ≠ k)) = if k = j then none else find j es from h t.entries
  intro es
  induction es with
  | nil => simp [find]
  | cons d es ih =>
    by_cases hd : d.1 = k <;> by_cases hj : d.1 = j <;> by_cases hk : k = j <;> simp_all [find]

/-- Sorted lists of entries that hold the same under every key are equal. -/
theorem eq_of_find_eq :
    ∀ {es ds : List (String × α)}, (es.Pairwise fun a b => a.1 < b.1) →
      (ds.Pairwise fun a b => a.1 < b.1) → (∀ k, find k es = find k ds) → es = ds
  | [], [], _, _, _ => rfl
  | [], d :: ds, _, _, h => by simpa [find] using h d.1
  | e :: es, [], _, _, h => by simpa [find] using h e.1
  | e :: es, d :: ds, he, hd, h => by
    obtain ⟨he₁, he₂⟩ := List.pairwise_cons.1 he
    obtain ⟨hd₁, hd₂⟩ := List.pairwise_cons.1 hd
    have hk : e.1 = d.1 := by
      refine String.le_antisymm (String.not_lt.1 fun hlt => ?_) (String.not_lt.1 fun hlt => ?_)
      · have hne : e.1 ≠ d.1 := fun hq => String.lt_irrefl d.1 (hq ▸ hlt)
        have := h d.1
        rw [find, if_neg hne, find, if_pos rfl,
          find_eq_none_of_lt fun x hx => String.lt_trans hlt (he₁ x hx)] at this
        cases this
      · have hne : d.1 ≠ e.1 := fun hq => String.lt_irrefl e.1 (hq ▸ hlt)
        have := h e.1
        rw [find, if_pos rfl, find, if_neg hne,
          find_eq_none_of_lt fun x hx => String.lt_trans hlt (hd₁ x hx)] at this
        cases this
    have hv : e.2 = d.2 := by simpa [find, hk] using h e.1
    have hr : es = ds := eq_of_find_eq he₂ hd₂ fun k => by
      by_cases hek : e.1 = k
      · rw [find_eq_none_of_lt fun x hx => hek ▸ he₁ x hx,
          find_eq_none_of_lt fun x hx => hek ▸ hk ▸ hd₁ x hx]
      · have hdk : d.1 ≠ k := fun q => hek (hk.trans q)
        simpa [find, hek, hdk] using h k
    rw [hr, Prod.ext hk hv]

/-- A table is determined by what it holds under each key. -/
theorem ext {s t : Table α} (h : ∀ k, s.get? k = t.get? k) : s = t := by
  obtain ⟨es, hs⟩ := s
  obtain ⟨ds, ht⟩ := t
  have : es = ds := eq_of_find_eq hs ht h
  subst this
  rfl

/-- The table of a list of entries; a later entry replaces an earlier one with its key. -/
def ofList (es : List (String × α)) : Table α := es.foldl (fun t e => t.insert e.1 e.2) empty

end Table

/-- A set of ids. -/
abbrev IdSet := Table Unit

namespace IdSet

/-- The set of the ids in a list. -/
def ofIds (ids : List String) : IdSet := Table.ofList (ids.map fun i => (i, ()))

end IdSet

end Agora
