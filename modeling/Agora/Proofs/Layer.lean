import Agora.Proofs.Setting
import Mathlib.Data.List.Induction
import Mathlib.Data.List.Nodup

/-!
Layers of settings. Entries laid over a table take the places of those with the same names, and
leave the others alone; a path of two names reaches one entry of one section and nothing else. So
what a tree holds for a setting after a layer is what the layer has for it, or else what was there.
-/

namespace Agora

/-- No two entries have one name. -/
def NamesOnce (es : List (String × α)) : Prop := (es.map (·.1)).Nodup

namespace Settings.Value

/-! ### Entries -/

theorem find_put_self (k : String) (t : Value) (es : List (String × Value)) :
    find k (put k t es) = some t := by
  induction es with
  | nil => exact if_pos rfl
  | cons e es ih =>
    rw [put]
    split
    · exact if_pos rfl
    · rename_i hne
      rw [find, if_neg hne, ih]

theorem find_put_of_ne {j k : String} (h : j ≠ k) (t : Value) (es : List (String × Value)) :
    find j (put k t es) = find j es := by
  induction es with
  | nil => exact if_neg h.symm
  | cons e es ih =>
    rw [put]
    split
    · rename_i heq
      rw [find, find, if_neg h.symm, if_neg (heq ▸ h.symm)]
    · rw [find, find, ih]

theorem find_eq_none_of_not_mem {k : String} {es : List (String × Value)}
    (h : k ∉ es.map (·.1)) : find k es = none := by
  induction es with
  | nil => rfl
  | cons e es ih =>
    obtain ⟨hne, hrest⟩ := not_or.1 (mt List.mem_cons.2 h)
    rw [find, if_neg (Ne.symm hne), ih hrest]

theorem entries_asTable (t : Value) : t.asTable.entries = t.entries := by
  cases t <;> rfl

theorem entries_alter (k : String) (f : Value → Value) (t : Value) :
    (alter k f t).entries = put k (f ((find k t.entries).getD vacant)) t.entries := by
  rw [alter, entries, entries_asTable]

theorem find_alter_self (k : String) (f : Value → Value) (t : Value) :
    find k (alter k f t).entries = some (f ((find k t.entries).getD vacant)) := by
  rw [entries_alter, find_put_self]

theorem find_alter_of_ne {j k : String} (h : j ≠ k) (f : Value → Value) (t : Value) :
    find j (alter k f t).entries = find j t.entries := by
  rw [entries_alter, find_put_of_ne h]

/-! ### Tables over tables -/

/-- Entries with each name once, laid over a table. -/
theorem find_overlayAll {es : List (String × Value)} (once : NamesOnce es) (k : String)
    (below : Value) :
    find k (overlayAll es below).entries =
      ((find k es).map fun t => overlay t ((find k below.entries).getD vacant)).or
        (find k below.entries) := by
  induction es generalizing below with
  | nil => rfl
  | cons e es ih =>
    obtain ⟨hfresh, honce⟩ := List.nodup_cons.1 once
    rw [overlayAll, ih honce, find]
    split
    · rename_i heq
      subst heq
      rw [find_eq_none_of_not_mem hfresh, find_alter_self]
      rfl
    · rename_i hne
      rw [find_alter_of_ne (Ne.symm hne)]

/-- Entries laid over a table make a table. -/
theorem overlayAll_table (es : List (String × Value)) (o : Option String)
    (ts : List (String × Value)) : ∃ p us, overlayAll es (.table o ts) = .table p us := by
  induction es generalizing o ts with
  | nil => exact ⟨o, ts, rfl⟩
  | cons e es ih =>
    rw [overlayAll, alter]
    exact ih _ _

/-- A source whose keys are names and not paths is laid over a tree entry by entry. -/
theorem layer_eq_overlayAll {es : List (String × Value)}
    (names : ∀ e ∈ es, pathOf e.1 = [.entry e.1]) (below : Value) :
    layer below es = overlayAll es below := by
  induction es generalizing below with
  | nil => rfl
  | cons e es ih =>
    rw [layer, List.foldl_cons, names e List.mem_cons_self, overlayAll]
    exact ih (fun e' h => names e' (List.mem_cons_of_mem _ h)) _

end Settings.Value

open Settings Value

namespace Setting

/-! ### A file -/

/-- Entries and those of their tables have each name once. -/
def Once (es : List (String × Value)) : Prop :=
  NamesOnce es ∧ ∀ e ∈ es, NamesOnce e.2.entries

theorem mem_of_find {k : String} {t : Value} {es : List (String × Value)}
    (h : Value.find k es = some t) : (k, t) ∈ es := by
  induction es with
  | nil => cases h
  | cons e es ih =>
    rw [Value.find] at h
    split at h
    · rename_i heq
      cases h
      subst heq
      exact List.mem_cons_self
    · exact List.mem_cons_of_mem _ (ih h)

/-- The tree of a file whose sections are tables holds what the file has for each setting. -/
theorem find_overlayAll {es : List (String × Value)} (once : Once es) (h : Sectioned es)
    (k : Setting) :
    k.find (overlayAll es (.table none [])).entries =
      (k.find es).map fun t => overlay t vacant := by
  rw [find, find, Value.find_overlayAll once.1]
  cases ht : Value.find k.group es with
  | none => rfl
  | some t =>
    obtain ⟨o, ts, rfl⟩ := h k t ht
    have hnames : NamesOnce ts := once.2 _ (mem_of_find ht)
    simp only [Option.map_some, Option.some_or, Option.bind_some, overlay]
    rw [Value.find_overlayAll hnames]
    exact Option.or_none

theorem sectioned_overlayAll {es : List (String × Value)} (once : Once es) (h : Sectioned es) :
    Sectioned (overlayAll es (.table none [])).entries := by
  intro k t ht
  rw [Value.find_overlayAll once.1] at ht
  cases hs : Value.find k.group es with
  | none => rw [hs] at ht; cases ht
  | some u =>
    obtain ⟨o, ts, rfl⟩ := h k u hs
    rw [hs] at ht
    cases ht
    exact overlayAll_table ts none []

/-! ### Variables -/

/-- What the key of a variable leads to: an entry below a name, or an entry whose name has a point
and so is not that of a section. -/
inductive Leads : String → List Part → Prop
  | entry (a b : String) : Leads (a ++ "." ++ b) [.entry a, .entry b]
  | stray {key : String} (point : '.' ∈ key.toList) : Leads key [.entry key]

/-- The key of a variable sets at most one setting. -/
def Shallow (key : String) : Prop := Leads key (pathOf key)

theorem pathOf_path (k : Setting) : pathOf k.path = [.entry k.group, .entry k.key] := by
  cases k <;> decide

theorem group_ne_of_point {key : String} (point : '.' ∈ key.toList) (k : Setting) :
    k.group ≠ key := by
  rintro rfl
  revert point
  cases k <;> decide

/-- A variable changes what the tree holds for the setting that its key names, and for no other. -/
theorem find_alterPath {key : String} (h : Shallow key) (k : Setting) (v t : Value) :
    k.find (alterPath (pathOf key) (fun _ => v) t).entries =
      if key = k.path then some v else k.find t.entries := by
  by_cases hkey : key = k.path
  · rw [if_pos hkey, hkey, pathOf_path, find]
    simp only [alterPath, find_alter_self, Option.bind_some]
  · rw [if_neg hkey]
    unfold Shallow at h
    generalize pathOf key = path at h
    cases h with
    | stray point =>
      simp only [find, alterPath, find_alter_of_ne (group_ne_of_point point k)]
    | entry a b =>
      simp only [find, alterPath]
      by_cases ha : k.group = a
      · have hb : k.key ≠ b := by
          rintro rfl
          exact hkey (ha ▸ rfl)
        rw [ha, find_alter_self, Option.bind_some, find_alter_of_ne hb]
        cases Value.find a t.entries <;> rfl
      · rw [find_alter_of_ne ha]

theorem sectioned_alterPath {key : String} (h : Shallow key) {t : Value} (v : Value)
    (ht : Sectioned t.entries) : Sectioned (alterPath (pathOf key) (fun _ => v) t).entries := by
  intro k u hu
  unfold Shallow at h
  generalize pathOf key = path at h hu
  cases h with
  | stray point =>
    rw [alterPath, find_alter_of_ne (group_ne_of_point point k)] at hu
    exact ht k u hu
  | entry a b =>
    rw [alterPath] at hu
    by_cases ha : k.group = a
    · rw [ha, find_alter_self] at hu
      cases hu
      exact ⟨_, _, rfl⟩
    · rw [find_alter_of_ne ha] at hu
      exact ht k u hu

/-- The variable that sets a setting. -/
def variableIn (env : List (String × String)) (k : Setting) : Option (String × String) :=
  env.find? fun v => keyOf? v.1 = some k.path

/-- The value of a variable in the tree. -/
def leafOf (v : String × String) : Value := .leaf (some environmentOrigin) (readScalar v.2)

/-- Each variable of the program sets at most one setting, and no two have one key. -/
structure Tidy (env : List (String × String)) : Prop where
  shallow : ∀ v ∈ env, ∀ key, keyOf? v.1 = some key → Shallow key
  distinct : ∀ v ∈ env, ∀ w ∈ env, ∀ key, keyOf? v.1 = some key → keyOf? w.1 = some key → v = w

theorem Tidy.of_concat {env : List (String × String)} {v : String × String}
    (h : Tidy (env ++ [v])) : Tidy env :=
  ⟨fun w hw => h.shallow w (List.mem_append_left _ hw), fun w hw u hu =>
    h.distinct w (List.mem_append_left _ hw) u (List.mem_append_left _ hu)⟩

theorem layer_concat_of_none {env : List (String × String)} {v : String × String}
    (h : keyOf? v.1 = none) (t : Value) :
    layer t (fromEnvironment (env ++ [v])) = layer t (fromEnvironment env) := by
  rw [fromEnvironment, List.filterMap_append, List.filterMap_cons_none (by rw [h]; rfl),
    List.filterMap_nil, List.append_nil, ← fromEnvironment]

theorem layer_concat_of_some {env : List (String × String)} {v : String × String} {key : String}
    (h : keyOf? v.1 = some key) (t : Value) :
    layer t (fromEnvironment (env ++ [v])) =
      alterPath (pathOf key) (fun _ => leafOf v) (layer t (fromEnvironment env)) := by
  rw [fromEnvironment, List.filterMap_append, List.filterMap_cons_some (by rw [h]; rfl),
    List.filterMap_nil, ← fromEnvironment, layer, List.foldl_append]
  rfl

theorem variableIn_concat (env : List (String × String)) (v : String × String) (k : Setting) :
    variableIn (env ++ [v]) k =
      (variableIn env k).or (if keyOf? v.1 = some k.path then some v else none) := by
  rw [variableIn, List.find?_append, ← variableIn, List.find?_singleton]
  simp only [decide_eq_true_eq]

theorem variableIn_eq_some {env : List (String × String)} {v : String × String} {k : Setting}
    (h : variableIn env k = some v) : v ∈ env ∧ keyOf? v.1 = some k.path := by
  rw [variableIn] at h
  have hkey := List.find?_some h
  exact ⟨List.mem_of_find?_eq_some h, of_decide_eq_true hkey⟩

/-- Over a tree, the environment gives each setting the value of its variable, and leaves a setting
alone that has none. -/
theorem find_layer_environment {env : List (String × String)} (h : Tidy env) (t : Value)
    (k : Setting) :
    k.find (layer t (fromEnvironment env)).entries =
      ((variableIn env k).map leafOf).or (k.find t.entries) := by
  induction env using List.reverseRecOn with
  | nil => rfl
  | append_singleton env v ih =>
    have ih := ih h.of_concat
    rw [variableIn_concat]
    cases hv : keyOf? v.1 with
    | none => rw [layer_concat_of_none hv, ih, if_neg (by simp), Option.or_none]
    | some key =>
      have hlast : v ∈ env ++ [v] := List.mem_append_right _ List.mem_cons_self
      rw [layer_concat_of_some hv, find_alterPath (h.shallow v hlast key hv)]
      by_cases hkey : key = k.path
      · subst hkey
        rw [if_pos rfl, if_pos rfl]
        cases hw : variableIn env k with
        | none => rfl
        | some w =>
          obtain ⟨hmem, hkey⟩ := variableIn_eq_some hw
          rw [h.distinct w (List.mem_append_left _ hmem) v hlast _ hkey hv]
          rfl
      · rw [if_neg hkey, if_neg (mt Option.some.inj hkey), ih, Option.or_none]

theorem sectioned_layer_environment {env : List (String × String)} (h : Tidy env) {t : Value}
    (ht : Sectioned t.entries) : Sectioned (layer t (fromEnvironment env)).entries := by
  induction env using List.reverseRecOn with
  | nil => exact ht
  | append_singleton env v ih =>
    cases hv : keyOf? v.1 with
    | none => rw [layer_concat_of_none hv]; exact ih h.of_concat
    | some key =>
      rw [layer_concat_of_some hv]
      have hlast : v ∈ env ++ [v] := List.mem_append_right _ List.mem_cons_self
      exact sectioned_alterPath (h.shallow v hlast key hv) _ (ih h.of_concat)

/-! ### A file and an environment -/

/-- The names in a file are no paths, and its sections are tables. -/
structure Flat (es : List (String × Value)) : Prop where
  names : ∀ e ∈ es, pathOf e.1 = [.entry e.1]
  sections : Sectioned es
  once : Once es

/-- What is loaded for a setting: the value of its variable, or else what the file has. -/
def given (k : Setting) (es : List (String × Value)) (env : List (String × String)) :
    Option Value :=
  ((variableIn env k).map leafOf).or ((k.find es).map fun t => overlay t vacant)

section

variable {es : List (String × Value)} {env : List (String × String)}

theorem find_assemble (file : Flat es) (tidy : Tidy env) (k : Setting) :
    k.find (assemble [es, fromEnvironment env]).entries = given k es env := by
  rw [assemble, List.foldl_cons, List.foldl_cons, List.foldl_nil, find_layer_environment tidy,
    layer_eq_overlayAll file.names, find_overlayAll file.once file.sections, given]

theorem sectioned_assemble (file : Flat es) (tidy : Tidy env) :
    Sectioned (assemble [es, fromEnvironment env]).entries := by
  rw [assemble, List.foldl_cons, List.foldl_cons, List.foldl_nil, layer_eq_overlayAll file.names]
  exact sectioned_layer_environment tidy (sectioned_overlayAll file.once file.sections)

/-- Loading looks at what is given for each setting, and at nothing else. -/
theorem loadFrom_eq_given {host : Host} {path : String} (hfile : fromFile host path = .ok es)
    (file : Flat es) (tidy : Tidy env) :
    loadFrom host env path = outcome (takeAll (given · es env)) := by
  rw [loadFrom_eq_outcome hfile (sectioned_assemble file tidy)]
  simp only [find_assemble file tidy]

/-- Settings are loaded exactly if what is given for each of them converts and keeps its rule. -/
theorem loadFrom_eq_ok_iff {host : Host} {path : String} (hfile : fromFile host path = .ok es)
    (file : Flat es) (tidy : Tidy env) (s : Settings) :
    loadFrom host env path = .ok s ↔
      ∀ k : Setting, k.Reads (k.get s) (k.given es env) ∧ k.Valid (k.get s) := by
  rw [loadFrom_eq_given hfile file tidy, outcome_eq_ok_iff, takeAll_eq_ok_iff,
    broken?_eq_none_iff]
  exact forall_and.symm

end

end Setting

end Agora
