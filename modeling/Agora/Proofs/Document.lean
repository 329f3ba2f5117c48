import Agora.Proofs.Layer

/-!
Documents name each entry once. A JSON object keeps the last member of each name; a TOML document
in which a name is defined twice is refused. So whatever a file gives, its entries and those of its
tables have names of their own.
-/

namespace Agora

/-! ### JSON -/

namespace Settings

theorem mem_names_put {k j : String} {t : Value} {es : List (String × Value)} :
    j ∈ (Value.put k t es).map (·.1) ↔ j = k ∨ j ∈ es.map (·.1) := by
  induction es with
  | nil => simp [Value.put]
  | cons e es ih =>
    rw [Value.put]
    split
    · rename_i heq
      simp [heq]
    · rw [List.map_cons, List.mem_cons, ih, List.map_cons, List.mem_cons]
      exact or_left_comm

theorem namesOnce_put {es : List (String × Value)} (h : NamesOnce es) (k : String) (t : Value) :
    NamesOnce (Value.put k t es) := by
  induction es with
  | nil => exact List.nodup_singleton k
  | cons e es ih =>
    obtain ⟨hfresh, hes⟩ := List.nodup_cons.1 h
    rw [Value.put]
    split
    · rename_i heq
      exact List.nodup_cons.2 ⟨heq ▸ hfresh, hes⟩
    · rename_i hne
      refine List.nodup_cons.2 ⟨fun hmem => ?_, ih hes⟩
      rcases mem_names_put.1 hmem with heq | hmem
      · exact hne heq
      · exact hfresh hmem

theorem mem_put {k : String} {t : Value} {es : List (String × Value)} {e : String × Value}
    (h : e ∈ Value.put k t es) : e = (k, t) ∨ e ∈ es := by
  induction es with
  | nil => exact .inl (List.mem_singleton.1 h)
  | cons d es ih =>
    rw [Value.put] at h
    split at h
    · exact (List.mem_cons.1 h).imp_right (List.mem_cons_of_mem d)
    · rcases List.mem_cons.1 h with rfl | h
      · exact .inr List.mem_cons_self
      · exact (ih h).imp_right (List.mem_cons_of_mem d)

theorem namesOnce_ofJsonMembers (o : Option String) (ms : List (String × Json))
    {es : List (String × Value)} (h : NamesOnce es) : NamesOnce (ofJsonMembers o ms es) := by
  induction ms generalizing es with
  | nil => rw [ofJsonMembers]; exact h
  | cons m ms ih => rw [ofJsonMembers]; exact ih (namesOnce_put h _ _)

theorem namesOnce_ofJson (o : Option String) (j : Json) : NamesOnce (ofJson o j).entries := by
  cases j with
  | obj members => rw [ofJson]; exact namesOnce_ofJsonMembers o members List.nodup_nil
  | _ => rw [ofJson]; exact List.nodup_nil

theorem once_ofJsonMembers (o : Option String) (ms : List (String × Json))
    {es : List (String × Value)} (h : Setting.Once es) :
    Setting.Once (ofJsonMembers o ms es) := by
  induction ms generalizing es with
  | nil => rw [ofJsonMembers]; exact h
  | cons m ms ih =>
    rw [ofJsonMembers]
    refine ih ⟨namesOnce_put h.1 _ _, fun e he => ?_⟩
    rcases mem_put he with rfl | he
    · exact namesOnce_ofJson o m.2
    · exact h.2 e he

end Settings

/-! ### TOML -/

namespace Toml

/-- A table with each name once, or no table. -/
def Once : Toml → Prop
  | .table es => NamesOnce es
  | _ => True

/-- A node whose own entries have each name once. -/
def Node.Once : Node → Prop
  | .value v => v.Once
  | .table _ es => NamesOnce es
  | .series _ => True

/-- Entries with each name once, each of a node that has each name once. -/
def OnceEach (es : Entries) : Prop := NamesOnce es ∧ ∀ e ∈ es, e.2.Once

section

variable {k : String} {f : Option Node → Option Node} {es es' : Entries}

theorem mem_names_of_alter (h : alter k f es = some es') {j : String} (hj : j ∈ es'.map (·.1)) :
    j = k ∨ j ∈ es.map (·.1) := by
  induction es generalizing es' with
  | nil =>
    obtain ⟨n, -, rfl⟩ := Option.map_eq_some_iff.1 h
    exact .inl (List.mem_singleton.1 hj)
  | cons e es ih =>
    rw [alter] at h
    split at h
    · obtain ⟨n, -, rfl⟩ := Option.map_eq_some_iff.1 h
      exact (List.mem_cons.1 hj).imp_right (List.mem_cons_of_mem _)
    · obtain ⟨ds, hds, rfl⟩ := Option.map_eq_some_iff.1 h
      rcases List.mem_cons.1 hj with rfl | hj
      · exact .inr List.mem_cons_self
      · exact (ih hds hj).imp_right (List.mem_cons_of_mem _)

theorem namesOnce_alter (h : alter k f es = some es') (once : NamesOnce es) : NamesOnce es' := by
  induction es generalizing es' with
  | nil =>
    obtain ⟨n, -, rfl⟩ := Option.map_eq_some_iff.1 h
    exact List.nodup_singleton k
  | cons e es ih =>
    obtain ⟨hfresh, hes⟩ := List.nodup_cons.1 once
    rw [alter] at h
    split at h
    · rename_i heq
      obtain ⟨n, -, rfl⟩ := Option.map_eq_some_iff.1 h
      exact List.nodup_cons.2 ⟨heq ▸ hfresh, hes⟩
    · rename_i hne
      obtain ⟨ds, hds, rfl⟩ := Option.map_eq_some_iff.1 h
      refine List.nodup_cons.2 ⟨fun hmem => ?_, ih hds hes⟩
      rcases mem_names_of_alter hds hmem with heq | hmem
      · exact hne heq
      · exact hfresh hmem

/-- If what replaces a node keeps names apart, so do the entries. -/
theorem onceEach_alter (hf : ∀ o n, (∀ m ∈ o, m.Once) → f o = some n → n.Once)
    (h : alter k f es = some es') (once : OnceEach es) : OnceEach es' := by
  refine ⟨namesOnce_alter h once.1, ?_⟩
  replace once := once.2
  induction es generalizing es' with
  | nil =>
    obtain ⟨n, hn, rfl⟩ := Option.map_eq_some_iff.1 h
    exact List.forall_mem_singleton.2 (hf none n nofun hn)
  | cons e es ih =>
    obtain ⟨he, hes⟩ := List.forall_mem_cons.1 once
    rw [alter] at h
    split at h
    · obtain ⟨n, hn, rfl⟩ := Option.map_eq_some_iff.1 h
      exact List.forall_mem_cons.2 ⟨hf (some e.2) n (by rintro m ⟨⟩; exact he) hn, hes⟩
    · obtain ⟨ds, hds, rfl⟩ := Option.map_eq_some_iff.1 h
      exact List.forall_mem_cons.2 ⟨he, ih hds hes⟩

end

/-- A change to a table that keeps names apart in it. -/
def Keeps (f : Entries → Option Entries) : Prop :=
  ∀ es es', f es = some es' → NamesOnce es → NamesOnce es'

/-- A change to a table that keeps names apart in it and in the tables right below it. -/
def KeepsEach (f : Entries → Option Entries) : Prop :=
  ∀ es es', f es = some es' → OnceEach es → OnceEach es'

theorem keeps_define (v : Toml) (ks : List String) : Keeps (define v ks) := by
  intro es es' h once
  unfold define at h
  split at h
  · cases h
  · exact namesOnce_alter h once
  · exact namesOnce_alter h once

theorem keeps_descend {f : Entries → Option Entries} (hf : Keeps f) (ks : List String) :
    Keeps (descend f ks) := by
  intro es es' h once
  unfold descend at h
  split at h
  · exact hf es es' h once
  · exact namesOnce_alter h once

theorem keepsEach_openTable (k : String) : KeepsEach (openTable k) := by
  intro es es' h once
  refine onceEach_alter (fun o n ho hn => ?_) h once
  split at hn
  · cases hn; exact List.nodup_nil
  · rename_i ts
    cases hn; exact ho (.table .implicit ts) rfl
  · cases hn

theorem keepsEach_openSeries (k : String) : KeepsEach (openSeries k) := by
  intro es es' h once
  refine onceEach_alter (fun o n ho hn => ?_) h once
  split at hn
  · cases hn; trivial
  · cases hn; trivial
  · cases hn

theorem keepsEach_define {v : Toml} (hv : v.Once) (ks : List String) :
    KeepsEach (define v ks) := by
  intro es es' h once
  unfold define at h
  split at h
  · cases h
  · refine onceEach_alter (fun o n ho hn => ?_) h once
    split at hn
    · cases hn; exact hv
    · cases hn
  · refine onceEach_alter (fun o n ho hn => ?_) h once
    split at hn
    · obtain ⟨ds, hds, rfl⟩ := Option.map_eq_some_iff.1 hn
      exact keeps_define v _ _ _ hds List.nodup_nil
    · cases hn
    · obtain ⟨ds, hds, rfl⟩ := Option.map_eq_some_iff.1 hn
      exact keeps_define v _ _ _ hds (ho _ rfl)
    · split at hn
      · cases hn
      · obtain ⟨ds, -, rfl⟩ := Option.map_eq_some_iff.1 hn
        trivial
    · cases hn

theorem keepsEach_descend {f : Entries → Option Entries} (hf : Keeps f) (hf' : KeepsEach f)
    (ks : List String) : KeepsEach (descend f ks) := by
  intro es es' h once
  unfold descend at h
  split at h
  · exact hf' es es' h once
  · refine onceEach_alter (fun o n ho hn => ?_) h once
    split at hn
    · obtain ⟨ds, hds, rfl⟩ := Option.map_eq_some_iff.1 hn
      exact keeps_descend hf _ _ _ hds List.nodup_nil
    · obtain ⟨ds, hds, rfl⟩ := Option.map_eq_some_iff.1 hn
      exact keeps_descend hf _ _ _ hds (ho _ rfl)
    · obtain ⟨ds, -, rfl⟩ := Option.map_eq_some_iff.1 hn
      trivial
    · cases hn

/-! ### Values and lines -/

theorem names_closeAll (es : Entries) : (closeAll es).map (·.1) = es.map (·.1) := by
  induction es with
  | nil => rfl
  | cons e es ih => rw [closeAll, List.map_cons, List.map_cons, ih]

theorem once_close {n : Node} (h : n.Once) : n.close.Once := by
  cases n with
  | value v => rw [Node.close]; exact h
  | table opening es =>
    rw [Node.close, Once, NamesOnce, names_closeAll]
    exact h
  | series ts => rw [Node.close]; trivial

theorem once_of_readTime {cs : List Char} {v : Toml} (h : readTime cs = some v) : v.Once := by
  unfold readTime at h
  split at h
  · cases h; trivial
  · simp only [Option.bind_eq_bind, Option.bind_eq_some_iff, Option.ite_none_right_eq_some] at h
    obtain ⟨-, _, -, _, -, h⟩ := h
    cases h; trivial
  · split at h <;> cases h
    trivial

theorem once_of_readBased {base : Nat} {cs : List Char} {v : Toml}
    (h : readBased base cs = some v) : v.Once := by
  obtain ⟨-, h⟩ := Option.ite_none_right_eq_some.1 h
  cases h; trivial

theorem once_of_readInteger {negative : Bool} {cs : List Char} {v : Toml}
    (h : readInteger negative cs = some v) : v.Once := by
  obtain ⟨-, h⟩ := Option.ite_none_right_eq_some.1 h
  cases h; trivial

theorem once_of_readReal {negative : Bool} {cs : List Char} {v : Toml}
    (h : readReal negative cs = some v) : v.Once := by
  obtain ⟨-, h⟩ := Option.ite_none_right_eq_some.1 h
  obtain ⟨x, -, h⟩ := Option.bind_eq_some_iff.1 h
  obtain ⟨-, h⟩ := Option.ite_none_left_eq_some.1 h
  cases h; trivial

theorem once_of_readNumber {cs : List Char} {v : Toml} (h : readNumber cs = some v) : v.Once := by
  unfold readNumber at h
  split at h
  · exact once_of_readBased h
  · exact once_of_readBased h
  · exact once_of_readBased h
  · rcases hsign : Decimal.takeSign _ with ⟨negative, ds⟩
    rw [hsign] at h
    simp only [] at h
    split at h
    · cases h; trivial
    · split at h
      · cases h; trivial
      · rcases Option.or_eq_some_iff.1 h with h | ⟨-, h⟩
        · exact once_of_readInteger h
        · exact once_of_readReal h

theorem once_of_readScalar {run : List Char} {v : Toml} (h : readScalar run = some v) :
    v.Once := by
  unfold readScalar at h
  split at h
  · cases h; trivial
  · split at h
    · cases h; trivial
    · rcases Option.or_eq_some_iff.1 h with h | ⟨-, h⟩
      · exact once_of_readTime h
      · exact once_of_readNumber h

theorem once_of_readItems {fuel depth : Nat} {items : List Toml} {cs : List Char}
    {r : Toml × List Char} (h : readItems fuel depth items cs = some r) : r.1.Once := by
  induction fuel generalizing items cs with
  | zero => rw [readItems] at h; cases h
  | succ fuel ih =>
    unfold readItems at h
    split at h
    · cases h
    · cases h; trivial
    · rename_i hfuel _
      cases hfuel
      split at h
      · cases h
      · split at h
        · cases h; trivial
        · exact ih h
        · cases h

theorem once_of_readMembers {fuel depth : Nat} {es : Entries} {cs : List Char}
    {r : Toml × List Char} (once : NamesOnce es) (h : readMembers fuel depth es cs = some r) :
    r.1.Once := by
  have hclose {ds : Entries} (h : NamesOnce ds) : (table (closeAll ds)).Once := by
    rw [Once, NamesOnce, names_closeAll]; exact h
  induction fuel generalizing es cs with
  | zero => rw [readMembers] at h; cases h
  | succ fuel ih =>
    unfold readMembers at h
    split at h
    · cases h
    · cases h; exact hclose once
    · rename_i hfuel _
      cases hfuel
      split at h
      · cases h
      · split at h
        · split at h
          · cases h
          · rename_i v _ _
            split at h
            · rename_i hdefine _
              cases h; exact hclose (keeps_define v _ _ _ hdefine once)
            · rename_i hdefine _
              exact ih (keeps_define v _ _ _ hdefine once) h
            · cases h
        · cases h

/-- A value that is a table has each name once. -/
theorem once_of_readValue {fuel depth : Nat} {cs : List Char} {r : Toml × List Char}
    (h : readValue fuel depth cs = some r) : r.1.Once := by
  cases fuel with
  | zero => rw [readValue] at h; cases h
  | succ fuel =>
    unfold readValue at h
    split at h
    · obtain ⟨s, -, rfl⟩ := Option.map_eq_some_iff.1 h
      trivial
    · split at h
      · cases h
      · cases h
      · exact once_of_readItems h
      · refine once_of_readMembers ?_ h
        exact List.nodup_nil
      · obtain ⟨v, hv, rfl⟩ := Option.map_eq_some_iff.1 h
        exact once_of_readScalar hv

theorem onceEach_of_readHeader {d d' : Draft} {double : Bool} {cs rest : List Char}
    (h : readHeader d double cs = some (d', rest)) (once : OnceEach d.entries) :
    OnceEach d'.entries := by
  have hadd {double : Bool} {path : List String} {rest' : List Char}
      (h : (path.getLast?.bind fun k =>
        (descend (if double then openSeries k else openTable k) path.dropLast d.entries).bind
          fun entries => some (Draft.mk path entries, rest')) = some (d', rest)) :
      OnceEach d'.entries := by
    simp only [Option.bind_eq_some_iff] at h
    obtain ⟨k, -, entries, hentries, h⟩ := h
    cases h
    split at hentries
    · exact keepsEach_descend (fun _ _ h => namesOnce_alter h) (keepsEach_openSeries k) _ _ _
        hentries once
    · exact keepsEach_descend (fun _ _ h => namesOnce_alter h) (keepsEach_openTable k) _ _ _
        hentries once
  simp only [readHeader, Option.bind_eq_bind] at h
  obtain ⟨⟨path, _⟩, -, h⟩ := Option.bind_eq_some_iff.1 h
  split at h
  · exact hadd h
  · exact hadd h
  · cases h

theorem onceEach_of_readPair {d d' : Draft} {cs rest : List Char}
    (h : readPair d cs = some (d', rest)) (once : OnceEach d.entries) : OnceEach d'.entries := by
  simp only [readPair, Option.bind_eq_bind, Option.bind_eq_some_iff] at h
  obtain ⟨_, -, h⟩ := h
  split at h
  · simp only [Option.bind_eq_some_iff] at h
    obtain ⟨r, hr, entries, hentries, h⟩ := h
    cases h
    exact keepsEach_descend (keeps_define _ _) (keepsEach_define (once_of_readValue hr) _) _ _ _
      hentries once
  · cases h

theorem onceEach_of_readLines {fuel : Nat} {d : Draft} {cs : List Char} {es : Entries}
    (h : readLines fuel d cs = some es) (once : OnceEach d.entries) : OnceEach es := by
  induction fuel generalizing d cs with
  | zero => rw [readLines] at h; cases h
  | succ fuel ih =>
    unfold readLines at h
    split at h
    · cases h; exact once
    · have hnext {line : Option (Draft × List Char)}
          (hline : ∀ d' rest, line = some (d', rest) → OnceEach d'.entries)
          (h : (line.bind fun r => (endLine r.2).bind fun rest => readLines fuel r.1 rest) =
            some es) : OnceEach es := by
        obtain ⟨⟨d', rest⟩, hd', h⟩ := Option.bind_eq_some_iff.1 h
        obtain ⟨_, -, h⟩ := Option.bind_eq_some_iff.1 h
        exact ih h (hline d' rest hd')
      have hsame (rest : List Char) :
          ∀ d' rest', some (d, rest) = some (d', rest') → OnceEach d'.entries := by
        rintro d' rest' ⟨⟩
        exact once
      split at h
      · exact hnext (hsame _) h
      · exact hnext (hsame _) h
      · exact hnext (hsame _) h
      · exact hnext (fun _ _ hd => onceEach_of_readHeader hd once) h
      · exact hnext (fun _ _ hd => onceEach_of_readHeader hd once) h
      · exact hnext (fun _ _ hd => onceEach_of_readPair hd once) h

end Toml

namespace Settings

/-! ### Files -/

theorem names_ofTomlEntries (o : Option String) (es : List (String × Toml)) :
    (ofTomlEntries o es).map (·.1) = es.map (·.1) := by
  induction es with
  | nil => rw [ofTomlEntries]; rfl
  | cons e es ih => rw [ofTomlEntries, List.map_cons, ih, List.map_cons]

theorem namesOnce_ofToml (o : Option String) {v : Toml} (h : v.Once) :
    NamesOnce (ofToml o v).entries := by
  cases v with
  | table es =>
    rw [ofToml, Value.entries, NamesOnce, names_ofTomlEntries]
    exact h
  | _ => rw [ofToml]; exact List.nodup_nil

theorem once_ofTomlEntries (o : Option String) {es : Toml.Entries} (h : Toml.OnceEach es) :
    Setting.Once (ofTomlEntries o (Toml.closeAll es)) := by
  constructor
  · rw [NamesOnce, names_ofTomlEntries, Toml.names_closeAll]
    exact h.1
  · replace h := h.2
    induction es with
    | nil => rw [Toml.closeAll, ofTomlEntries]; exact List.forall_mem_nil _
    | cons e es ih =>
      obtain ⟨he, hes⟩ := List.forall_mem_cons.1 h
      rw [Toml.closeAll, ofTomlEntries]
      exact List.forall_mem_cons.2 ⟨namesOnce_ofToml o (Toml.once_close he), ih hes⟩

theorem once_of_parse {host : Host} {f : FileFormat} {origin content : String}
    {es : List (String × Value)} (h : host.parse f origin content = some es) :
    Setting.Once es := by
  unfold Host.parse at h
  split at h
  · obtain ⟨ts, hts, rfl⟩ := Option.map_eq_some_iff.1 h
    obtain ⟨ns, hns, rfl⟩ := Option.map_eq_some_iff.1 hts
    exact once_ofTomlEntries _ (Toml.onceEach_of_readLines hns ⟨List.nodup_nil, nofun⟩)
  · split at h
    · cases h
      exact once_ofJsonMembers _ _ ⟨List.nodup_nil, nofun⟩
    · cases h
  · obtain ⟨members, -, rfl⟩ := Option.map_eq_some_iff.1 h
    exact once_ofJsonMembers _ _ ⟨List.nodup_nil, nofun⟩

/-- Whatever file is read, it names its entries and those of its tables once. -/
theorem once_of_fromFile {host : Host} {path : String} {es : List (String × Value)}
    (h : fromFile host path = .ok es) : Setting.Once es := by
  unfold fromFile at h
  split at h
  · cases h
    exact ⟨List.nodup_nil, nofun⟩
  · split at h
    · rename_i hparse
      cases h
      exact once_of_parse hparse
    · cases h

end Settings

end Agora
