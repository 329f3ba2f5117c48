import Agora.Proofs.Document
import Agora.Proofs.EnvText
import Agora.Proofs.Files
import Agora.Proofs.Variable
import Mathlib

/-!
Where settings come from. With plain keys in the file and in the environment, each setting has the
value that its variable alone would give it, or else the one that its entry in the file alone would
give it, or else its default; nothing else that a source holds matters. Before that, the nearest
file of variables adds to the environment the first assignment of each name that is not there.
-/

namespace Agora

open Settings Value

namespace Setting

/-! ### Single sources -/

theorem flat_nil : Flat [] := ⟨nofun, nofun, List.nodup_nil, nofun⟩

theorem tidy_nil : Tidy [] := ⟨nofun, nofun⟩

theorem pathOf_group (k : Setting) : pathOf k.group = [.entry k.group] := by
  cases k <;> decide

theorem shallow_path (k : Setting) : Shallow k.path := by
  rw [Shallow, pathOf_path]
  exact .entry _ _

theorem tidy_singleton {v : String × String} {k : Setting} (h : keyOf? v.1 = some k.path) :
    Tidy [v] where
  shallow := by
    intro w hw key hkey
    obtain rfl := List.mem_singleton.1 hw
    obtain rfl := Option.some.inj (h.symm.trans hkey)
    exact shallow_path k
  distinct := by
    intro w hw u hu _ _ _
    rw [List.mem_singleton.1 hw, List.mem_singleton.1 hu]

/-- The entries of a file in which only one setting is set. -/
def single (k : Setting) (o : Option String) (t : Value) : List (String × Value) :=
  [(k.group, .table o [(k.key, t)])]

theorem flat_single (k : Setting) (o : Option String) (t : Value) : Flat (k.single o t) where
  names := List.forall_mem_singleton.2 (pathOf_group k)
  sections := by
    intro j u hu
    obtain rfl := (Prod.mk.inj (List.mem_singleton.1 (mem_of_find hu))).2
    exact ⟨o, _, rfl⟩
  once := ⟨List.nodup_singleton _, List.forall_mem_singleton.2 (List.nodup_singleton _)⟩

theorem find_single (k : Setting) (o : Option String) (t : Value) :
    k.find (k.single o t) = some t := by
  simp [find, single, Value.find, entries]

theorem find_single_of_ne {j k : Setting} (h : j ≠ k) (o : Option String) (t : Value) :
    j.find (k.single o t) = none := by
  by_cases hgroup : k.group = j.group
  · have hkey : k.key ≠ j.key := fun hkey => h (eq_of_group_of_key hgroup.symm hkey.symm)
    simp [find, single, Value.find, entries, hgroup, hkey]
  · simp [find, single, Value.find, hgroup]

theorem path_ne {j k : Setting} (h : j ≠ k) : j.path ≠ k.path := by
  revert h
  cases j <;> cases k <;> decide

/-- Where only one setting is given a value, that one is changed and the others are the defaults. -/
theorem loadFrom_single {host : Host} {path : String} {es : List (String × Value)}
    {env : List (String × String)} (hfile : fromFile host path = .ok es) (file : Flat es)
    (tidy : Tidy env) {k : Setting} {a : k.Kind} {t : Value} (given : k.given es env = some t)
    (others : ∀ j, j ≠ k → j.given es env = none) (reads : k.convert t = .ok a)
    (valid : k.Valid a) : loadFrom host env path = .ok (k.set a {}) := by
  refine (loadFrom_eq_ok_iff hfile file tidy _).2 fun j => ?_
  by_cases hj : j = k
  · subst hj
    rw [get_set, given]
    exact ⟨reads, valid⟩
  · rw [get_set_of_ne hj, others j hj]
    exact ⟨rfl, valid_default j⟩

/-- A variable that stands alone. -/
theorem loadFrom_variable {host : Host} {path : String} (hfile : fromFile host path = .ok [])
    {v : String × String} {k : Setting} (hv : keyOf? v.1 = some k.path) {a : k.Kind}
    (reads : k.convert (leafOf v) = .ok a) (valid : k.Valid a) :
    loadFrom host [v] path = .ok (k.set a {}) := by
  refine loadFrom_single hfile flat_nil (tidy_singleton hv) ?_ (fun j hj => ?_) reads valid
  · simp [given, variableIn, hv]
  · have hpath : k.path ≠ j.path := path_ne hj.symm
    simp [given, variableIn, hv, hpath, find, Value.find]

/-- An entry of a file that stands alone. -/
theorem loadFrom_entry {host : Host} {path : String} {k : Setting} {o : Option String}
    {t : Value} (hfile : fromFile host path = .ok (k.single o t)) {a : k.Kind}
    (reads : k.convert (overlay t vacant) = .ok a) (valid : k.Valid a) :
    loadFrom host [] path = .ok (k.set a {}) := by
  refine loadFrom_single hfile (flat_single k o t) tidy_nil ?_ (fun j hj => ?_) reads valid
  · rw [given, find_single]
    rfl
  · rw [given, find_single_of_ne hj]
    rfl

/-- Which source decides a setting: its variable, by the value that it gives alone; without one the
entry of the file, by the value that it gives alone; without both the default. -/
structure Decided (k : Setting) (es : List (String × Value)) (env : List (String × String))
    (s : Settings) : Prop where
  byVariable : ∀ v, variableIn env k = some v → ∀ host path, fromFile host path = .ok [] →
    loadFrom host [v] path = .ok (k.set (k.get s) {})
  byEntry : variableIn env k = none → ∀ t, k.find es = some t → ∀ host path o,
    fromFile host path = .ok [(k.group, .table o [(k.key, t)])] →
      loadFrom host [] path = .ok (k.set (k.get s) {})
  byDefault : variableIn env k = none → k.find es = none → k.get s = k.default

theorem decided_of_loadFrom {host : Host} {path : String} {es : List (String × Value)}
    {env : List (String × String)} (hfile : fromFile host path = .ok es) (file : Flat es)
    (tidy : Tidy env) {s : Settings} (h : loadFrom host env path = .ok s) (k : Setting) :
    k.Decided es env s := by
  obtain ⟨reads, valid⟩ := (loadFrom_eq_ok_iff hfile file tidy s).1 h k
  constructor
  · intro v hv host' path' hfile'
    rw [given, hv] at reads
    exact loadFrom_variable hfile' (variableIn_eq_some hv).2 reads valid
  · intro hv t ht host' path' o hfile'
    rw [given, hv, ht] at reads
    exact loadFrom_entry hfile' reads valid
  · intro hv ht
    rw [given, hv, ht] at reads
    exact reads

end Setting

namespace Settings

/-! ### Plain keys -/

/-- A file with plain keys: no name at its top is a path, and its sections are tables. -/
structure PlainFile (es : List (String × Value)) : Prop where
  unmarked : ∀ e ∈ es, '.' ∉ e.1.toList ∧ '[' ∉ e.1.toList
  sections : Setting.Sectioned es

/-- An environment with plain keys: each of the program's variables is named, in any case, for a
section and a key that are identifiers, and no key has two variables. -/
structure PlainEnvironment (env : List (String × String)) : Prop where
  named : ∀ v ∈ env, (keyOf? v.1).isSome → ∃ group key, Identifier group ∧ Identifier key ∧
    Text.lower v.1 = Text.lower (variableName group key)
  distinct : ∀ v ∈ env, ∀ w ∈ env, ∀ key, keyOf? v.1 = some key → keyOf? w.1 = some key → v = w

theorem PlainFile.flat {host : Host} {path : String} {es : List (String × Value)}
    (h : PlainFile es) (hfile : fromFile host path = .ok es) : Setting.Flat es where
  names := fun e he => pathOf_of_unmarked (h.unmarked e he).1 (h.unmarked e he).2
  sections := h.sections
  once := once_of_fromFile hfile

theorem PlainEnvironment.tidy {env : List (String × String)} (h : PlainEnvironment env) :
    Setting.Tidy env where
  shallow := by
    intro v hv key hkey
    obtain ⟨group, name, hgroup, hname, hlower⟩ := h.named v hv (hkey ▸ rfl)
    obtain ⟨key', hkey', hshallow⟩ := shallow_of_identifiers hgroup hname hlower
    obtain rfl := Option.some.inj (hkey.symm.trans hkey')
    exact hshallow
  distinct := h.distinct

/-- What the nearest file of variables, if there is one, assigns beside an environment. -/
def variablesOf (host : Host) (env : List (String × String)) : List (String × String) :=
  match host.nearest? variableFile host.homeNames.reverse with
  | some content => EnvFile.assigned env content
  | none => []

/-- A host with a file of settings that sets the log's filter to a number and holds an unknown key.
The file of variables above the working directory names that file and the engine. -/
def wordyHost : Host where
  home := "/srv/agora"
  files := [("/etc/agora.json", "\x7b\"log\":\x7b\"filter\":7\x7d,\"x\":1\x7d"),
    ("/srv/.env", "X='b' # who\nRUSTY_REDDIT__ENGINE__NAME=\"$\x7bX\x7d\"\n" ++
      "export RUSTY_REDDIT_CONFIG = /etc/agora")]

/-- A host with a file of settings that sets the log's filter and nothing else. -/
def filterHost : Host where
  home := "/srv/agora"
  files := [("/etc/agora.json", "\x7b\"log\":\x7b\"filter\":7\x7d\x7d")]

/-- The entries of the file of settings. -/
def wordyEntries : List (String × Value) :=
  [("log", .table (some "../../etc/agora.json")
      [("filter", .leaf (some "../../etc/agora.json") (.int 7))]),
    ("x", .leaf (some "../../etc/agora.json") (.int 1))]

/-- An environment in which the engine has a name. -/
def namingEnvironment : List (String × String) :=
  [("rusty_reddit__Engine__NAME", "b"), ("HOME", "/")]

theorem plainFile_wordy : PlainFile wordyEntries where
  unmarked := by
    intro e he
    rcases List.mem_pair.1 he with rfl | rfl <;> decide
  sections := by
    intro k t ht
    rcases List.mem_pair.1 (Setting.mem_of_find ht) with h | h
    · obtain rfl := (Prod.mk.inj h).2
      exact ⟨_, _, rfl⟩
    · have hgroup : k.group ≠ "x" := by cases k <;> decide
      exact absurd (congrArg Prod.fst h) hgroup

theorem plainEnvironment_naming : PlainEnvironment namingEnvironment where
  named := by
    intro v hv hkey
    rcases List.mem_pair.1 hv with rfl | rfl
    · refine ⟨"engine", "name", ?_, ?_, by decide +kernel⟩
      · exact ⟨by decide, List.all_eq_true.1 (by decide), by unfold Single; decide⟩
      · exact ⟨by decide, List.all_eq_true.1 (by decide), by unfold Single; decide⟩
    · exact absurd hkey (by decide +kernel)
  distinct := by
    have hhome : keyOf? "HOME" = none := by decide +kernel
    intro v hv w hw key hkey hkey'
    rcases List.mem_pair.1 hv with rfl | rfl <;> rcases List.mem_pair.1 hw with rfl | rfl
    · rfl
    · exact absurd (hhome.symm.trans hkey') nofun
    · exact absurd (hhome.symm.trans hkey) nofun
    · rfl

/-- The assignments in the file of variables. -/
def wordyVariables : List (String × String) :=
  [("X", "b"), ("RUSTY_REDDIT__ENGINE__NAME", "b"), ("RUSTY_REDDIT_CONFIG", "/etc/agora")]

/-- The text of the file of variables. -/
def wordyText : List Char :=
  "X='b'".toList ++ [' '] ++ '#' :: (" who".toList ++ '\n' ::
    ("RUSTY_REDDIT__ENGINE__NAME=\"$\x7bX\x7d\"".toList ++ [] ++ '\n' ::
      "export RUSTY_REDDIT_CONFIG = /etc/agora".toList))

theorem nearest_wordy : wordyHost.Nearest variableFile (String.ofList wordyText) := by
  refine ⟨["srv".toList], ["agora".toList], by decide, by decide, fun inner filled hinner => ?_⟩
  obtain ⟨n, inner, rfl⟩ := List.exists_cons_of_ne_nil filled
  obtain ⟨rfl, hnone⟩ := List.cons_prefix_cons.1 hinner
  obtain rfl := List.prefix_nil.1 hnone
  decide

theorem says_wordy : EnvFile.Says [] wordyText wordyVariables := by
  have hquote : EnvFile.Means (EnvFile.valueOf []) "'b'".toList ['b'] :=
    .single (List.forall_mem_singleton.2 (by decide)) .nil
  have hbraces : EnvFile.Means (EnvFile.valueOf [("X", "b")]) "\"$\x7bX\x7d\"".toList ['b'] :=
    .double (.escape (.braced (List.forall_mem_singleton.2 (by decide))) .nil) .nil
  have hpath : "/etc/agora".toList.all (fun c =>
      c ∉ ['\'', '"', '\\', '$'] ∧ Text.isWhite c = false) = true := by decide
  have hwho : EnvFile.Assigns (EnvFile.valueOf []) "X='b'".toList ("X", "b") :=
    @EnvFile.Assigns.intro _ [] [] ['X'] [] [] _ _ nofun .none
      ⟨by decide, List.all_eq_true.1 (by decide), fun c hc => Option.some.inj hc ▸ by decide⟩
      hquote (by decide) (fun c hc => Option.some.inj hc ▸ by decide) nofun
  have hname : EnvFile.Assigns (EnvFile.valueOf [("X", "b")])
      "RUSTY_REDDIT__ENGINE__NAME=\"$\x7bX\x7d\"".toList ("RUSTY_REDDIT__ENGINE__NAME", "b") :=
    @EnvFile.Assigns.intro _ [] [] "RUSTY_REDDIT__ENGINE__NAME".toList [] [] _ _ nofun .none
      ⟨by decide, List.all_eq_true.1 (by decide), fun c hc => Option.some.inj hc ▸ by decide⟩
      hbraces (by decide) (fun c hc => Option.some.inj hc ▸ by decide) nofun
  have hfile : EnvFile.Assigns
      (EnvFile.valueOf [("X", "b"), ("RUSTY_REDDIT__ENGINE__NAME", "b")])
      "export RUSTY_REDDIT_CONFIG = /etc/agora".toList ("RUSTY_REDDIT_CONFIG", "/etc/agora") :=
    @EnvFile.Assigns.intro _ [] ("export".toList ++ [' ']) "RUSTY_REDDIT_CONFIG".toList [' '] [' ']
      "/etc/agora".toList "/etc/agora".toList
      (List.forall_mem_cons.2 ⟨.inl rfl, List.forall_mem_singleton.2 (.inl rfl)⟩)
      (.word (by decide) (List.forall_mem_singleton.2 (.inl rfl)))
      ⟨by decide, List.all_eq_true.1 (by decide), fun c hc => Option.some.inj hc ▸ by decide⟩
      (EnvFile.means_self fun c hc => of_decide_eq_true (List.all_eq_true.1 hpath c hc)) (by decide)
      (fun c hc => Option.some.inj hc ▸ by decide) nofun
  exact .remark hwho (by decide) (by decide) (.assign hname nofun (.last hfile))

end Settings

end Agora
