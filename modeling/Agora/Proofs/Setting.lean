import Agora.Settings.Load

/-!
Settings one by one. A setting has a section and a key, a type of values, a conversion and a rule
that its values keep. What a tree holds for the settings is one value or none for each of them, and
loading looks at nothing else as long as the sections are tables: `ofValue` reads the values in
turn, and gives settings exactly if each value that is there converts.
-/

namespace Agora

open Settings

/-- What a source may set. -/
inductive Setting where
  | engineName | mailboxCapacity | scoreFloor | defaultLimit | listenAddress
  | metricsEnabled | metricsAddress | logFormat | logFilter
  deriving DecidableEq, Repr

namespace Setting

/-- The section in which a setting stands. -/
def group : Setting → String
  | .engineName | .mailboxCapacity => "engine"
  | .scoreFloor | .defaultLimit => "feed"
  | .listenAddress => "listen"
  | .metricsEnabled | .metricsAddress => "metrics"
  | .logFormat | .logFilter => "log"

/-- The key of a setting in its section. -/
def key : Setting → String
  | .engineName => "name"
  | .mailboxCapacity => "mailbox_capacity"
  | .scoreFloor => "score_floor_hours"
  | .defaultLimit => "default_limit"
  | .listenAddress | .metricsAddress => "addr"
  | .metricsEnabled => "enabled"
  | .logFormat => "format"
  | .logFilter => "filter"

/-- The path of a setting. -/
def path (k : Setting) : String := k.group ++ "." ++ k.key

/-- The type of the values of a setting. -/
abbrev Kind : Setting → Type
  | .engineName | .listenAddress | .metricsAddress | .logFilter => String
  | .mailboxCapacity => UInt64
  | .scoreFloor => Float
  | .defaultLimit => Option UInt64
  | .metricsEnabled => Bool
  | .logFormat => LogFormat

/-- The value of a setting. -/
def get : (k : Setting) → Settings → k.Kind
  | .engineName, s => s.mailbox.name
  | .mailboxCapacity, s => s.mailbox.capacity
  | .scoreFloor, s => s.feed.floor
  | .defaultLimit, s => s.feed.defaultLimit
  | .listenAddress, s => s.listen.address
  | .metricsEnabled, s => s.metrics.enabled
  | .metricsAddress, s => s.metrics.address
  | .logFormat, s => s.log.format
  | .logFilter, s => s.log.filter

/-- The settings with one of them changed. -/
def set : (k : Setting) → k.Kind → Settings → Settings
  | .engineName, a, s => { s with mailbox := { s.mailbox with name := a } }
  | .mailboxCapacity, a, s => { s with mailbox := { s.mailbox with capacity := a } }
  | .scoreFloor, a, s => { s with feed := { s.feed with floor := a } }
  | .defaultLimit, a, s => { s with feed := { s.feed with defaultLimit := a } }
  | .listenAddress, a, s => { s with listen := { s.listen with address := a } }
  | .metricsEnabled, a, s => { s with metrics := { s.metrics with enabled := a } }
  | .metricsAddress, a, s => { s with metrics := { s.metrics with address := a } }
  | .logFormat, a, s => { s with log := { s.log with format := a } }
  | .logFilter, a, s => { s with log := { s.log with filter := a } }

/-- The value that a setting has if nothing sets it. -/
def default (k : Setting) : k.Kind := k.get {}

/-- What turns a value into one of a setting. -/
def convert : (k : Setting) → Convert k.Kind
  | .engineName | .listenAddress | .metricsAddress | .logFilter => toText
  | .mailboxCapacity => toCount
  | .scoreFloor => toNumber
  | .defaultLimit => toOptional toCount
  | .metricsEnabled => toFlag
  | .logFormat => toChoice "LogFormat" [("pretty", LogFormat.pretty), ("json", LogFormat.json)]

/-- The rule that the values of a setting keep. -/
def Valid : (k : Setting) → k.Kind → Prop
  | .engineName, a => Text.isBlank a = false
  | .mailboxCapacity, a => a ≠ 0
  | .scoreFloor, a => a.isNaN = false ∧ ¬ a ≤ 0.0
  | _, _ => True

theorem get_set (k : Setting) (a : k.Kind) (s : Settings) : k.get (k.set a s) = a := by
  cases k <;> rfl

theorem get_set_of_ne {k j : Setting} (h : j ≠ k) (a : k.Kind) (s : Settings) :
    j.get (k.set a s) = j.get s := by
  cases k <;> cases j <;> first | rfl | exact absurd rfl h

/-- No two settings have one path. -/
theorem eq_of_group_of_key {j k : Setting} (hgroup : j.group = k.group) (hkey : j.key = k.key) :
    j = k := by
  revert hgroup hkey
  cases j <;> cases k <;> decide

/-! ### Rules -/

theorem broken?_eq_none_iff (s : Settings) :
    s.broken? = none ↔ ∀ k : Setting, k.Valid (k.get s) := by
  constructor
  · intro h k
    unfold broken? at h
    split at h
    · cases h
    · rename_i hname
      split at h
      · cases h
      · rename_i hcapacity
        split at h
        · cases h
        · rename_i hfloor
          cases k with
          | engineName => exact Bool.eq_false_iff.2 hname
          | mailboxCapacity => exact hcapacity
          | scoreFloor =>
            obtain ⟨hnan, hle⟩ := not_or.1 (mt Bool.or_eq_true_iff.2 hfloor)
            exact ⟨Bool.eq_false_iff.2 hnan, mt decide_eq_true hle⟩
          | _ => trivial
  · intro h
    have hname : ¬ Text.isBlank s.mailbox.name = true := Bool.eq_false_iff.1 (h .engineName)
    have hcapacity : ¬ s.mailbox.capacity = 0 := h .mailboxCapacity
    have hfloor : s.feed.floor.isNaN = false ∧ ¬ s.feed.floor ≤ 0.0 := h .scoreFloor
    rw [broken?, if_neg hname, if_neg hcapacity, if_neg]
    rw [hfloor.1, Bool.false_or]
    exact mt of_decide_eq_true hfloor.2

/-- Every default keeps its rule. -/
theorem valid_default (k : Setting) : k.Valid k.default := by
  cases k with
  | engineName => exact (by decide : Text.isBlank "engine" = false)
  | mailboxCapacity => exact (by decide : (1024 : UInt64) ≠ 0)
  | scoreFloor => exact (by decide +kernel : (2.0 : Float).isNaN = false ∧ ¬ (2.0 : Float) ≤ 0.0)
  | _ => trivial

/-! ### What a tree holds -/

/-- What stands for a setting in the entries of a tree. -/
def find (k : Setting) (es : List (String × Value)) : Option Value :=
  (Value.find k.group es).bind fun t => Value.find k.key t.entries

/-- The value of a setting for what stands for it. -/
def take (k : Setting) (o : Option Value) : Except Complaint k.Kind :=
  Found.get ⟨fun _ _ => o, fun _ _ => k.path⟩ k.key 0 k.convert k.default

/-- Whether what stands for a setting gives it a value. -/
def Reads (k : Setting) (a : k.Kind) : Option Value → Prop
  | none => a = k.default
  | some t => k.convert t = .ok a

theorem take_eq_ok_iff (k : Setting) (o : Option Value) (a : k.Kind) :
    k.take o = .ok a ↔ k.Reads a o := by
  cases o with
  | none => exact ⟨fun h => (Except.ok.inj h).symm, fun h => congrArg Except.ok (Eq.symm h)⟩
  | some t =>
    simp only [take, Found.get, Reads]
    cases k.convert t <;> simp

/-- The settings for what stands for each of them, taken in turn. -/
def takeAll (look : Setting → Option Value) : Except Complaint Settings := do
  let name ← take .engineName (look .engineName)
  let capacity ← take .mailboxCapacity (look .mailboxCapacity)
  let floor ← take .scoreFloor (look .scoreFloor)
  let defaultLimit ← take .defaultLimit (look .defaultLimit)
  let address ← take .listenAddress (look .listenAddress)
  let enabled ← take .metricsEnabled (look .metricsEnabled)
  let metricsAddress ← take .metricsAddress (look .metricsAddress)
  let format ← take .logFormat (look .logFormat)
  let filter ← take .logFilter (look .logFilter)
  .ok ⟨⟨name, capacity⟩, ⟨floor, defaultLimit⟩, ⟨address⟩, ⟨enabled, metricsAddress⟩,
    ⟨format, filter⟩⟩

theorem bind_eq_ok_iff {ε α β : Type} {x : Except ε α} {f : α → Except ε β} {b : β} :
    (x >>= f) = .ok b ↔ ∃ a, x = .ok a ∧ f a = .ok b := by
  cases x with
  | ok a => exact ⟨fun h => ⟨a, rfl, h⟩, fun ⟨_, ha, h⟩ => Except.ok.inj ha ▸ h⟩
  | error e => exact ⟨nofun, fun ⟨_, ha, _⟩ => nomatch ha⟩

/-- Settings are taken exactly if each of their values is. -/
theorem takeAll_eq_ok_iff (look : Setting → Option Value) (s : Settings) :
    takeAll look = .ok s ↔ ∀ k : Setting, k.Reads (k.get s) (look k) := by
  constructor
  · intro h
    obtain ⟨name, hname, h⟩ := bind_eq_ok_iff.1 h
    obtain ⟨capacity, hcapacity, h⟩ := bind_eq_ok_iff.1 h
    obtain ⟨floor, hfloor, h⟩ := bind_eq_ok_iff.1 h
    obtain ⟨defaultLimit, hdefaultLimit, h⟩ := bind_eq_ok_iff.1 h
    obtain ⟨address, haddress, h⟩ := bind_eq_ok_iff.1 h
    obtain ⟨enabled, henabled, h⟩ := bind_eq_ok_iff.1 h
    obtain ⟨metricsAddress, hmetricsAddress, h⟩ := bind_eq_ok_iff.1 h
    obtain ⟨format, hformat, h⟩ := bind_eq_ok_iff.1 h
    obtain ⟨filter, hfilter, h⟩ := bind_eq_ok_iff.1 h
    obtain rfl := Except.ok.inj h
    intro k
    refine (k.take_eq_ok_iff _ _).1 ?_
    cases k <;> assumption
  · intro h
    have h (k : Setting) : k.take (look k) = .ok (k.get s) := (k.take_eq_ok_iff _ _).2 (h k)
    simp only [takeAll, h]
    rfl

/-- The sections of a tree are tables. -/
def Sectioned (es : List (String × Value)) : Prop :=
  ∀ (k : Setting) (t : Value), Value.find k.group es = some t → ∃ o ts, t = .table o ts

/-- A section of a tree as it is opened if it is a table or not there. -/
def sectionAt (es : List (String × Value)) (name : String) : Found :=
  ⟨fun n _ => (Value.find name es).bind fun t => Value.find n t.entries,
    fun n _ => name ++ "." ++ n⟩

theorem Sectioned.openSection {es : List (String × Value)} (h : Sectioned es) (k : Setting)
    (shape : String) :
    openSection shape k.group (Value.find k.group es) = .ok (sectionAt es k.group) := by
  cases ht : Value.find k.group es with
  | none => rw [sectionAt, ht]; rfl
  | some t =>
    obtain ⟨o, ts, rfl⟩ := h k t ht
    rw [sectionAt, ht]; rfl

/-- Of a tree whose sections are tables, only what it holds for the settings matters. -/
theorem ofValue_eq_takeAll {t : Value} (h : Sectioned t.entries) :
    ofValue t = takeAll (find · t.entries) := by
  have engine := h.openSection .engineName "EngineSection"
  have feed := h.openSection .scoreFloor "FeedSection"
  have listen := h.openSection .listenAddress "ListenSection"
  have metrics := h.openSection .metricsEnabled "MetricsSection"
  have log := h.openSection .logFormat "LogSection"
  simp only [group] at engine feed listen metrics log
  simp only [ofValue, engine, feed, listen, metrics, log]
  rfl

/-! ### Loading -/

/-- What comes of loading once settings are taken from the tree. -/
def outcome : Except Complaint Settings → Except LoadError Settings
  | .error c => .error (.complaint c)
  | .ok s =>
    match s.broken? with
    | some r => .error (.broken r)
    | none => .ok s

theorem outcome_eq_ok_iff (r : Except Complaint Settings) (s : Settings) :
    outcome r = .ok s ↔ r = .ok s ∧ s.broken? = none := by
  constructor
  · intro h
    unfold outcome at h
    split at h
    · cases h
    · split at h
      · cases h
      · rename_i kept
        cases h
        exact ⟨rfl, kept⟩
  · rintro ⟨rfl, kept⟩
    simp only [outcome, kept]

theorem loadFrom_eq_bind (host : Host) (env : List (String × String)) (file : String) :
    loadFrom host env file = (fromFile host file).bind fun es =>
      outcome (ofValue (assemble [es, fromEnvironment env])) := rfl

/-- Settings come from loading only if they keep the rules. -/
theorem broken?_of_loadFrom {host : Host} {env : List (String × String)} {file : String}
    {s : Settings} (h : loadFrom host env file = .ok s) : s.broken? = none := by
  obtain ⟨es, -, h⟩ := bind_eq_ok_iff.1 h
  exact ((outcome_eq_ok_iff _ s).1 h).2

theorem loadFrom_eq_outcome {host : Host} {env : List (String × String)} {file : String}
    {es : List (String × Value)} (hfile : fromFile host file = .ok es)
    (h : Sectioned (assemble [es, fromEnvironment env]).entries) :
    loadFrom host env file =
      outcome (takeAll (find · (assemble [es, fromEnvironment env]).entries)) := by
  rw [loadFrom_eq_bind, hfile, ← ofValue_eq_takeAll h]
  rfl

end Setting

end Agora
