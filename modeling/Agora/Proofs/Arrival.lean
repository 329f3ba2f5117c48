import Agora.Proofs.Number
import Agora.Proofs.Sources
import Agora.Proofs.Timestamp

/-!
What values of variables arrive as. A variable is read as a truth value, an integer, a number or a
text, whichever it can be first, and is turned back into what its setting needs. Doubles, truth
values and log forms come through; counts beyond the signed integers come by way of doubles, and
texts that look like something else come as that something is written.
-/

namespace Agora

open Settings Decimal

namespace Settings

/-! ### What a text is read as -/

/-- The first character of a text in lower case, if it is one of ASCII. -/
theorem head?_lower {s : String} {c : Char} (hs : s.toList.head? = some c) (hc : c.toNat < 0x80) :
    (Text.lower s).toList.head? = some c.toLower := by
  obtain ⟨cs, hs⟩ := List.head?_eq_some_iff.1 hs
  have hdot : c ≠ 'İ' := by rintro rfl; revert hc; decide
  rw [Text.lower, String.toList_ofList, hs, Text.lowerFrom, if_neg hdot]
  simp [Text.lowerChar, hc]

/-- What is read as a number is no word for a truth value. -/
theorem lower_ne_of_readFloat {s : String} {x : Float} (h : readFloat s = some x) :
    Text.lower s ≠ "true" ∧ Text.lower s ≠ "false" := by
  obtain ⟨c, hc, hascii, htrue, hfalse⟩ := initial_of_readFloat h
  have hlower := head?_lower hc hascii
  constructor
  · intro hword
    rw [hword] at hlower
    exact htrue (Option.some.inj hlower).symm
  · intro hword
    rw [hword] at hlower
    exact hfalse (Option.some.inj hlower).symm

theorem readScalar_of_readFloat {s : String} {x : Float} (h : readFloat s = some x) :
    readScalar s = match readInt64 s with
      | some i => .int i
      | none => .real x := by
  obtain ⟨htrue, hfalse⟩ := lower_ne_of_readFloat h
  rw [readScalar, if_neg htrue, if_neg hfalse]
  cases readInt64 s with
  | some i => rfl
  | none => simp only [h]

theorem readInt_of_readInt64 {s : String} {i : ℤ} (h : readInt64 s = some i) :
    readInt s = some i := by
  obtain ⟨j, hj, h⟩ := Option.bind_eq_some_iff.1 h
  split at h
  · rw [hj, h]
  · cases h

/-- A positive number arrives as it is, by way of an integer or not. -/
theorem toNumber_readScalar {s : String} {x : Float} (h : readFloat s = some x)
    (hpos : ¬ x ≤ 0.0) (o : Option String) : toNumber (.leaf o (readScalar s)) = .ok x := by
  rw [readScalar_of_readFloat h]
  cases hint : readInt64 s with
  | none => rfl
  | some i =>
    obtain ⟨negative, n, rfl, hread⟩ := readFloat_of_readInt (readInt_of_readInt64 hint)
    obtain rfl := Option.some.inj (h.symm.trans hread)
    refine congrArg Except.ok ?_
    cases negative with
    | false =>
      have hn : ¬ (n : ℤ) < 0 := by omega
      simp only [nearestTo, Bool.false_eq_true, if_false, if_neg hn, Int.natAbs_natCast]
    | true =>
      have hn : n ≠ 0 := by
        rintro rfl
        exact hpos (by decide +kernel)
      have hneg : -(n : ℤ) < 0 := by omega
      simp only [nearestTo, if_true, if_pos hneg, Int.natAbs_neg, Int.natAbs_natCast]

/-- The text of a count arrives as the count, or by way of a double. -/
theorem toCount_readScalar {n : ℕ} (h : n < 2 ^ 64) (o : Option String) :
    toCount (.leaf o (readScalar (text n))) = .ok (UInt64.ofNat (coarse n)) := by
  rw [readScalar_of_readFloat (readFloat_text n), readInt64_text]
  by_cases hsigned : n < 2 ^ 63
  · have hrange : 0 ≤ (n : ℤ) ∧ (n : ℤ) < 0x10000000000000000 := by omega
    rw [if_pos hsigned, coarse, if_pos hsigned, toCount, if_pos hrange, Int.toNat_natCast]
  · rw [if_neg hsigned]
    refine congrArg Except.ok (UInt64.toNat_inj.1 ?_)
    rw [countOf_nearest (not_lt.1 hsigned) h, UInt64.toNat_ofNat_of_lt' (coarse_lt h)]

theorem toOptional_of_toCount {t : Value} {n : UInt64} (h : toCount t = .ok n) :
    toOptional toCount t = .ok (some n) := by
  unfold toOptional
  split
  · cases h
  · rw [h]
    rfl

/-! ### Texts -/

/-- A text as it arrives: what it is read as, written again. -/
def rewritten (s : String) : String :=
  if Text.lower s = "true" ∨ Text.lower s = "false" then Text.lower s
  else
    match readInt64 s with
    | some i => signedText i
    | none =>
      match readFloat s with
      | some x => Layout.plain.writeFloat x
      | none => s

/-- A text that is written as what it is read as is written. -/
structure Kept (s : String) : Prop where
  word : Text.lower s = "true" ∨ Text.lower s = "false" → s = Text.lower s
  integer : ∀ i, readInt64 s = some i → s = signedText i
  number : ∀ x, readInt64 s = none → readFloat s = some x → s = Layout.plain.writeFloat x

theorem toText_readScalar (s : String) (o : Option String) :
    toText (.leaf o (readScalar s)) = .ok (rewritten s) := by
  rw [readScalar, rewritten]
  by_cases htrue : Text.lower s = "true"
  · rw [if_pos htrue, if_pos (.inl htrue), htrue]
    rfl
  · by_cases hfalse : Text.lower s = "false"
    · rw [if_neg htrue, if_pos hfalse, if_pos (.inr hfalse), hfalse]
      rfl
    · rw [if_neg htrue, if_neg hfalse, if_neg (not_or.2 ⟨htrue, hfalse⟩)]
      cases readInt64 s with
      | some i => rfl
      | none =>
        cases readFloat s with
        | some x => rfl
        | none => rfl

theorem rewritten_eq_self_iff (s : String) : rewritten s = s ↔ Kept s := by
  have hnumber {x : Float} (h : readFloat s = some x) :
      ¬ (Text.lower s = "true" ∨ Text.lower s = "false") :=
    not_or.2 (lower_ne_of_readFloat h)
  have hinteger {i : ℤ} (h : readInt64 s = some i) :
      ¬ (Text.lower s = "true" ∨ Text.lower s = "false") := by
    obtain ⟨negative, n, -, hread⟩ := readFloat_of_readInt (readInt_of_readInt64 h)
    exact hnumber hread
  constructor
  · intro h
    refine ⟨fun hword => ?_, fun i hi => ?_, fun x hi hx => ?_⟩
    · rw [rewritten, if_pos hword] at h
      exact h.symm
    · rw [rewritten, if_neg (hinteger hi), hi] at h
      exact h.symm
    · rw [rewritten, if_neg (hnumber hx), hi, hx] at h
      exact h.symm
  · intro h
    rw [rewritten]
    split
    · rename_i hword
      exact (h.word hword).symm
    · split
      · rename_i i hi
        exact (h.integer i hi).symm
      · rename_i hi
        split
        · rename_i x hx
          exact (h.number x hi hx).symm
        · rfl

theorem isBlank_of_mem {s : String} {c : Char} (hc : c ∈ s.toList) (h : Text.isWhite c = false) :
    Text.isBlank s = false :=
  List.all_eq_false.2 ⟨c, hc, Bool.eq_false_iff.1 h⟩

theorem isBlank_signedText (i : ℤ) : Text.isBlank (signedText i) = false := by
  obtain ⟨n, hn⟩ : ∃ n, ∀ d ∈ digits n, d ∈ (signedText i).toList := by
    rw [signedText, String.toList_ofList]
    cases i with
    | ofNat n => exact ⟨n, fun d hd => hd⟩
    | negSucc n => exact ⟨n + 1, fun d hd => List.mem_cons_of_mem _ hd⟩
  obtain ⟨d, ds, hds⟩ := List.exists_cons_of_ne_nil (digits_ne_nil n)
  have hd : d ∈ digits n := hds ▸ List.mem_cons_self
  exact isBlank_of_mem (hn d hd) (Timestamp.not_isWhite_of_isDigit (isDigit_of_mem_digits n d hd))

/-- All digits of a decimal are in its full text. -/
theorem mem_full (l : Layout) {ds : List Char} {d : Char} (hd : d ∈ ds) (point : ℤ) :
    d ∈ l.full ds point := by
  unfold Layout.full
  split
  · simp [hd]
  · split
    · rw [← List.take_append_drop point.toNat ds, List.mem_append] at hd
      rw [List.mem_append, List.mem_cons]
      exact hd.imp_right .inr
    · simp [hd]

theorem isBlank_writeFloat (x : Float) : Text.isBlank (Layout.plain.writeFloat x) = false := by
  unfold Layout.writeFloat
  split
  · decide
  · split
    · split <;> decide
    · obtain ⟨d, ds, hds⟩ := List.exists_cons_of_ne_nil (digits_ne_nil (shortest x).coefficient)
      have hd : d ∈ digits (shortest x).coefficient := hds ▸ List.mem_cons_self
      refine isBlank_of_mem (c := d) ?_
        (Timestamp.not_isWhite_of_isDigit (isDigit_of_mem_digits _ d hd))
      have hfull := mem_full .plain hd ((digits (shortest x).coefficient).length +
        (shortest x).exponent)
      rw [Layout.write, String.toList_ofList]
      cases (shortest x).negative with
      | false => exact hfull
      | true => exact List.mem_cons_of_mem _ hfull

/-- A text that is not blank does not arrive blank. -/
theorem isBlank_rewritten {s : String} (h : Text.isBlank s = false) :
    Text.isBlank (rewritten s) = false := by
  rw [rewritten]
  split
  · rename_i hword
    rcases hword with hword | hword <;> rw [hword] <;> decide
  · split
    · exact isBlank_signedText _
    · split
      · exact isBlank_writeFloat _
      · exact h

end Settings

namespace Setting

/-! ### Values and their texts -/

/-- Whether a text is that of a value. A double has many of them. -/
def Spells : (k : Setting) → k.Kind → String → Prop
  | .engineName, a, t | .listenAddress, a, t | .metricsAddress, a, t | .logFilter, a, t => t = a
  | .mailboxCapacity, n, t => t = text n.toNat
  | .defaultLimit, o, t => ∃ n, o = some n ∧ t = text n.toNat
  | .scoreFloor, x, t => readFloat t = some x
  | .metricsEnabled, b, t => t = if b then "true" else "false"
  | .logFormat, f, t => t = f.name

/-- A count as it arrives. -/
def arrivingCount (n : UInt64) : UInt64 := UInt64.ofNat (coarse n.toNat)

/-- What a value arrives as when its text is that of a variable. -/
def arrival : (k : Setting) → k.Kind → k.Kind
  | .engineName, a | .listenAddress, a | .metricsAddress, a | .logFilter, a => rewritten a
  | .mailboxCapacity, n => arrivingCount n
  | .defaultLimit, o => o.map arrivingCount
  | .scoreFloor, x => x
  | .metricsEnabled, b => b
  | .logFormat, f => f

/-- A count that is a signed integer, or a double as it is or by the bound on counts. -/
def KeptCount (n : UInt64) : Prop :=
  n.toNat < 2 ^ 63 ∨ 2048 ∣ n.toNat ∨ n.toNat = 2 ^ 64 - 1

/-- The values that arrive as they are. -/
def Faithful : (k : Setting) → k.Kind → Prop
  | .engineName, a | .listenAddress, a | .metricsAddress, a | .logFilter, a => Kept a
  | .mailboxCapacity, n => KeptCount n
  | .defaultLimit, o => ∀ n, o = some n → KeptCount n
  | _, _ => True

theorem toNat_arrivingCount (n : UInt64) : (arrivingCount n).toNat = coarse n.toNat :=
  UInt64.toNat_ofNat_of_lt' (coarse_lt n.toNat_lt)

theorem arrivingCount_eq_self_iff (n : UInt64) : arrivingCount n = n ↔ KeptCount n := by
  rw [← UInt64.toNat_inj, toNat_arrivingCount, coarse_eq_self_iff n.toNat_lt, KeptCount]

theorem arrival_eq_self_iff (k : Setting) (a : k.Kind) : k.arrival a = a ↔ k.Faithful a := by
  cases k with
  | engineName | listenAddress | metricsAddress | logFilter => exact rewritten_eq_self_iff a
  | mailboxCapacity => exact arrivingCount_eq_self_iff a
  | defaultLimit =>
    cases a with
    | none => exact ⟨fun _ => nofun, fun _ => rfl⟩
    | some n =>
      refine Iff.trans ?_ ((arrivingCount_eq_self_iff n).trans ?_)
      · exact Option.some_inj
      · exact ⟨fun h m hm => Option.some.inj hm ▸ h, fun h => h n rfl⟩
  | scoreFloor | metricsEnabled | logFormat => exact iff_of_true rfl trivial

theorem valid_arrival {k : Setting} {a : k.Kind} (h : k.Valid a) : k.Valid (k.arrival a) := by
  cases k with
  | engineName => exact isBlank_rewritten h
  | mailboxCapacity =>
    intro hzero
    apply h
    have hcoarse : coarse (UInt64.toNat a) = 0 := by
      rw [← toNat_arrivingCount]
      exact congrArg UInt64.toNat hzero
    apply UInt64.toNat_inj.1
    rw [coarse] at hcoarse
    split at hcoarse
    · exact hcoarse
    · omega
  | scoreFloor => exact h
  | _ => trivial

theorem convert_spelled {k : Setting} {a : k.Kind} (valid : k.Valid a) {t : String}
    (h : k.Spells a t) (o : Option String) :
    k.convert (.leaf o (readScalar t)) = .ok (k.arrival a) := by
  cases k with
  | engineName | listenAddress | metricsAddress | logFilter =>
    obtain rfl : t = a := h
    exact toText_readScalar _ o
  | mailboxCapacity =>
    obtain rfl : t = text (UInt64.toNat a) := h
    exact toCount_readScalar (UInt64.toNat_lt a) o
  | defaultLimit =>
    obtain ⟨n, rfl, rfl⟩ := h
    exact toOptional_of_toCount (toCount_readScalar n.toNat_lt o)
  | scoreFloor => exact toNumber_readScalar h valid.2 o
  | metricsEnabled =>
    cases a <;> cases h <;> rfl
  | logFormat =>
    cases a <;> cases h <;> rfl

/-- A variable that is named, in any case, for a setting sets it. -/
theorem keyOf?_variableName {name : String} {k : Setting}
    (h : Text.lower name = Text.lower (variableName k.group k.key)) :
    keyOf? name = some k.path := by
  rw [keyOf?, h]
  cases k <;> decide +kernel

section

variable {host : Host} {path : String} (hfile : fromFile host path = .ok []) {k : Setting}
  {a : k.Kind} {name t : String}
  (hname : Text.lower name = Text.lower (variableName k.group k.key)) (valid : k.Valid a)
  (spells : k.Spells a t)

include hfile hname valid spells

theorem loadFrom_spelled : loadFrom host [(name, t)] path = .ok (k.set (k.arrival a) {}) := by
  have hkey : keyOf? (name, t).1 = some k.path := keyOf?_variableName hname
  exact loadFrom_variable hfile hkey (convert_spelled valid spells _) (valid_arrival valid)

/-- Just the values that are kept are loaded as they are. -/
theorem loadFrom_spelled_iff :
    loadFrom host [(name, t)] path = .ok (k.set a {}) ↔ k.Faithful a := by
  rw [loadFrom_spelled hfile hname valid spells, ← arrival_eq_self_iff, Except.ok.injEq]
  constructor
  · intro h
    rw [← k.get_set (k.arrival a) {}, h, k.get_set]
  · intro h
    rw [h]

end

end Setting

namespace Settings

/-- Values of variables arrive as what they are read as. With nothing in the file, a variable that
is named for a setting and has the text of a valid value sets that setting and no other, to the
value as it arrives. Doubles, truth values and log forms arrive as they are, and each valid double
has a text; counts arrive as they are below the bound of the signed integers and where a double has
them, and texts where they are written as what they are read as. -/
theorem arrives_as_read :
    (∀ host path, fromFile host path = .ok [] → ∀ (k : Setting) (a : k.Kind) name t,
      Text.lower name = Text.lower (variableName k.group k.key) → k.Valid a → k.Spells a t →
        loadFrom host [(name, t)] path = .ok (k.set (k.arrival a) {}) ∧
        (loadFrom host [(name, t)] path = .ok (k.set a {}) ↔ k.Faithful a)) ∧
    ∀ x, Setting.scoreFloor.Valid x →
      Setting.scoreFloor.Spells x (Layout.plain.writeFloat x) := by
  constructor
  · intro host path hfile k a name t hname valid spells
    exact ⟨Setting.loadFrom_spelled hfile hname valid spells,
      Setting.loadFrom_spelled_iff hfile hname valid spells⟩
  · intro x valid
    exact readFloat_writeFloat valid.1 valid.2

/-- A count beyond the signed integers arrives as the nearest double, and digits as a filter arrive
without the zeros in front. -/
theorem arrives_rounded_and_trimmed :
    loadFrom {} [("RUSTY_REDDIT__ENGINE__MAILBOX_CAPACITY", "9223372036854776833")] "c" =
        .ok (Setting.set .mailboxCapacity (9223372036854777856 : UInt64) {}) ∧
      loadFrom {} [("RUSTY_REDDIT__LOG__FILTER", "007")] "c" =
        .ok (Setting.set .logFilter "7" {}) := by
  have hcount : Setting.arrivingCount 9223372036854776833 = 9223372036854777856 :=
    UInt64.toNat_inj.1 ((Setting.toNat_arrivingCount _).trans (by decide))
  have hword : rewritten "007" = "7" := by decide +kernel
  have hzero : (9223372036854776833 : UInt64) ≠ 0 := by decide +kernel
  have htext : "9223372036854776833" = text (9223372036854776833 : UInt64).toNat := by
    decide +kernel
  have capacity := (arrives_as_read.1 {} "c" rfl .mailboxCapacity (9223372036854776833 : UInt64)
    "RUSTY_REDDIT__ENGINE__MAILBOX_CAPACITY" _ (by decide +kernel) hzero htext).1
  have filter := (arrives_as_read.1 {} "c" rfl .logFilter "007" "RUSTY_REDDIT__LOG__FILTER" "007"
    (by decide +kernel) trivial rfl).1
  rw [Setting.arrival, hcount] at capacity
  rw [Setting.arrival, hword] at filter
  exact ⟨capacity, filter⟩

/-- Not every filter arrives as it is written, nor every count. -/
theorem not_all_arrive_as_written :
    (¬ ∀ s : String, loadFrom {} [("RUSTY_REDDIT__LOG__FILTER", s)] defaultPath =
        .ok (Setting.set .logFilter s {})) ∧
      ¬ ∀ n : UInt64, n ≠ 0 →
        loadFrom {} [("RUSTY_REDDIT__ENGINE__MAILBOX_CAPACITY", text n.toNat)] defaultPath =
          .ok (Setting.set .mailboxCapacity n {}) := by
  constructor
  · intro h
    have hkept : Kept "TRUE" := (Setting.loadFrom_spelled_iff (k := .logFilter) rfl
      (by decide +kernel) trivial rfl).1 (h "TRUE")
    have hlower : Text.lower "TRUE" = "true" := by decide +kernel
    have hsame : "TRUE" = Text.lower "TRUE" := hkept.word (.inl hlower)
    rw [hlower] at hsame
    exact absurd hsame (by decide)
  · intro h
    have hkept (n : UInt64) (hn : n ≠ 0) : Setting.KeptCount n :=
      (Setting.loadFrom_spelled_iff (k := .mailboxCapacity) (a := n) rfl (by decide +kernel) hn
        rfl).1 (h n hn)
    have hcount := hkept 9223372036854775809 (by decide)
    revert hcount
    rw [Setting.KeptCount]
    decide

end Settings

end Agora
