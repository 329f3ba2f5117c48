import Agora.Proofs.Digits
import Agora.Proofs.Grammar

/-!
Values that can be written and read back, and their texts. Such a value has no place without a
value, only integers that fit, and containers that are not too deep. Its text spells it, and has no
control character, whatever texts stand in the value, and so no line feed.
-/

namespace Agora.Json

/-! ### Values that can be read back -/

/-- The integers that are read as integers: those of 64 bits, with a sign or without. -/
def Fits (i : Int) : Prop := -0x8000000000000000 ≤ i ∧ i ≤ 0xffffffffffffffff

/-- A value that can be read back, with containers in it at most `depth` deep. -/
inductive Plain : Nat → Json → Prop
  | null {depth : Nat} : Plain depth .null
  | bool {depth : Nat} {b : Bool} : Plain depth (.bool b)
  | int {depth : Nat} {i : Int} (fits : Fits i) : Plain depth (.int i)
  | str {depth : Nat} {s : String} : Plain depth (.str s)
  | arr {depth : Nat} {items : List Json} (all : ∀ j ∈ items, Plain depth j) :
    Plain (depth + 1) (.arr items)
  | obj {depth : Nat} {members : List (String × Json)} (all : ∀ m ∈ members, Plain depth m.2) :
    Plain (depth + 1) (.obj members)

theorem plain_optional {α : Type} {depth : Nat} {write : α → Json} (h : ∀ a, Plain depth (write a))
    (a : Option α) : Plain depth (optional write a) := by
  cases a with
  | none => exact .null
  | some a => exact h a

theorem plain_list {α : Type} {depth : Nat} {write : α → Json} (h : ∀ a, Plain depth (write a))
    (as : List α) : Plain (depth + 1) (.arr (as.map write)) := by
  refine .arr fun j hj => ?_
  obtain ⟨a, -, rfl⟩ := List.mem_map.1 hj
  exact h a

/-! ### What texts of values are made of -/

theorem writeItems_cons (j j' : Json) (todo : List Json) :
    writeItems (j :: j' :: todo) = j.write ++ ',' :: writeItems (j' :: todo) := by
  rw [writeItems]
  exact List.cons_ne_nil j' todo

theorem writeMembers_cons (name : String) (j : Json) (m : String × Json)
    (todo : List (String × Json)) : writeMembers ((name, j) :: m :: todo) =
      quote name ++ ':' :: (j.write ++ ',' :: writeMembers (m :: todo)) := by
  rw [writeMembers]
  exact List.cons_ne_nil m todo

/-- No character of a text is a control character of ASCII. -/
def Printed (cs : List Char) : Prop := ∀ c ∈ cs, ¬ c.toNat < 0x20

instance (cs : List Char) : Decidable (Printed cs) :=
  List.decidableBAll (fun c : Char => ¬ c.toNat < 0x20) cs

theorem printed_cons {c : Char} {cs : List Char} :
    Printed (c :: cs) ↔ ¬ c.toNat < 0x20 ∧ Printed cs := List.forall_mem_cons

theorem printed_append {cs ds : List Char} : Printed (cs ++ ds) ↔ Printed cs ∧ Printed ds :=
  List.forall_mem_append

theorem printed_hexPlaces (k n : Nat) : Printed (Text.hexPlaces k n) := by
  induction k generalizing n with
  | zero => exact fun c hc => (nomatch hc)
  | succ k ih =>
    have hdigit : ∀ d < 16, ¬ (Text.hexChar d).toNat < 0x20 := by decide
    exact printed_append.2 ⟨ih _, printed_cons.2 ⟨hdigit _ (Nat.mod_lt n (by decide)), by decide⟩⟩

theorem printed_escape (c : Char) : Printed (escape c) := by
  unfold escape
  iterate 7
    split
    · decide
  split
  · exact printed_cons.2 ⟨by decide, printed_cons.2 ⟨by decide, printed_hexPlaces 4 _⟩⟩
  · rename_i hcontrol
    exact printed_cons.2 ⟨hcontrol, by decide⟩

theorem printed_quote (s : String) : Printed (quote s) := by
  refine printed_cons.2 ⟨by decide, printed_append.2 ⟨fun c hc => ?_, by decide⟩⟩
  obtain ⟨d, -, hd⟩ := List.mem_flatMap.1 hc
  exact printed_escape d c hd

theorem printed_digits (n : Nat) : Printed (Decimal.digits n) := by
  intro c hc
  have hrange : '0' ≤ c ∧ c ≤ '9' := by
    simpa [Decimal.isDigit] using Decimal.isDigit_of_mem_digits n c hc
  have hlow : 48 ≤ c.toNat := hrange.1
  omega

theorem printed_signedDigits (i : Int) : Printed (Decimal.signedDigits i) := by
  cases i with
  | ofNat n => exact printed_digits n
  | negSucc n => exact printed_cons.2 ⟨by decide, printed_digits (n + 1)⟩

theorem printed_writeItems {items : List Json} (all : ∀ j ∈ items, Printed j.write) :
    Printed (writeItems items) := by
  induction items with
  | nil => decide
  | cons j items ih =>
    have hj := all j List.mem_cons_self
    have hitems := ih fun j hj => all j (List.mem_cons_of_mem _ hj)
    cases items with
    | nil => rwa [writeItems]
    | cons j' items =>
      rw [writeItems_cons]
      exact printed_append.2 ⟨hj, printed_cons.2 ⟨by decide, hitems⟩⟩

theorem printed_writeMembers {members : List (String × Json)}
    (all : ∀ m ∈ members, Printed m.2.write) : Printed (writeMembers members) := by
  induction members with
  | nil => decide
  | cons m members ih =>
    obtain ⟨name, j⟩ := m
    have hname := printed_quote name
    have hj : Printed j.write := all (name, j) List.mem_cons_self
    have hmembers := ih fun m hm => all m (List.mem_cons_of_mem _ hm)
    cases members with
    | nil =>
      rw [writeMembers]
      exact printed_append.2 ⟨hname, printed_cons.2 ⟨by decide, hj⟩⟩
    | cons m members =>
      rw [writeMembers_cons]
      exact printed_append.2 ⟨hname, printed_cons.2 ⟨by decide,
        printed_append.2 ⟨hj, printed_cons.2 ⟨by decide, hmembers⟩⟩⟩⟩

/-- The text of a value has no control character, whatever texts are in the value. -/
theorem printed_write {depth : Nat} {j : Json} (plain : Plain depth j) : Printed j.write := by
  induction plain with
  | null => decide
  | @bool _ b => cases b <;> decide
  | int fits => exact printed_signedDigits _
  | str => exact printed_quote _
  | arr _ ih =>
    exact printed_cons.2 ⟨by decide, printed_append.2 ⟨printed_writeItems ih, by decide⟩⟩
  | obj _ ih =>
    exact printed_cons.2 ⟨by decide, printed_append.2 ⟨printed_writeMembers ih, by decide⟩⟩

/-! ### Texts spell what was written -/

theorem hexDigit?_hexChar {d : Nat} (h : d < 16) :
    Text.hexDigit? (Text.hexChar d) = some d := by
  revert d; decide

theorem hex_hexPlaces {n : Nat} (h : n < 0x10000) : Hex n (Text.hexPlaces 4 n) := by
  have hdigit (m : Nat) : Text.hexDigit? (Text.hexChar (m % 16)) = some (m % 16) :=
    hexDigit?_hexChar (Nat.mod_lt m (by decide))
  refine ⟨n / 16 / 16 / 16 % 16, n / 16 / 16 % 16, n / 16 % 16, n % 16, ?_, by omega⟩
  simp [Text.hexPlaces, hdigit]

/-- The three ways in which a character is written inside a quoted text. -/
theorem escape_cases (c : Char) :
    (∃ letter, escape c = ['\\', letter] ∧ (letter, c) ∈ shortEscapes) ∨
      (escape c = '\\' :: 'u' :: Text.hexPlaces 4 c.toNat ∧ c.toNat < 0x20) ∨
      escape c = [c] ∧ c ≠ '"' ∧ c ≠ '\\' ∧ ¬ c.toNat < 0x20 := by
  unfold escape
  iterate 7
    split
    · rename_i h
      exact .inl ⟨_, rfl, by rw [h]; decide⟩
  split
  · rename_i hcontrol
    exact .inr (.inl ⟨rfl, hcontrol⟩)
  · rename_i hquote hslash _ _ _ _ _ hcontrol
    exact .inr (.inr ⟨rfl, hquote, hslash, hcontrol⟩)

/-- The pieces that are written for a text: controls without a short escape are code units. -/
theorem exists_quotes (cs : List Char) :
    ∃ ps, Quotes ps (cs.flatMap escape) ∧ text? ps = some cs := by
  induction cs with
  | nil => exact ⟨[], .nil, rfl⟩
  | cons c cs ih =>
    obtain ⟨ps, hquotes, htext⟩ := ih
    have hchar : text? (.char c :: ps) = some (c :: cs) := congrArg (Option.map (c :: ·)) htext
    rw [List.flatMap_cons]
    rcases escape_cases c with ⟨letter, hc, hknown⟩ | ⟨hc, hcontrol⟩ | ⟨hc, hfree⟩ <;> rw [hc]
    · exact ⟨_, .short hknown hquotes, hchar⟩
    · have hleading : ¬ Leading c.toNat := by
        rw [Leading]
        omega
      have htrailing : ¬ Trailing c.toNat := by
        rw [Trailing]
        omega
      refine ⟨_, .unit (hex_hexPlaces (by omega)) hquotes, ?_⟩
      rw [text?, textBehind, if_neg hleading, if_neg htrailing, ← text?, htext, Option.map_some,
        Char.ofNat_toNat]
    · exact ⟨_, .plain hfree hquotes, hchar⟩

theorem exists_named (name : String) :
    ∃ ps, Named ps (quote name) ∧ (text? ps).isSome = true ∧ nameOf ps = name := by
  obtain ⟨ps, hquotes, htext⟩ := exists_quotes name.toList
  exact ⟨ps, ⟨[], _, [], nofun, hquotes, nofun, rfl⟩, htext ▸ rfl, nameOf_of_text? htext⟩

section

variable {Allowed : Literal → Prop}
  (texts : ∀ ps, (text? ps).isSome = true → Allowed (.quoted ps)) {depth : Nat}

include texts

theorem spells_quote (s : String) : Spells Allowed depth (.value (.str s)) (quote s) := by
  obtain ⟨ps, hquotes, htext⟩ := exists_quotes s.toList
  have hsome : (text? ps).isSome = true := htext ▸ rfl
  have hspells := @Spells.text Allowed depth ps _ hquotes (texts ps hsome)
  rwa [textJson_of_isSome hsome, nameOf_of_text? htext] at hspells

theorem spells_lastMember (name : String) {j : Json} {cs : List Char}
    (last : Spells Allowed depth (.value j) cs) :
    Spells Allowed depth (.members [(name, j)]) (quote name ++ ':' :: cs) := by
  obtain ⟨ps, hnamed, hsome, rfl⟩ := exists_named name
  exact .lastMember hnamed (texts ps hsome) last

theorem spells_member (name : String) {j : Json} {members : List (String × Json)}
    {cs ds : List Char} (first : Spells Allowed depth (.value j) cs)
    (more : Spells Allowed depth (.members members) ds) :
    Spells Allowed depth (.members ((name, j) :: members))
      (quote name ++ ':' :: (cs ++ ',' :: ds)) := by
  obtain ⟨ps, hnamed, hsome, rfl⟩ := exists_named name
  exact .member hnamed (texts ps hsome) first more

end

theorem run_digits (n : Nat) : Run (Decimal.digits n) :=
  ⟨Decimal.digits_ne_nil n, Decimal.isDigit_of_mem_digits n⟩

/-- The digits of a number spell a whole numeral, with a minus sign before them or without. -/
theorem spells_digits (negative : Bool) (n : Nat) :
    Numeral.Spells ⟨negative, Decimal.digits n, none, none⟩
      (minus negative ++ Decimal.digits n) := by
  have hunpadded : (Decimal.digits n).head? = some '0' → Decimal.digits n = ['0'] := by
    intro hhead
    rcases Nat.eq_zero_or_pos n with rfl | hpos
    · decide
    · exact absurd hhead (Decimal.head_digits_ne_zero hpos)
  have h : Numeral.Spells ⟨negative, Decimal.digits n, none, none⟩
      (minus negative ++ Decimal.digits n ++ [] ++ []) := .mk (run_digits n) hunpadded .none .none
  rwa [List.append_nil, List.append_nil] at h

/-- The text of an integer spells a numeral with its value. -/
theorem exists_numeral {i : Int} (fits : Fits i) :
    ∃ n : Numeral, n.Spells (Decimal.signedDigits i) ∧ n.value = some (.int i) := by
  cases i with
  | ofNat n =>
    have hle : n ≤ 0xffffffffffffffff := Int.ofNat_le.1 fits.2
    exact ⟨_, spells_digits false n, by simp [Numeral.value, Decimal.ofDigits_digits, hle]⟩
  | negSucc n =>
    have hle : n + 1 ≤ 0x8000000000000000 := by
      have hlow := fits.1
      omega
    exact ⟨_, spells_digits true (n + 1),
      by simp [Numeral.value, Decimal.ofDigits_digits, hle, Int.negSucc_eq]⟩

theorem spells_int {depth : Nat} {i : Int} (fits : Fits i) :
    Spells Literal.Readable depth (.value (.int i)) (Decimal.signedDigits i) := by
  obtain ⟨n, hspelled, hvalue⟩ := exists_numeral fits
  have hjson : n.json = .int i := by
    rw [Numeral.json, hvalue]
    rfl
  rw [← hjson]
  exact .num hspelled (by rw [Literal.Readable, Numeral.Readable, hvalue]; rfl)

theorem spells_writeItems {depth : Nat} {items : List Json} (nonempty : items ≠ [])
    (all : ∀ j ∈ items, Spells Literal.Readable depth (.value j) j.write) :
    Spells Literal.Readable depth (.items items) (writeItems items) := by
  induction items with
  | nil => exact absurd rfl nonempty
  | cons j items ih =>
    have hj := all j List.mem_cons_self
    cases items with
    | nil =>
      rw [writeItems]
      exact .lastItem hj
    | cons j' items =>
      rw [writeItems_cons]
      exact .item hj (ih (List.cons_ne_nil _ _) fun x hx => all x (List.mem_cons_of_mem _ hx))

theorem spells_writeMembers {depth : Nat} {members : List (String × Json)}
    (nonempty : members ≠ [])
    (all : ∀ m ∈ members, Spells Literal.Readable depth (.value m.2) m.2.write) :
    Spells Literal.Readable depth (.members members) (writeMembers members) := by
  induction members with
  | nil => exact absurd rfl nonempty
  | cons m members ih =>
    obtain ⟨name, j⟩ := m
    have hj : Spells Literal.Readable depth (.value j) j.write :=
      all (name, j) List.mem_cons_self
    cases members with
    | nil =>
      rw [writeMembers]
      exact spells_lastMember (fun _ h => h) name hj
    | cons m members =>
      rw [writeMembers_cons]
      exact spells_member (fun _ h => h) name hj
        (ih (List.cons_ne_nil _ _) fun x hx => all x (List.mem_cons_of_mem _ hx))

/-- The text of a value spells the value. -/
theorem spells_write {depth : Nat} {j : Json} (plain : Plain depth j) :
    Spells Literal.Readable depth (.value j) j.write := by
  induction plain with
  | null => exact .null
  | @bool _ b => exact .bool b
  | int fits => exact spells_int fits
  | @str _ s => exact spells_quote (fun _ h => h) s
  | @arr _ items _ ih =>
    rw [write]
    cases items with
    | nil => exact .emptyList nofun
    | cons j items => exact .list (spells_writeItems (List.cons_ne_nil j items) ih)
  | @obj _ members _ ih =>
    rw [write]
    cases members with
    | nil => exact .emptyObject nofun
    | cons m members => exact .object (spells_writeMembers (List.cons_ne_nil m members) ih)

theorem whole_of_plain {depth : Nat} {j : Json} (plain : Plain depth j) : j.broken = false :=
  whole_of_spells (spells_write plain)

end Agora.Json
