import Agora.Json.Numeral
import Agora.Text.Hex

/-!
The grammar of JSON texts, apart from any reader: which characters may stand between quotes, which
spell a numeral, and which spell a value whose containers are at most so deep. There may be white
space around every value and every name. Not all that is well formed stands for something: a numeral
may be too large, and half of a surrogate pair may stand alone between quotes. Which of them are
allowed is left open; those that have no value spell a spoilt place.
-/

namespace Agora.Json

open Text (hexDigit?)
open Decimal (isDigit ofDigits)

/-- White space. -/
def Blank (cs : List Char) : Prop := ∀ c ∈ cs, c = ' ' ∨ c = '\n' ∨ c = '\t' ∨ c = '\r'

/-! ### Quoted texts -/

/-- The letters that follow a backslash, with the characters that they stand for. -/
def shortEscapes : List (Char × Char) :=
  [('"', '"'), ('\\', '\\'), ('/', '/'), ('b', '\x08'), ('f', '\x0c'), ('n', '\n'), ('r', '\r'),
    ('t', '\t')]

/-- Four hexadecimal digits, and the number that they spell. -/
def Hex (n : Nat) (cs : List Char) : Prop :=
  ∃ a b c d, cs.map hexDigit? = [some a, some b, some c, some d] ∧
    n = 16 * (16 * (16 * a + b) + c) + d

/-- A code unit that starts a surrogate pair. -/
def Leading (n : Nat) : Prop := 0xD800 ≤ n ∧ n ≤ 0xDBFF

/-- A code unit that ends a surrogate pair. -/
def Trailing (n : Nat) : Prop := 0xDC00 ≤ n ∧ n ≤ 0xDFFF

/-- The character of a surrogate pair. -/
def paired (high low : Nat) : Char :=
  Char.ofNat ((high - 0xD800) * 0x400 + (low - 0xDC00) + 0x10000)

instance (n : Nat) : Decidable (Leading n) := inferInstanceAs (Decidable (_ ∧ _))

instance (n : Nat) : Decidable (Trailing n) := inferInstanceAs (Decidable (_ ∧ _))

/-- A part of what stands between quotes: a character, as it is or behind a backslash, or a code
unit of UTF-16 by its hexadecimal digits. -/
inductive Piece where
  | char (c : Char)
  | unit (n : Nat)

/-- What may stand between quotes, piece by piece. -/
inductive Quotes : List Piece → List Char → Prop
  | nil : Quotes [] []
  | plain {c : Char} {ps : List Piece} {cs : List Char}
    (free : c ≠ '"' ∧ c ≠ '\\' ∧ ¬ c.toNat < 0x20) (tail : Quotes ps cs) :
    Quotes (.char c :: ps) (c :: cs)
  | short {letter c : Char} {ps : List Piece} {cs : List Char}
    (known : (letter, c) ∈ shortEscapes) (tail : Quotes ps cs) :
    Quotes (.char c :: ps) ('\\' :: letter :: cs)
  | unit {n : Nat} {hex : List Char} {ps : List Piece} {cs : List Char} (digits : Hex n hex)
    (tail : Quotes ps cs) : Quotes (.unit n :: ps) ('\\' :: 'u' :: (hex ++ cs))

/-- The text of pieces, the first of which may have to be the other half of a surrogate pair. -/
def textBehind : Option Nat → List Piece → Option (List Char)
  | none, [] => some []
  | none, .char c :: ps => (textBehind none ps).map (c :: ·)
  | none, .unit n :: ps =>
    if Leading n then textBehind (some n) ps
    else if Trailing n then none
    else (textBehind none ps).map (Char.ofNat n :: ·)
  | some high, .unit low :: ps =>
    if Trailing low then (textBehind none ps).map (paired high low :: ·) else none
  | some _, _ => none

/-- The text of pieces; there is none if half of a surrogate pair stands alone among them. -/
def text? (ps : List Piece) : Option (List Char) := textBehind none ps

/-- The value that pieces stand for. -/
def textJson (ps : List Piece) : Json :=
  match text? ps with
  | some text => .str (String.ofList text)
  | none => .spoilt

/-- The name that pieces stand for; without a text of theirs it is empty. -/
def nameOf (ps : List Piece) : String := String.ofList ((text? ps).getD [])

theorem nameOf_of_text? {ps : List Piece} {s : String} (h : text? ps = some s.toList) :
    nameOf ps = s := by
  rw [nameOf, h, Option.getD_some, String.ofList_toList]

theorem textJson_of_isSome {ps : List Piece} (h : (text? ps).isSome = true) :
    textJson ps = .str (nameOf ps) := by
  obtain ⟨text, htext⟩ := Option.isSome_iff_exists.1 h
  simp only [textJson, nameOf, htext, Option.getD_some]

/-! ### Numerals -/

/-- One digit or more. -/
def Run (ds : List Char) : Prop := ds ≠ [] ∧ ∀ d ∈ ds, isDigit d = true

/-- A fraction, if there is one. -/
inductive Fraction : Option (List Char) → List Char → Prop
  | none : Fraction none []
  | some {ds : List Char} (run : Run ds) : Fraction (some ds) ('.' :: ds)

/-- An exponent, if there is one: whether it is negative, and its digits. -/
inductive Exponent : Option (Bool × List Char) → List Char → Prop
  | none : Exponent none []
  | some {negative : Bool} {mark : Char} {sign ds : List Char} (letter : mark = 'e' ∨ mark = 'E')
    (signed : if negative then sign = ['-'] else sign = [] ∨ sign = ['+']) (run : Run ds) :
    Exponent (some (negative, ds)) (mark :: (sign ++ ds))

/-- The sign of a number that may be negative. -/
def minus (negative : Bool) : List Char := if negative then ['-'] else []

/-- The text of a numeral. It starts with a zero only if no other digit stands before the point. -/
inductive Numeral.Spells : Numeral → List Char → Prop
  | mk {negative : Bool} {whole fs es : List Char} {fraction : Option (List Char)}
    {exponent : Option (Bool × List Char)} (run : Run whole)
    (unpadded : whole.head? = some '0' → whole = ['0']) (point : Fraction fraction fs)
    (power : Exponent exponent es) :
    Spells ⟨negative, whole, fraction, exponent⟩ (minus negative ++ whole ++ fs ++ es)

/-- The value that a numeral stands for. -/
def Numeral.json (n : Numeral) : Json :=
  match n.value with
  | some v => .num v
  | none => .spoilt

/-- A numeral for which a value is found. -/
def Numeral.Readable (n : Numeral) : Prop := n.value.isSome = true

/-- The number that an exponent spells, with its sign; zero where there is none. -/
def signedExponent : Option (Bool × List Char) → Int
  | none => 0
  | some (negative, ds) => if negative then -(ofDigits ds : Int) else ofDigits ds

/-- The power of ten that the last digit of a numeral counts. -/
def Numeral.power (n : Numeral) : Int := signedExponent n.exponent - (n.fraction.getD []).length

/-- A numeral that is no larger than a bound, and no smaller than its negative. -/
def Numeral.Within (n : Numeral) (bound : Nat) : Prop :=
  ofDigits (n.whole ++ n.fraction.getD []) * Nat.pow 10 n.power.toNat ≤
    bound * Nat.pow 10 (-n.power).toNat

instance (n : Numeral) (bound : Nat) : Decidable (n.Within bound) := Nat.decLe _ _

/-- The largest double. -/
def largestDouble : Nat := (Nat.pow 2 53 - 1) * Nat.pow 2 971

/-- A numeral in the range of doubles. -/
def Numeral.InDoubles (n : Numeral) : Prop := n.Within largestDouble

instance (n : Numeral) : Decidable n.InDoubles := inferInstanceAs (Decidable (n.Within _))

/-- A double a little below the largest one: by three units in its last place. -/
def moderateDouble : Nat := (Nat.pow 2 51 - 1) * Nat.pow 2 973

/-- A numeral that keeps away from the ends of the range of doubles, and whose fraction has less
than a billion digits. -/
def Numeral.Moderate (n : Numeral) : Prop :=
  n.Within moderateDouble ∧ (n.fraction.getD []).length < 1000000000

instance (n : Numeral) : Decidable n.Moderate := inferInstanceAs (Decidable (_ ∧ _))

/-- A numeral that spells an integer: it has neither point nor exponent and fits 64 bits, with a
sign or without. Minus zero spells none. -/
structure Numeral.SpellsInt (n : Numeral) (i : Int) : Prop where
  noPoint : n.fraction = none
  noExponent : n.exponent = none
  fits : ofDigits n.whole ≤ if n.negative then 0x8000000000000000 else 0xffffffffffffffff
  signed : n.negative = false ∨ ofDigits n.whole ≠ 0
  value : i = if n.negative then -(ofDigits n.whole : Int) else ofDigits n.whole

/-- Integers are what is spelled as one. -/
theorem Numeral.json_eq_int_iff {n : Numeral} {i : Int} : n.json = .int i ↔ n.SpellsInt i := by
  have hjson : n.json = .int i ↔ n.value = some (.int i) := by
    rw [Numeral.json, Json.int]
    split <;> simp [*]
  rw [hjson, Numeral.value]
  by_cases h : n.fraction = none ∧ n.exponent = none ∧
      ofDigits n.whole ≤ (if n.negative then 0x8000000000000000 else 0xffffffffffffffff) ∧
      (n.negative = false ∨ ofDigits n.whole ≠ 0)
  · rw [if_pos (by simpa [and_assoc] using h), Option.some.injEq, Number.int.injEq, eq_comm]
    exact ⟨fun hi => ⟨h.1, h.2.1, h.2.2.1, h.2.2.2, hi⟩, SpellsInt.value⟩
  · rw [if_neg (by simpa [and_assoc] using h)]
    refine ⟨fun hreal => ?_, fun hint => ?_⟩
    · obtain ⟨x, -, hx⟩ := Option.map_eq_some_iff.1 hreal
      exact nomatch hx
    · exact absurd ⟨hint.noPoint, hint.noExponent, hint.fits, hint.signed⟩ h

/-! ### Literals -/

/-- What may be well formed without standing for anything: numerals and what is between quotes. -/
inductive Literal where
  | numeral (n : Numeral)
  | quoted (ps : List Piece)

/-- A literal that stands for something. -/
def Literal.Readable : Literal → Prop
  | .numeral n => n.Readable
  | .quoted ps => (text? ps).isSome = true

/-- A literal that is no numeral beyond the doubles. -/
def Literal.InDoubles : Literal → Prop
  | .numeral n => n.InDoubles
  | .quoted _ => True

/-- A literal that is a moderate numeral or a text with all its surrogates in pairs. -/
def Literal.Moderate : Literal → Prop
  | .numeral n => n.Moderate
  | .quoted ps => (text? ps).isSome = true

instance : (l : Literal) → Decidable l.InDoubles
  | .numeral n => inferInstanceAs (Decidable n.InDoubles)
  | .quoted _ => inferInstanceAs (Decidable True)

instance : (l : Literal) → Decidable l.Moderate
  | .numeral n => inferInstanceAs (Decidable n.Moderate)
  | .quoted _ => inferInstanceAs (Decidable (_ = true))

/-! ### Values -/

/-- A name with its quotes, and white space around it. -/
def Named (name : List Piece) (cs : List Char) : Prop :=
  ∃ before quoted after, Blank before ∧ Quotes name quoted ∧ Blank after ∧
    cs = before ++ '"' :: (quoted ++ '"' :: after)

/-- What stands in a text: a value, or the values or members inside a container. -/
inductive Phrase where
  | value (j : Json)
  | items (items : List Json)
  | members (members : List (String × Json))

/-- The text of a phrase whose containers are at most `depth` deep and whose literals are all
allowed. -/
inductive Spells (Allowed : Literal → Prop) : Nat → Phrase → List Char → Prop
  | null {depth : Nat} : Spells Allowed depth (.value .null) "null".toList
  | bool {depth : Nat} (b : Bool) :
    Spells Allowed depth (.value (.bool b)) (if b then "true" else "false").toList
  | num {depth : Nat} {n : Numeral} {cs : List Char} (spelled : n.Spells cs)
    (allowed : Allowed (.numeral n)) : Spells Allowed depth (.value n.json) cs
  | text {depth : Nat} {ps : List Piece} {cs : List Char} (quotes : Quotes ps cs)
    (allowed : Allowed (.quoted ps)) :
    Spells Allowed depth (.value (textJson ps)) ('"' :: (cs ++ ['"']))
  | padded {depth : Nat} {j : Json} {before cs after : List Char} (hbefore : Blank before)
    (hafter : Blank after) (inner : Spells Allowed depth (.value j) cs) :
    Spells Allowed depth (.value j) (before ++ cs ++ after)
  | emptyList {depth : Nat} {gap : List Char} (blank : Blank gap) :
    Spells Allowed (depth + 1) (.value (.arr [])) ('[' :: (gap ++ [']']))
  | list {depth : Nat} {items : List Json} {cs : List Char}
    (inner : Spells Allowed depth (.items items) cs) :
    Spells Allowed (depth + 1) (.value (.arr items)) ('[' :: (cs ++ [']']))
  | emptyObject {depth : Nat} {gap : List Char} (blank : Blank gap) :
    Spells Allowed (depth + 1) (.value (.obj [])) ('{' :: (gap ++ ['}']))
  | object {depth : Nat} {members : List (String × Json)} {cs : List Char}
    (inner : Spells Allowed depth (.members members) cs) :
    Spells Allowed (depth + 1) (.value (.obj members)) ('{' :: (cs ++ ['}']))
  | lastItem {depth : Nat} {j : Json} {cs : List Char} (last : Spells Allowed depth (.value j) cs) :
    Spells Allowed depth (.items [j]) cs
  | item {depth : Nat} {j : Json} {items : List Json} {cs ds : List Char}
    (first : Spells Allowed depth (.value j) cs) (more : Spells Allowed depth (.items items) ds) :
    Spells Allowed depth (.items (j :: items)) (cs ++ ',' :: ds)
  | lastMember {depth : Nat} {name : List Piece} {j : Json} {ns cs : List Char}
    (named : Named name ns) (allowed : Allowed (.quoted name))
    (last : Spells Allowed depth (.value j) cs) :
    Spells Allowed depth (.members [(nameOf name, j)]) (ns ++ ':' :: cs)
  | member {depth : Nat} {name : List Piece} {j : Json} {members : List (String × Json)}
    {ns cs ds : List Char} (named : Named name ns) (allowed : Allowed (.quoted name))
    (first : Spells Allowed depth (.value j) cs)
    (more : Spells Allowed depth (.members members) ds) :
    Spells Allowed depth (.members ((nameOf name, j) :: members)) (ns ++ ':' :: (cs ++ ',' :: ds))

/-- A text whose literals are all of one kind is a text of a wider kind. -/
theorem spells_imp {Allowed Allowed' : Literal → Prop} (imp : ∀ l, Allowed l → Allowed' l)
    {depth : Nat} {phrase : Phrase} {cs : List Char} (spelled : Spells Allowed depth phrase cs) :
    Spells Allowed' depth phrase cs := by
  induction spelled with
  | null => exact .null
  | bool b => exact .bool b
  | num spelled allowed => exact .num spelled (imp _ allowed)
  | text quotes allowed => exact .text quotes (imp _ allowed)
  | padded hbefore hafter _ ih => exact .padded hbefore hafter ih
  | emptyList blank => exact .emptyList blank
  | list _ ih => exact .list ih
  | emptyObject blank => exact .emptyObject blank
  | object _ ih => exact .object ih
  | lastItem _ ih => exact .lastItem ih
  | item _ _ first more => exact .item first more
  | lastMember named allowed _ ih => exact .lastMember named (imp _ allowed) ih
  | member named allowed _ _ first more => exact .member named (imp _ allowed) first more

/-! ### Gaps -/

/-- Whether reading broke off inside a phrase. -/
def Phrase.broken : Phrase → Bool
  | .value j => j.broken
  | .items js => brokenItems js
  | .members ms => brokenMembers ms

/-- What a text spells is whole. -/
theorem whole_of_spells {Allowed : Literal → Prop} {depth : Nat} {phrase : Phrase} {cs : List Char}
    (spelled : Spells Allowed depth phrase cs) : phrase.broken = false := by
  induction spelled with
  | @num _ n =>
    simp only [Phrase.broken, Numeral.json]
    split <;> rfl
  | @text _ ps =>
    simp only [Phrase.broken, textJson]
    split <;> rfl
  | padded _ _ _ ih => exact ih
  | list _ ih => exact ih
  | object _ ih => exact ih
  | lastItem _ ih => exact (Bool.or_false _).trans ih
  | item _ _ first more => exact Bool.or_eq_false_iff.2 ⟨first, more⟩
  | lastMember _ _ _ ih => exact (Bool.or_false _).trans ih
  | member _ _ _ _ first more => exact Bool.or_eq_false_iff.2 ⟨first, more⟩
  | _ => rfl

theorem brokenMembers_eq_false_iff {members : List (String × Json)} :
    brokenMembers members = false ↔ ∀ m ∈ members, m.2.broken = false := by
  induction members with
  | nil => exact ⟨fun _ _ hm => absurd hm List.not_mem_nil, fun _ => rfl⟩
  | cons m members ih =>
    rw [brokenMembers, Bool.or_eq_false_iff, ih, List.forall_mem_cons]

end Agora.Json
