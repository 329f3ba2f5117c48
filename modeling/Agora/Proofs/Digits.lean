import Agora.Decimal.Digits
import Mathlib.Data.List.Basic

/-!
Numbers as runs of digits. The digits of a number, the last few of them and a padded run are digits
throughout and spell the number, or as much of it as they have places for; the digits of a number
start with a zero only for zero. A run that is followed by something else is found again in the
text.
-/

namespace Agora.Decimal

theorem ofDigits_concat (ds : List Char) (d : Char) :
    ofDigits (ds ++ [d]) = 10 * ofDigits ds + digitValue d := by
  rw [ofDigits, List.foldl_append]
  rfl

/-! ### The digits of a number -/

/-- Any fuel beyond the number writes all its digits. -/
theorem digitsBefore_eq {fuel n : Nat} (h : n < fuel) (tail : List Char) :
    digitsBefore fuel n tail = digits n ++ tail := by
  -- on the fuel: the number without its last digit is written with less fuel on both sides
  induction fuel using Nat.strongRecOn generalizing n tail with
  | ind fuel ih =>
    cases fuel with
    | zero => exact absurd h (Nat.not_lt_zero n)
    | succ fuel =>
      rw [digits, digitsBefore, digitsBefore]
      split
      · rfl
      · rw [ih fuel (by omega) (by omega), ih n (by omega) (by omega), List.append_assoc]
        rfl

theorem digits_of_lt {n : Nat} (h : n < 10) : digits n = [digitChar n] := by
  rw [digits, digitsBefore, if_pos h]

theorem digits_of_le {n : Nat} (h : 10 ≤ n) :
    digits n = digits (n / 10) ++ [digitChar (n % 10)] := by
  rw [digits, digitsBefore, if_neg (Nat.not_lt.2 h), digitsBefore_eq (by omega)]

theorem isDigit_of_mem_digits (n : Nat) : ∀ d ∈ digits n, isDigit d = true := by
  induction n using Nat.strongRecOn with
  | ind n ih =>
    intro d hd
    by_cases h : n < 10
    · rw [digits_of_lt h, List.mem_singleton] at hd
      rw [hd, isDigit_digitChar h]
    · rw [digits_of_le (Nat.not_lt.1 h), List.mem_append, List.mem_singleton] at hd
      rcases hd with hd | rfl
      · exact ih (n / 10) (by omega) d hd
      · exact isDigit_digitChar (by omega)

theorem ofDigits_digits (n : Nat) : ofDigits (digits n) = n := by
  induction n using Nat.strongRecOn with
  | ind n ih =>
    by_cases h : n < 10
    · rw [digits_of_lt h, ← List.nil_append [digitChar n], ofDigits_concat, digitValue_digitChar h]
      simp [ofDigits]
    · rw [digits_of_le (Nat.not_lt.1 h), ofDigits_concat, ih (n / 10) (by omega),
        digitValue_digitChar (by omega)]
      omega

theorem digits_injective {n n' : Nat} (h : digits n = digits n') : n = n' := by
  rw [← ofDigits_digits n, h, ofDigits_digits]

theorem digits_ne_nil (n : Nat) : digits n ≠ [] := by
  by_cases h : n < 10
  · simp [digits_of_lt h]
  · simp [digits_of_le (Nat.not_lt.1 h)]

theorem digitChar_ne_zero {n : Nat} (h : n < 10) (pos : 0 < n) : digitChar n ≠ '0' := by
  revert n; decide

/-- The first digit of a number that is not zero is not a zero. -/
theorem head_digits_ne_zero {n : Nat} (pos : 0 < n) : (digits n).head? ≠ some '0' := by
  induction n using Nat.strongRecOn with
  | ind n ih =>
    by_cases h : n < 10
    · simp [digits_of_lt h, digitChar_ne_zero h pos]
    · have hne := ih (n / 10) (by omega) (by omega)
      rw [digits_of_le (Nat.not_lt.1 h)]
      cases hds : digits (n / 10) with
      | nil => exact absurd hds (digits_ne_nil _)
      | cons d ds => rwa [hds] at hne

theorem length_digits_le {n k : Nat} (pos : 0 < k) (h : n < Nat.pow 10 k) :
    (digits n).length ≤ k := by
  induction k generalizing n with
  | zero => exact absurd pos (Nat.lt_irrefl 0)
  | succ k ih =>
    by_cases hn : n < 10
    · simp [digits_of_lt hn]
    · have hk : 0 < k := Nat.pos_of_ne_zero fun hk => hn (by simpa [hk] using h)
      have hdiv : n / 10 < Nat.pow 10 k := Nat.div_lt_of_lt_mul (Nat.mul_comm .. ▸ h)
      simpa [digits_of_le (Nat.not_lt.1 hn)] using ih hk hdiv

/-! ### Places -/

theorem lt_pow_length_digits (n : Nat) : n < Nat.pow 10 (digits n).length := by
  induction n using Nat.strongRecOn with
  | ind n ih =>
    by_cases h : n < 10
    · rw [digits_of_lt h]
      exact h
    · have hdiv : n / 10 < n := by omega
      have hrest : n / 10 < Nat.pow 10 (digits (n / 10)).length := ih _ hdiv
      rw [digits_of_le (by omega), List.length_append, List.length_singleton]
      change n < Nat.pow 10 (digits (n / 10)).length * 10
      omega

theorem pow_length_digits_le {n : Nat} (pos : 0 < n) :
    Nat.pow 10 ((digits n).length - 1) ≤ n := by
  have hlength : 0 < (digits n).length := List.length_pos_of_ne_nil (digits_ne_nil n)
  by_contra hlt
  by_cases hone : (digits n).length - 1 = 0
  · rw [hone] at hlt
    exact hlt pos
  · have := length_digits_le (Nat.pos_of_ne_zero hone) (Nat.not_le.1 hlt)
    omega

theorem length_places (k n : Nat) : (places k n).length = k := by
  induction k generalizing n with
  | zero => rfl
  | succ k ih => rw [places, List.length_append, ih, List.length_singleton]

theorem isDigit_of_mem_places (k n : Nat) : ∀ d ∈ places k n, isDigit d = true := by
  induction k generalizing n with
  | zero => intro d hd; exact nomatch hd
  | succ k ih =>
    intro d hd
    rw [places, List.mem_append, List.mem_singleton] at hd
    rcases hd with hd | rfl
    · exact ih (n / 10) d hd
    · exact isDigit_digitChar (by omega)

theorem ofDigits_places {k n : Nat} (h : n < Nat.pow 10 k) : ofDigits (places k n) = n := by
  induction k generalizing n with
  | zero => simp_all [places, ofDigits]
  | succ k ih =>
    have hdiv : n / 10 < Nat.pow 10 k := Nat.div_lt_of_lt_mul (Nat.mul_comm .. ▸ h)
    rw [places, ofDigits_concat, ih hdiv, digitValue_digitChar (by omega)]
    omega

/-! ### Padding -/

theorem ofDigits_replicate_append (k : Nat) (ds : List Char) :
    ofDigits (List.replicate k '0' ++ ds) = ofDigits ds := by
  induction k with
  | zero => rfl
  | succ k ih => rw [List.replicate_succ, List.cons_append, ← ih]; rfl

theorem ofDigits_append_replicate (ds : List Char) (k : Nat) :
    ofDigits (ds ++ List.replicate k '0') = ofDigits ds * Nat.pow 10 k := by
  induction k with
  | zero => simp
  | succ k ih =>
    rw [List.replicate_succ', ← List.append_assoc, ofDigits_concat, ih]
    change 10 * (ofDigits ds * Nat.pow 10 k) + 0 = ofDigits ds * (Nat.pow 10 k * 10)
    rw [Nat.add_zero, Nat.mul_comm 10, Nat.mul_assoc]

theorem ofDigits_padded (k n : Nat) : ofDigits (padded k n) = n := by
  rw [padded, ofDigits_replicate_append, ofDigits_digits]

theorem isDigit_of_mem_padded (k n : Nat) : ∀ d ∈ padded k n, isDigit d = true := by
  intro d hd
  rw [padded, List.mem_append, List.mem_replicate] at hd
  rcases hd with ⟨-, rfl⟩ | hd
  · decide
  · exact isDigit_of_mem_digits n d hd

theorem padded_ne_nil (k n : Nat) : padded k n ≠ [] := by
  rw [padded]
  exact List.append_ne_nil_of_right_ne_nil _ (digits_ne_nil n)

theorem length_padded {k n : Nat} (pos : 0 < k) (h : n < Nat.pow 10 k) :
    (padded k n).length = k := by
  rw [padded, List.length_append, List.length_replicate,
    Nat.sub_add_cancel (length_digits_le pos h)]

/-! ### Where a run ends -/

/-- A text that does not go on with a digit. -/
def Halts (cs : List Char) : Prop := ∀ c ∈ cs.head?, isDigit c = false

theorem takeWhile_digits {ds rest : List Char} (digits : ∀ d ∈ ds, isDigit d = true)
    (halts : Halts rest) : (ds ++ rest).takeWhile isDigit = ds := by
  rw [List.takeWhile_append_of_pos digits]
  cases rest with
  | nil => simp
  | cons c rest => rw [List.takeWhile_cons_of_neg (by simp [halts c rfl]), List.append_nil]

theorem dropWhile_of_halts {cs : List Char} (h : Halts cs) : cs.dropWhile isDigit = cs := by
  cases cs with
  | nil => rfl
  | cons c cs => exact List.dropWhile_cons_of_neg (by simp [h c rfl])

theorem halts_cons {c : Char} (h : isDigit c = false) (rest : List Char) : Halts (c :: rest) := by
  intro d hd
  cases hd
  exact h

end Agora.Decimal
