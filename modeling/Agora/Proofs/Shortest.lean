import Agora.Decimal.Shortest
import Agora.Proofs.Nearest

/-!
The shortest decimals of doubles. A grid with seventeen more digits than the leading one is finer
than the rounding interval is wide, so the search from coarse to fine finds a decimal in the
interval; trailing zeros are dropped without a change of its value.
-/

namespace Agora.Double

open Decimal

/-! ### Grids -/

/-- Whether a point of the grid `10 ^ k` is in an interval. -/
def Inside (i : Interval) (k : ℤ) (c : ℕ) : Prop :=
  if i.closed then
    i.low * Nat.pow 10 (-k).toNat ≤ c * (i.unit * Nat.pow 10 k.toNat) ∧
      c * (i.unit * Nat.pow 10 k.toNat) ≤ i.high * Nat.pow 10 (-k).toNat
  else
    i.low * Nat.pow 10 (-k).toNat < c * (i.unit * Nat.pow 10 k.toNat) ∧
      c * (i.unit * Nat.pow 10 k.toNat) < i.high * Nat.pow 10 (-k).toNat

instance (i : Interval) (k : ℤ) (c : ℕ) : Decidable (Inside i k c) :=
  inferInstanceAs (Decidable (if i.closed then _ else _))

/-- The point of the grid `10 ^ k` just below the middle of an interval. -/
def below (i : Interval) (k : ℤ) : ℕ :=
  i.middle * Nat.pow 10 (-k).toNat / (i.unit * Nat.pow 10 k.toNat)

section

variable {i : Interval} {k : ℤ} {c : ℕ}

/-- A neighbour is found inside, and none is found only if the point below the middle is not. -/
theorem neighbour?_cases (i : Interval) (k : ℤ) :
    (∃ c, i.neighbour? k = some c ∧ 0 < c ∧ Inside i k c) ∨
      i.neighbour? k = none ∧ ¬ (Inside i k (below i k) ∧ 0 < below i k) := by
  have hneighbour : i.neighbour? k =
      if (decide (Inside i k (below i k)) && decide (0 < below i k)) &&
          decide (Inside i k (below i k + 1)) then
        if i.middle * Nat.pow 10 (-k).toNat - below i k * (i.unit * Nat.pow 10 k.toNat) <
            (below i k + 1) * (i.unit * Nat.pow 10 k.toNat) - i.middle * Nat.pow 10 (-k).toNat then
          some (below i k)
        else if (below i k + 1) * (i.unit * Nat.pow 10 k.toNat) -
            i.middle * Nat.pow 10 (-k).toNat <
            i.middle * Nat.pow 10 (-k).toNat - below i k * (i.unit * Nat.pow 10 k.toNat) then
          some (below i k + 1)
        else some (if below i k % 2 = 0 then below i k else below i k + 1)
      else if decide (Inside i k (below i k)) && decide (0 < below i k) then some (below i k)
      else if decide (Inside i k (below i k + 1)) then some (below i k + 1)
      else none := rfl
  generalize below i k = b at hneighbour ⊢
  simp only [Bool.and_eq_true, decide_eq_true_eq] at hneighbour
  rw [hneighbour]
  by_cases lower : Inside i k b ∧ 0 < b <;> by_cases upper : Inside i k (b + 1)
  · left
    rw [if_pos ⟨lower, upper⟩]
    split
    · exact ⟨b, rfl, lower.2, lower.1⟩
    · split
      · exact ⟨b + 1, rfl, b.succ_pos, upper⟩
      · split
        · exact ⟨b, rfl, lower.2, lower.1⟩
        · exact ⟨b + 1, rfl, b.succ_pos, upper⟩
  · left
    rw [if_neg (fun h => upper h.2), if_pos lower]
    exact ⟨b, rfl, lower.2, lower.1⟩
  · left
    rw [if_neg (fun h => lower h.1), if_neg lower, if_pos upper]
    exact ⟨b + 1, rfl, b.succ_pos, upper⟩
  · right
    rw [if_neg (fun h => lower h.1), if_neg lower, if_neg upper]
    exact ⟨rfl, lower⟩

/-- A point of a grid, scaled to natural numbers as the bounds of an interval are. -/
theorem mul_ten_zpow (unit : 0 < i.unit) (k : ℤ) (c : ℕ) :
    (c : ℚ) * 10 ^ k = ((c * (i.unit * Nat.pow 10 k.toNat) : ℕ) : ℚ) / i.unit /
      (Nat.pow 10 (-k).toNat : ℕ) := by
  have hunit : (i.unit : ℚ) ≠ 0 := by exact_mod_cast unit.ne'
  rw [zpow_eq_div (by norm_num)]
  simp only [Nat.pow_eq]
  push_cast
  field_simp

theorem le_grid_iff (unit : 0 < i.unit) (k : ℤ) (a c : ℕ) :
    (a : ℚ) / i.unit ≤ c * 10 ^ k ↔
      a * Nat.pow 10 (-k).toNat ≤ c * (i.unit * Nat.pow 10 k.toNat) := by
  have hunit : (0 : ℚ) < i.unit := by exact_mod_cast unit
  have hup : (0 : ℚ) < (Nat.pow 10 (-k).toNat : ℕ) := by exact_mod_cast Nat.pow_pos (by decide)
  rw [mul_ten_zpow unit, le_div_iff₀ hup, div_mul_eq_mul_div, div_le_div_iff_of_pos_right hunit]
  exact_mod_cast Iff.rfl

theorem grid_le_iff (unit : 0 < i.unit) (k : ℤ) (a c : ℕ) :
    c * 10 ^ k ≤ (a : ℚ) / i.unit ↔
      c * (i.unit * Nat.pow 10 k.toNat) ≤ a * Nat.pow 10 (-k).toNat := by
  have hunit : (0 : ℚ) < i.unit := by exact_mod_cast unit
  have hup : (0 : ℚ) < (Nat.pow 10 (-k).toNat : ℕ) := by exact_mod_cast Nat.pow_pos (by decide)
  rw [mul_ten_zpow unit, div_le_iff₀ hup, div_mul_eq_mul_div, div_le_div_iff_of_pos_right hunit]
  exact_mod_cast Iff.rfl

theorem inside_iff (unit : 0 < i.unit) :
    Inside i k c ↔
      if i.closed then
        (i.low : ℚ) / i.unit ≤ c * 10 ^ k ∧ c * 10 ^ k ≤ (i.high : ℚ) / i.unit
      else (i.low : ℚ) / i.unit < c * 10 ^ k ∧ c * 10 ^ k < (i.high : ℚ) / i.unit := by
  simp only [Inside, ← not_le, le_grid_iff unit, grid_le_iff unit]

theorem below_le (unit : 0 < i.unit) (k : ℤ) : below i k * 10 ^ k ≤ (i.middle : ℚ) / i.unit :=
  (grid_le_iff unit k _ _).2 (Nat.div_mul_le_self _ _)

theorem lt_below_succ (unit : 0 < i.unit) (k : ℤ) :
    (i.middle : ℚ) / i.unit < (below i k + 1 : ℕ) * 10 ^ k := by
  rw [← not_le, grid_le_iff unit, not_le, mul_comm (below i k + 1)]
  exact Nat.lt_mul_div_succ _ (Nat.mul_pos unit (Nat.pow_pos (by decide)))

/-! ### The search -/

/-- The search ends at a neighbour if there is one on a grid that it reaches. -/
theorem neighbour?_search (i : Interval) (fuel : ℕ) {j : ℕ} (hj : j < fuel)
    (h : (i.neighbour? (k - j)).isSome) :
    i.neighbour? (i.search fuel k).2 = some (i.search fuel k).1 := by
  induction fuel generalizing k j with
  | zero => exact absurd hj (Nat.not_lt_zero j)
  | succ fuel ih =>
    rw [Interval.search]
    split
    · assumption
    · rename_i hnone
      cases j with
      | zero =>
        rw [Nat.cast_zero, sub_zero, hnone] at h
        cases h
      | succ j =>
        refine ih (j := j) (by omega) ?_
        rwa [sub_sub, add_comm 1, ← Nat.cast_succ]

theorem le_mul_pow_lift {num den j : ℕ} (fuel : ℕ) {k : ℕ} (hk : k ≤ j) (hj : j < k + fuel)
    (h : den ≤ num * 10 ^ j) : den ≤ num * 10 ^ lift num den fuel k := by
  induction fuel generalizing k with
  | zero => omega
  | succ fuel ih =>
    rw [lift]
    split
    · assumption
    · rename_i hlt
      refine ih (Nat.lt_of_le_of_ne hk ?_) (by omega)
      rintro rfl
      exact hlt h

/-- The leading digit of what is not too small. -/
theorem pow_leadingExponent_le {num den : ℕ} (hden : 0 < den)
    (h : (10 : ℚ) ^ (-324 : ℤ) ≤ (num : ℚ) / den) :
    (10 : ℚ) ^ leadingExponent num den ≤ (num : ℚ) / den := by
  have hden' : (0 : ℚ) < den := by exact_mod_cast hden
  rw [leadingExponent]
  split
  · rename_i hle
    have hpos : 0 < num / den := Nat.div_pos hle hden
    have hlength : 0 < (digits (num / den)).length :=
      List.length_pos_of_ne_nil (digits_ne_nil _)
    have hpow : ((10 ^ ((digits (num / den)).length - 1) : ℕ) : ℚ) ≤ ((num / den : ℕ) : ℚ) := by
      exact_mod_cast pow_length_digits_le hpos
    rw [← Nat.cast_one, ← Nat.cast_sub hlength, zpow_natCast]
    push_cast at hpow
    exact hpow.trans Nat.cast_div_le
  · rw [zpow_neg, le_div_iff₀ hden', inv_mul_le_iff₀ (by positivity), mul_comm, zpow_natCast]
    have hfound : den ≤ num * 10 ^ 324 := by
      rw [zpow_neg, le_div_iff₀ hden', inv_mul_le_iff₀ (by positivity), mul_comm] at h
      exact_mod_cast h
    exact_mod_cast le_mul_pow_lift 400 (k := 1) (by decide) (by decide) hfound

/-- Dropped zeros change nothing. -/
theorem dropZeros_spec (fuel : ℕ) (pos : 0 < c) :
    0 < (dropZeros fuel c k).1 ∧
      ((dropZeros fuel c k).1 : ℚ) * 10 ^ (dropZeros fuel c k).2 = c * 10 ^ k := by
  induction fuel generalizing c k with
  | zero => exact ⟨pos, rfl⟩
  | succ fuel ih =>
    rw [dropZeros]
    split
    · rename_i hzero
      obtain ⟨hpos, hvalue⟩ := ih (c := c / 10) (k := k + 1) (by omega)
      have hc : ((c / 10 : ℕ) : ℚ) * 10 = c := by
        exact_mod_cast Nat.div_mul_cancel (Nat.dvd_of_mod_eq_zero hzero.2)
      refine ⟨hpos, hvalue.trans ?_⟩
      rw [zpow_add_one₀ (by norm_num), ← hc]
      ring
    · exact ⟨pos, rfl⟩

end

/-! ### The interval of a double -/

section

variable {m : ℕ} {e : ℤ}

theorem unit_pos (p : Parts) : 0 < p.interval.unit := Nat.pow_pos (by decide)

/-- Bounds in quarters of the last place. -/
theorem quarters (p : Parts) (a : ℕ) :
    ((a * Nat.pow 2 (p.exponent - 2).toNat : ℕ) : ℚ) / p.interval.unit =
      a / 4 * 2 ^ p.exponent := by
  have hsplit : (2 : ℚ) ^ p.exponent = 2 ^ (p.exponent - 2) * 4 := by
    rw [zpow_sub₀ two_ne_zero]
    norm_num
  rw [hsplit, zpow_eq_div two_ne_zero, neg_sub]
  simp only [Parts.interval, Nat.pow_eq]
  push_cast
  ring

theorem middle_eq (m : ℕ) (e : ℤ) :
    ((Parts.mk false m e).interval.middle : ℚ) / (Parts.mk false m e).interval.unit =
      m * 2 ^ e := by
  refine (quarters ⟨false, m, e⟩ (4 * m)).trans ?_
  push_cast
  rw [mul_div_cancel_left₀ _ four_ne_zero]

theorem high_eq (m : ℕ) (e : ℤ) :
    ((Parts.mk false m e).interval.high : ℚ) / (Parts.mk false m e).interval.unit =
      (m + 1 / 2) * 2 ^ e := by
  refine (quarters ⟨false, m, e⟩ (4 * m + 2)).trans ?_
  push_cast
  ring

theorem low_eq (pos : 0 < m) (e : ℤ) :
    ((Parts.mk false m e).interval.low : ℚ) / (Parts.mk false m e).interval.unit =
      (m - lowGap m e) * 2 ^ e := by
  refine (quarters ⟨false, m, e⟩ (4 * m - if m = 2 ^ 52 ∧ -1074 < e then 1 else 2)).trans ?_
  rw [lowGap, Nat.cast_sub (by split <;> omega)]
  split
  · push_cast
    ring
  · push_cast
    ring

/-- What is inside the interval rounds to the double. -/
theorem near_of_inside (pos : 0 < m) {k : ℤ} {c : ℕ}
    (h : Inside (Parts.mk false m e).interval k c) : Near m e (c * 10 ^ k / 2 ^ e) := by
  have hpow := two_zpow_pos e
  have hclosed : (Parts.mk false m e).interval.closed = decide (m % 2 = 0) := rfl
  rw [inside_iff (unit_pos _), low_eq pos, high_eq, hclosed] at h
  simp only [decide_eq_true_eq] at h
  split at h
  · rename_i heven
    exact ⟨(le_div_iff₀ hpow).2 h.1, (div_le_iff₀ hpow).2 h.2, fun _ => heven⟩
  · have hlow := (lt_div_iff₀ hpow).2 h.1
    have hhigh := (div_lt_iff₀ hpow).2 h.2
    refine ⟨hlow.le, hhigh.le, ?_⟩
    rintro (heq | heq)
    · exact absurd heq hlow.ne'
    · exact absurd heq hhigh.ne

/-- On a grid with seventeen digits behind the leading one the point below the middle is inside. -/
theorem inside_below (canonical : Canonical m e) {k : ℤ}
    (h : (10 : ℚ) ^ (k + 17) ≤ m * 2 ^ e) :
    Inside (Parts.mk false m e).interval k (below (Parts.mk false m e).interval k) ∧
      0 < below (Parts.mk false m e).interval k := by
  have hunit := unit_pos ⟨false, m, e⟩
  have hle := below_le hunit k
  have hlt := lt_below_succ hunit k
  rw [middle_eq] at hle hlt
  generalize below (Parts.mk false m e).interval k = b at hle hlt ⊢
  have hpow := two_zpow_pos e
  have hten : (0 : ℚ) < 10 ^ k := by positivity
  have hm : (m : ℚ) < 2 ^ 53 := by exact_mod_cast canonical.lt
  have hgap : 1 / 4 ≤ lowGap m e := by
    rw [lowGap]
    split <;> norm_num
  rw [zpow_add₀ (by norm_num)] at h
  push_cast at hlt
  have hfine : (10 : ℚ) ^ k < lowGap m e * 2 ^ e := by
    have hwide : (10 : ℚ) ^ k * 10 ^ (17 : ℤ) < 2 ^ 53 * 2 ^ e :=
      h.trans_lt (mul_lt_mul_of_pos_right hm hpow)
    norm_num at hwide
    nlinarith
  constructor
  · have hlow : (m - lowGap m e) * 2 ^ e < b * 10 ^ k := by linarith
    have hhigh : (b : ℚ) * 10 ^ k < (m + 1 / 2) * 2 ^ e := by linarith
    rw [inside_iff hunit, low_eq canonical.pos, high_eq]
    split
    · exact ⟨hlow.le, hhigh.le⟩
    · exact ⟨hlow, hhigh⟩
  · have hmany : (10 : ℚ) ^ (17 : ℤ) < b + 1 := by
      rw [mul_comm] at h
      exact lt_of_mul_lt_mul_right (h.trans_lt hlt) hten.le
    norm_num at hmany
    have : (0 : ℚ) < b := by linarith
    exact_mod_cast this

/-- The shortest decimal of a positive finite double rounds to it. -/
theorem shortest_spec {x : Float} (canonical : Canonical m e) (he : e ≤ 971)
    (hx : parts x = ⟨false, m, e⟩) :
    ∃ c k, shortest x = ⟨false, c, k⟩ ∧ 0 < c ∧ Near m e (c * 10 ^ k / 2 ^ e) := by
  have hvalue : (m : ℚ) * 2 ^ e / 2 ^ e = m := mul_div_cancel_right₀ _ (two_zpow_pos e).ne'
  have hleast : (10 : ℚ) ^ (-324 : ℤ) ≤ m * 2 ^ e :=
    ten_zpow_lt_two_zpow.le.trans (Near.bounds canonical he (hvalue.symm ▸ near_self m e)).1
  set i := (Parts.mk false m e).interval
  set leading := leadingExponent i.middle i.unit
  have hpow : (10 : ℚ) ^ leading ≤ m * 2 ^ e := by
    rw [← middle_eq] at hleast ⊢
    exact pow_leadingExponent_le (unit_pos _) hleast
  have hsome : (i.neighbour? (leading - (17 : ℕ))).isSome := by
    rcases neighbour?_cases i (leading - (17 : ℕ)) with ⟨c, hc, -⟩ | ⟨-, hnot⟩
    · rw [hc]
      rfl
    · exact absurd (inside_below canonical (by simpa using hpow)) hnot
  have hfound := neighbour?_search i 20 (by decide) hsome
  set found := i.search 20 leading
  rcases neighbour?_cases i found.2 with ⟨c, hc, pos, inside⟩ | ⟨hnone, -⟩
  · obtain rfl := Option.some.inj (hfound.symm.trans hc)
    obtain ⟨hpos, hdrop⟩ := dropZeros_spec 400 pos (k := found.2)
    refine ⟨(dropZeros 400 found.1 found.2).1, (dropZeros 400 found.1 found.2).2, ?_, hpos, ?_⟩
    · rw [shortest, hx]
      exact if_neg canonical.pos.ne'
    · rw [hdrop]
      exact near_of_inside canonical.pos inside
  · rw [hfound] at hnone
    cases hnone

end

end Agora.Double
