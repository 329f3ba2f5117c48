import Mathlib

/-!
Rounding to a double. A mantissa with a round bit and a sticky bit tells where a rational stands
between two neighbours, and keeps telling it when it is shifted; so what is rounded off at the end
is decided by the rational alone. A rational in the rounding interval of a double rounds to that
double, also where the interval reaches below a power of two and the first shift goes one bit too
far.
-/

namespace Agora.Double

open Float.Model Float.Model.UnpackedFloat

/-! ### Round and sticky bits -/

/-- What a mantissa with its residual bits says of a rational, in units of its last place. -/
def Tells (em : ExtendedMantissa) (w : ℚ) : Prop :=
  match em.roundBit, em.stickyBit with
  | false, false => w = em.mantissa
  | false, true => (em.mantissa : ℚ) < w ∧ w < em.mantissa + 1 / 2
  | true, false => w = em.mantissa + 1 / 2
  | true, true => (em.mantissa : ℚ) + 1 / 2 < w ∧ w < em.mantissa + 1

theorem Tells.bounds {em : ExtendedMantissa} {w : ℚ} (h : Tells em w) :
    (em.mantissa : ℚ) ≤ w ∧ w < em.mantissa + 1 := by
  obtain ⟨m, r, s⟩ := em
  cases r <;> cases s <;> simp only [Tells] at h
  · rw [h]; constructor <;> linarith
  · obtain ⟨h₁, h₂⟩ := h; constructor <;> linarith
  · rw [h]; constructor <;> linarith
  · obtain ⟨h₁, h₂⟩ := h; constructor <;> linarith

/-- A shift by one place tells of half the rational. -/
theorem Tells.shiftRightOne {em : ExtendedMantissa} {w : ℚ} (h : Tells em w) :
    Tells em.shiftRightOne (w / 2) := by
  obtain ⟨m, r, s⟩ := em
  have hm : ((m % 2 : ℕ) : ℚ) + 2 * ((m / 2 : ℕ) : ℚ) = m := by exact_mod_cast Nat.mod_add_div m 2
  rcases Nat.mod_two_eq_zero_or_one m with hr | hr
  · rw [hr, Nat.cast_zero] at hm
    have hbit : (m % 2 != 0) = false := by rw [hr]; rfl
    cases r <;> cases s <;> simp only [Tells, ExtendedMantissa.shiftRightOne, hbit, Bool.or_false,
      Bool.or_true] at h ⊢
    · linarith
    · constructor <;> linarith
    · constructor <;> linarith
    · constructor <;> linarith
  · rw [hr, Nat.cast_one] at hm
    have hbit : (m % 2 != 0) = true := by rw [hr]; rfl
    cases r <;> cases s <;> simp only [Tells, ExtendedMantissa.shiftRightOne, hbit, Bool.or_false,
      Bool.or_true] at h ⊢
    · linarith
    · constructor <;> linarith
    · constructor <;> linarith
    · constructor <;> linarith

theorem Tells.shiftRight {em : ExtendedMantissa} {w : ℚ} (h : Tells em w) (n : ℕ) :
    Tells (em >>> n) (w / 2 ^ n) := by
  change Tells (n.repeat ExtendedMantissa.shiftRightOne em) _
  induction n with
  | zero => simpa [Nat.repeat] using h
  | succ n ih =>
    rw [Nat.repeat, pow_succ, ← div_div]
    exact ih.shiftRightOne

theorem tells_exact (m : ℕ) : Tells (.ofMantissaAndAccuracy m .exact) m := rfl

/-- The rest of a division tells where the quotient stands. -/
theorem tells_quotient (a : ℕ) {b : ℕ} (hb : 0 < b) :
    Tells (.ofMantissaAndAccuracy (a / b) (accuracyOfFraction (a % b) b)) ((a : ℚ) / b) := by
  have hb' : (0 : ℚ) < b := by exact_mod_cast hb
  have ha : (b : ℚ) * ((a / b : ℕ) : ℚ) + ((a % b : ℕ) : ℚ) = a := by
    exact_mod_cast Nat.div_add_mod a b
  have hlt : ((a % b : ℕ) : ℚ) < b := by exact_mod_cast Nat.mod_lt a hb
  have hw : (a : ℚ) / b = ((a / b : ℕ) : ℚ) + ((a % b : ℕ) : ℚ) / b := by
    rw [← ha, add_div, mul_div_cancel_left₀ _ hb'.ne']
  have hone : ((a % b : ℕ) : ℚ) / b < 1 := (div_lt_one hb').2 hlt
  rw [hw, accuracyOfFraction]
  split
  · rename_i hzero
    simp [Tells, ExtendedMantissa.ofMantissaAndAccuracy, hzero]
  · rename_i hzero
    have hpos : (0 : ℚ) < ((a % b : ℕ) : ℚ) / b :=
      div_pos (by exact_mod_cast Nat.pos_of_ne_zero hzero) hb'
    cases hcmp : compare (2 * (a % b)) b with
    | lt =>
      have hhalf : ((a % b : ℕ) : ℚ) / b < 1 / 2 := by
        rw [div_lt_iff₀ hb']
        have : ((2 * (a % b) : ℕ) : ℚ) < b := by exact_mod_cast Nat.compare_eq_lt.1 hcmp
        push_cast at this
        linarith
      simp only [Tells, ExtendedMantissa.ofMantissaAndAccuracy]
      constructor <;> linarith
    | eq =>
      have hhalf : ((a % b : ℕ) : ℚ) / b = 1 / 2 := by
        rw [div_eq_iff hb'.ne']
        have : ((2 * (a % b) : ℕ) : ℚ) = b := by exact_mod_cast Nat.compare_eq_eq.1 hcmp
        push_cast at this
        linarith
      simp only [Tells, ExtendedMantissa.ofMantissaAndAccuracy, hhalf]
    | gt =>
      have hhalf : 1 / 2 < ((a % b : ℕ) : ℚ) / b := by
        rw [lt_div_iff₀ hb']
        have : (b : ℚ) < ((2 * (a % b) : ℕ) : ℚ) := by exact_mod_cast Nat.compare_eq_gt.1 hcmp
        push_cast at this
        linarith
      simp only [Tells, ExtendedMantissa.ofMantissaAndAccuracy]
      constructor <;> linarith

/-! ### Nearest mantissas -/

/-- A natural number is nearest to a rational, and even if another one is as near. -/
structure Rounds (r : ℕ) (w : ℚ) : Prop where
  lower : (r : ℚ) - 1 / 2 ≤ w
  upper : w ≤ r + 1 / 2
  even : w = r - 1 / 2 ∨ w = r + 1 / 2 → r % 2 = 0

theorem Tells.rounds {em : ExtendedMantissa} {w : ℚ} (h : Tells em w) :
    Rounds em.roundedMantissa w := by
  obtain ⟨m, r, s⟩ := em
  cases r <;> cases s <;> simp only [Tells, ExtendedMantissa.roundedMantissa,
    ExtendedMantissa.accuracy, Accuracy.roundToNearestEven] at h ⊢
  · refine ⟨by linarith, by linarith, ?_⟩
    rintro (h' | h') <;> linarith
  · refine ⟨by linarith, by linarith, ?_⟩
    rintro (h' | h') <;> linarith
  · rcases Nat.mod_two_eq_zero_or_one m with hm | hm
    · rw [hm]
      refine ⟨?_, ?_, fun _ => hm⟩ <;> push_cast <;> linarith
    · rw [hm]
      refine ⟨?_, ?_, fun _ => by omega⟩ <;> push_cast <;> linarith
  · refine ⟨?_, ?_, ?_⟩
    · push_cast; linarith
    · push_cast; linarith
    · push_cast
      rintro (h' | h') <;> linarith

theorem Rounds.le {r r' : ℕ} {w : ℚ} (h : Rounds r w) (h' : Rounds r' w) : r ≤ r' := by
  by_contra hlt
  have hle : (r' : ℚ) + 1 ≤ r := by exact_mod_cast not_le.1 hlt
  have hw : w = r - 1 / 2 := le_antisymm (by linarith [h'.upper]) h.lower
  have hw' : w = r' + 1 / 2 := le_antisymm h'.upper (by linarith [h.lower])
  have hnext : r = r' + 1 := by
    have : (r : ℚ) = r' + 1 := by linarith
    exact_mod_cast this
  have heven := h.even (.inl hw)
  have heven' := h'.even (.inr hw')
  omega

theorem Rounds.eq {r r' : ℕ} {w : ℚ} (h : Rounds r w) (h' : Rounds r' w) : r = r' :=
  le_antisymm (h.le h') (h'.le h)

/-! ### Rounding intervals -/

/-- The significand and the exponent of a double that is not zero: the significand takes 53 bits
unless the exponent is the least one. -/
structure Canonical (m : ℕ) (e : ℤ) : Prop where
  pos : 0 < m
  lt : m < 2 ^ 53
  least : -1074 ≤ e
  full : 2 ^ 52 ≤ m ∨ e = -1074

/-- The distance to the lower end of the rounding interval, in units of the last place. -/
def lowGap (m : ℕ) (e : ℤ) : ℚ := if m = 2 ^ 52 ∧ -1074 < e then 1 / 4 else 1 / 2

/-- A rational, in units of the last place, is in the rounding interval of a double. -/
structure Near (m : ℕ) (e : ℤ) (w : ℚ) : Prop where
  lower : m - lowGap m e ≤ w
  upper : w ≤ m + 1 / 2
  even : w = m - lowGap m e ∨ w = m + 1 / 2 → m % 2 = 0

theorem targetExponent_eq (k : ℤ) : Format.binary64.targetExponent k = max (k - 53) (-1074) := rfl

theorem Canonical.targetExponent {m : ℕ} {e : ℤ} (h : Canonical m e) :
    Format.binary64.targetExponent (totalExponent m e) = e := by
  rw [targetExponent_eq, totalExponent]
  have hne : m ≠ 0 := h.pos.ne'
  have hlog : m.log2 < 53 := (Nat.log2_lt hne).2 h.lt
  have hleast := h.least
  rcases h.full with hfull | heq
  · have : 52 ≤ m.log2 := (Nat.le_log2 hne).2 hfull
    omega
  · omega

theorem lowGap_le (m : ℕ) (e : ℤ) : lowGap m e ≤ 1 / 2 := by
  rw [lowGap]
  split <;> norm_num

theorem Near.rounds {m : ℕ} {e : ℤ} {w : ℚ} (h : Near m e w) : Rounds m w where
  lower := by linarith [h.lower, lowGap_le m e]
  upper := h.upper
  even := by
    rintro (hw | hw)
    · have hgap : lowGap m e = 1 / 2 := le_antisymm (lowGap_le m e) (by linarith [h.lower])
      exact h.even (.inl (by rw [hgap, hw]))
    · exact h.even (.inr hw)

/-- What is nearest is in the rounding interval, unless it stands below a power of two. -/
theorem Rounds.near {r : ℕ} {w : ℚ} (h : Rounds r w) (e : ℤ) (hle : r = 2 ^ 52 → (r : ℚ) ≤ w) :
    Near r e w where
  lower := by
    rw [lowGap]
    split
    · rename_i hleast
      linarith [hle hleast.1]
    · exact h.lower
  upper := h.upper
  even := by
    rintro (hw | hw)
    · rw [lowGap] at hw
      split at hw
      · rename_i hleast
        linarith [hle hleast.1]
      · exact h.even (.inl hw)
    · exact h.even (.inr hw)

/-- A rational that a mantissa tells of stands in the binade of that mantissa. -/
theorem Tells.binade {m : ℕ} {acc : Accuracy} {w : ℚ}
    (h : Tells (.ofMantissaAndAccuracy m acc) w) :
    w < 2 ^ (m.log2 + 1) ∧ (m ≠ 0 → 2 ^ m.log2 ≤ w) := by
  have hm : (ExtendedMantissa.ofMantissaAndAccuracy m acc).mantissa = m := by
    rcases acc with _ | o
    · rfl
    · cases o <;> rfl
  obtain ⟨hle, hlt⟩ := h.bounds
  rw [hm] at hle hlt
  constructor
  · have : m + 1 ≤ 2 ^ (m.log2 + 1) := Nat.lt_log2_self
    have : ((m : ℚ) + 1) ≤ 2 ^ (m.log2 + 1) := by exact_mod_cast this
    linarith
  · intro hne
    have : ((2 ^ m.log2 : ℕ) : ℚ) ≤ m := by exact_mod_cast Nat.log2_self_le hne
    push_cast at this
    linarith

/-! ### Rounding a rational -/

section

variable {m : ℕ} {e : ℤ} {n : ℕ} {k : ℤ} {acc : Accuracy} {v : ℚ}

theorem two_zpow_pos (k : ℤ) : (0 : ℚ) < 2 ^ k := zpow_pos two_pos k

/-- A power with an exponent of either sign is a quotient of powers, one of which is one. -/
theorem zpow_eq_div {a : ℚ} (ha : a ≠ 0) (k : ℤ) : a ^ k = a ^ k.toNat / a ^ (-k).toNat := by
  rw [← zpow_natCast, ← zpow_natCast, ← zpow_sub₀ ha]
  congr 1
  omega

theorem div_zpow_lt_iff {w : ℚ} {a : ℕ} : w / 2 ^ k < 2 ^ a ↔ w < 2 ^ (a + k) := by
  rw [div_lt_iff₀ (two_zpow_pos k), zpow_add₀ two_ne_zero, zpow_natCast]

theorem le_div_zpow_iff {w : ℚ} {a : ℕ} : 2 ^ a ≤ w / 2 ^ k ↔ 2 ^ (a + k) ≤ w := by
  rw [le_div_iff₀ (two_zpow_pos k), zpow_add₀ two_ne_zero, zpow_natCast]

theorem lt_of_two_zpow_lt {a b : ℤ} (h : (2 : ℚ) ^ a < 2 ^ b) : a < b :=
  (zpow_lt_zpow_iff_right₀ one_lt_two).1 h

/-- What rounds to a double is below the power of two above its significand. -/
theorem Near.lt_two_zpow (canonical : Canonical m e) (near : Near m e (v / 2 ^ e)) :
    v < 2 ^ ((53 : ℕ) + e) := by
  rw [← div_zpow_lt_iff]
  have : (m : ℚ) + 1 ≤ 2 ^ 53 := by exact_mod_cast canonical.lt
  linarith [near.upper]

/-- What rounds to a double with a full significand is at most one binade below. -/
theorem Near.two_zpow_le (near : Near m e (v / 2 ^ e)) (full : 2 ^ 52 ≤ m) :
    (2 : ℚ) ^ ((51 : ℕ) + e) ≤ v := by
  rw [← le_div_zpow_iff]
  have hfull : (2 : ℚ) ^ 52 ≤ m := by exact_mod_cast full
  have hdouble : (2 : ℚ) ^ 52 = 2 * 2 ^ 51 := by norm_num
  have hone : (1 : ℚ) ≤ 2 ^ 51 := by norm_num
  linarith [near.lower, lowGap_le m e]

/-- Where the first shift leads, if it drops bits at all: to the exponent of the double, or one
below it if the rational stands below the power of two that the double is. -/
theorem targetExponent_cases (canonical : Canonical m e) (near : Near m e (v / 2 ^ e))
    (tells : Tells (.ofMantissaAndAccuracy n acc) (v / 2 ^ k))
    (fits : k ≤ Format.binary64.targetExponent (totalExponent n k)) :
    Format.binary64.targetExponent (totalExponent n k) = e ∨
      Format.binary64.targetExponent (totalExponent n k) = e - 1 ∧ m = 2 ^ 52 ∧
        v / 2 ^ e < 2 ^ 52 := by
  obtain ⟨hlt, hle⟩ := tells.binade
  rw [div_zpow_lt_iff] at hlt
  rw [le_div_zpow_iff] at hle
  have hleast := canonical.least
  have hgap := lowGap_le m e
  have htop (hn : n ≠ 0) : (n.log2 : ℤ) + k < 53 + e :=
    lt_of_two_zpow_lt ((hle hn).trans_lt (near.lt_two_zpow canonical))
  have hzero : n = 0 → n.log2 = 0 := by rintro rfl; rfl
  rw [targetExponent_eq, totalExponent] at fits ⊢
  by_cases hsub : e = -1074
  · left
    by_cases hn : n = 0
    · have := hzero hn
      omega
    · have := htop hn
      omega
  · have hfull : 2 ^ 52 ≤ m := canonical.full.resolve_right hsub
    have hlow : (51 : ℤ) + e < n.log2 + 1 + k := by
      have := lt_of_two_zpow_lt ((near.two_zpow_le hfull).trans_lt hlt)
      push_cast at this
      omega
    have hn : n ≠ 0 := by
      intro hn
      have := hzero hn
      omega
    have hhigh := htop hn
    by_cases hsame : v / 2 ^ e < 2 ^ 52
    · right
      have hm : m = 2 ^ 52 := by
        by_contra hne
        have : 2 ^ 52 + 1 ≤ m := by omega
        have : (2 : ℚ) ^ 52 + 1 ≤ m := by exact_mod_cast this
        linarith [near.lower]
      have := lt_of_two_zpow_lt ((hle hn).trans_lt (div_zpow_lt_iff.1 hsame))
      push_cast at this
      exact ⟨by omega, hm, hsame⟩
    · left
      have := lt_of_two_zpow_lt ((le_div_zpow_iff.1 (not_lt.1 hsame)).trans_lt hlt)
      push_cast at this
      omega

/-- A mantissa and an exponent that tell of a rational, shifted to a greater exponent. -/
theorem tells_shiftToExponent {t : ℤ} (tells : Tells (.ofMantissaAndAccuracy n acc) (v / 2 ^ k))
    (h : k ≤ t) :
    ∃ em, shiftToExponent n k acc t = (em, t) ∧ Tells em (v / 2 ^ t) := by
  have ht : ((t - k).toNat : ℤ) = t - k := Int.toNat_of_nonneg (by omega)
  refine ⟨_, Prod.ext rfl (by simp only [shiftToExponent]; omega), ?_⟩
  have hshift := tells.shiftRight (t - k).toNat
  rwa [div_div, ← zpow_natCast, ← zpow_add₀ two_ne_zero, ht, add_sub_cancel] at hshift

/-- A full significand stays as it is. -/
theorem Canonical.shift (h : Canonical m e) :
    shiftToTargetExponent Format.binary64 m e .exact = (⟨m, false, false⟩, e) := by
  rw [shiftToTargetExponent, h.targetExponent, shiftToExponent, sub_self]
  exact Prod.ext rfl (add_zero e)

/-- The power of two above all significands is shifted back by one place. -/
theorem shift_overflow (h : -1074 < e) :
    shiftToTargetExponent Format.binary64 (2 ^ 53) (e - 1) .exact =
      (⟨2 ^ 52, false, false⟩, e) := by
  have htarget : Format.binary64.targetExponent (totalExponent (2 ^ 53) (e - 1)) = e := by
    rw [targetExponent_eq, totalExponent, Nat.log2_two_pow]
    omega
  have hone : (e - (e - 1)).toNat = 1 := by omega
  rw [shiftToTargetExponent, htarget, shiftToExponent, hone]
  exact Prod.ext rfl (sub_add_cancel e 1)

/-- A rational in the rounding interval of a double rounds to it. -/
theorem roundWithAccuracy_eq (sign : Sign) (canonical : Canonical m e)
    (near : Near m e (v / 2 ^ e)) (tells : Tells (.ofMantissaAndAccuracy n acc) (v / 2 ^ k))
    (fits : k ≤ Format.binary64.targetExponent (totalExponent n k)) :
    roundWithAccuracy Format.binary64 sign n k acc = .finite sign m e canonical.pos := by
  obtain ⟨em, hshift, hem⟩ := tells_shiftToExponent tells fits
  have hfinal : shiftToTargetExponent Format.binary64 em.roundedMantissa
      (Format.binary64.targetExponent (totalExponent n k)) .exact = (⟨m, false, false⟩, e) := by
    rcases targetExponent_cases canonical near tells fits with ht | ⟨ht, rfl, hlow⟩
    · rw [ht] at hem ⊢
      rw [hem.rounds.eq near.rounds, canonical.shift]
    · have hleast : -1074 < e := by
        have := le_max_right ((totalExponent n k) - 53) (-1074)
        rw [← targetExponent_eq, ht] at this
        omega
      rw [ht] at hem ⊢
      have hdouble : v / 2 ^ (e - 1) = 2 * (v / 2 ^ e) := by
        rw [zpow_sub_one₀ two_ne_zero]
        field_simp
      have hgap : lowGap (2 ^ 52) e = 1 / 4 := if_pos ⟨rfl, hleast⟩
      have hnear := near.lower
      rw [hgap] at hnear
      push_cast at hnear
      have htop : Rounds (2 ^ 53) (v / 2 ^ (e - 1)) := by
        rw [hdouble]
        refine ⟨?_, ?_, fun _ => by decide⟩ <;> push_cast <;> linarith
      rw [hem.rounds.eq htop, shift_overflow hleast]
  have hfirst : shiftToTargetExponent Format.binary64 n k acc =
      (em, Format.binary64.targetExponent (totalExponent n k)) := hshift
  simp only [roundWithAccuracy, hfirst, hfinal]
  exact dif_neg canonical.pos.ne'

end

end Agora.Double
