import Agora.Decimal.Read
import Agora.Proofs.Digits
import Agora.Proofs.Double

/-!
The double nearest to a decimal. Products and quotients of doubles round the exact value, whichever
way a decimal is turned into one: by a product or a quotient of two exact doubles where it is
small, and otherwise by its digits. So a decimal in the rounding interval of a double is read as
that double.
-/

namespace Agora.Double

open Float.Model Float.Model.UnpackedFloat Decimal

section

variable {m : ℕ} {e : ℤ} {v : ℚ}

/-! ### Products and quotients -/

/-- A product is rounded from its exact value, if its significand is long enough. -/
theorem mul_eq (canonical : Canonical m e) (near : Near m e (v / 2 ^ e)) {m₁ m₂ : ℕ} {e₁ e₂ : ℤ}
    (pos₁ : 0 < m₁) (pos₂ : 0 < m₂) (hv : v = m₁ * m₂ * 2 ^ (e₁ + e₂))
    (long : 2 ^ 52 ≤ m₁ * m₂) :
    UnpackedFloat.mul Format.binary64 (.finite .positive m₁ e₁ pos₁)
      (.finite .positive m₂ e₂ pos₂) = .finite .positive m e canonical.pos := by
  have hne : m₁ * m₂ ≠ 0 := (Nat.mul_pos pos₁ pos₂).ne'
  have hexact : v / 2 ^ (e₁ + e₂) = (m₁ * m₂ : ℕ) := by
    rw [hv, mul_div_cancel_right₀ _ (two_zpow_pos _).ne']
    push_cast
    rfl
  refine roundWithAccuracy_eq _ canonical near (k := e₁ + e₂) ?_ ?_
  · rw [hexact]
    exact tells_exact _
  · have hlog : 52 ≤ (m₁ * m₂).log2 := (Nat.le_log2 hne).2 long
    rw [targetExponent_eq, totalExponent]
    omega

/-- A quotient is rounded from its exact value. -/
theorem div_eq (canonical : Canonical m e) (near : Near m e (v / 2 ^ e)) {m₁ m₂ : ℕ} {e₁ e₂ : ℤ}
    (pos₁ : 0 < m₁) (pos₂ : 0 < m₂) (hv : v = m₁ / m₂ * 2 ^ (e₁ - e₂)) :
    UnpackedFloat.div Format.binary64 (.finite .positive m₁ e₁ pos₁)
      (.finite .positive m₂ e₂ pos₂) = .finite .positive m e canonical.pos := by
  simp only [UnpackedFloat.div, divCore]
  set t := min (e₁ - e₂)
    (Format.binary64.targetExponent (totalExponent m₁ e₁ - totalExponent m₂ e₂)) with ht
  set shift := (e₁ - e₂ - t).toNat with hshift
  have hle : t ≤ e₁ - e₂ := min_le_left _ _
  have hshift' : (shift : ℤ) = e₁ - e₂ - t := by omega
  have hquotient : v / 2 ^ t = ((m₁ <<< shift : ℕ) : ℚ) / m₂ := by
    have hpow : (2 : ℚ) ^ (e₁ - e₂) = 2 ^ shift * 2 ^ t := by
      rw [← zpow_natCast, ← zpow_add₀ two_ne_zero, hshift', sub_add_cancel]
    rw [hv, hpow, Nat.shiftLeft_eq, ← mul_assoc, mul_div_cancel_right₀ _ (two_zpow_pos t).ne']
    push_cast
    ring
  refine roundWithAccuracy_eq _ canonical near (k := t) ?_ ?_
  · rw [hquotient]
    exact tells_quotient _ pos₂
  · by_cases hleast : t ≤ -1074
    · rw [targetExponent_eq]
      omega
    · -- the quotient has as many bits as a significand, since the shift is as wide as that takes
      have hlog₁ : 2 ^ m₁.log2 ≤ m₁ := Nat.log2_self_le pos₁.ne'
      have hlog₂ : m₂ < 2 ^ (m₂.log2 + 1) := Nat.lt_log2_self
      rw [targetExponent_eq, totalExponent, totalExponent] at ht
      have hwide : 52 + (m₂.log2 + 1) ≤ m₁.log2 + shift := by omega
      have hlong : 2 ^ 52 ≤ (m₁ <<< shift) / m₂ := by
        rw [Nat.le_div_iff_mul_le pos₂, Nat.shiftLeft_eq]
        calc 2 ^ 52 * m₂ ≤ 2 ^ 52 * 2 ^ (m₂.log2 + 1) := Nat.mul_le_mul_left _ hlog₂.le
          _ = 2 ^ (52 + (m₂.log2 + 1)) := (pow_add 2 _ _).symm
          _ ≤ 2 ^ (m₁.log2 + shift) := Nat.pow_le_pow_right two_pos hwide
          _ = 2 ^ m₁.log2 * 2 ^ shift := pow_add 2 _ _
          _ ≤ m₁ * 2 ^ shift := Nat.mul_le_mul_right _ hlog₁
      have hne : (m₁ <<< shift) / m₂ ≠ 0 := (lt_of_lt_of_le (by decide) hlong).ne'
      have hbits : 52 ≤ ((m₁ <<< shift) / m₂).log2 := (Nat.le_log2 hne).2 hlong
      rw [targetExponent_eq, totalExponent]
      omega

/-! ### Exact doubles -/

/-- A double that is just a natural number. -/
def Exactly (f : Float.Model) (n : ℕ) : Prop :=
  ∃ m e pos, f.unpack = .finite .positive m e pos ∧ (m : ℚ) * 2 ^ e = n ∧ 2 ^ 52 ≤ m

/-- The significand and the exponent of a natural number that takes up to 53 bits. -/
theorem canonical_of_lt {n : ℕ} (pos : 0 < n) (h : n < 2 ^ 53) :
    Canonical (n * 2 ^ (52 - n.log2)) (n.log2 - 52) := by
  have hlog : n.log2 < 53 := (Nat.log2_lt pos.ne').2 h
  have hself : 2 ^ n.log2 ≤ n := Nat.log2_self_le pos.ne'
  have hlt : n < 2 ^ (n.log2 + 1) := Nat.lt_log2_self
  have hfull : 2 ^ 52 ≤ n * 2 ^ (52 - n.log2) := by
    calc 2 ^ 52 = 2 ^ n.log2 * 2 ^ (52 - n.log2) := by rw [← pow_add]; congr 1; omega
      _ ≤ n * 2 ^ (52 - n.log2) := Nat.mul_le_mul_right _ hself
  refine ⟨lt_of_lt_of_le (by decide) hfull, ?_, by omega, .inl hfull⟩
  calc n * 2 ^ (52 - n.log2) < 2 ^ (n.log2 + 1) * 2 ^ (52 - n.log2) :=
        Nat.mul_lt_mul_of_pos_right hlt (by positivity)
    _ = 2 ^ 53 := by rw [← pow_add]; congr 1; omega

theorem near_self (m : ℕ) (e : ℤ) : Near m e m := by
  have hgap : 0 < lowGap m e := by
    rw [lowGap]
    split <;> norm_num
  refine ⟨by linarith, by linarith, ?_⟩
  rintro (h | h) <;> linarith

/-- Numbers of up to 53 bits are doubles as they are. -/
theorem exactly_ofUInt64 {n : UInt64} (pos : 0 < n.toNat) (h : n.toNat < 2 ^ 53) :
    Exactly (Float.Model.ofUInt64 n) n.toNat := by
  have canonical := canonical_of_lt pos h
  have hlog : n.toNat.log2 < 53 := (Nat.log2_lt pos.ne').2 h
  have htarget : Format.binary64.targetExponent (totalExponent n.toNat 0) = n.toNat.log2 - 52 := by
    rw [targetExponent_eq, totalExponent]
    omega
  have hround : UnpackedFloat.ofUInt64 Format.binary64 n =
      .finite .positive (n.toNat * 2 ^ (52 - n.toNat.log2)) (n.toNat.log2 - 52) canonical.pos := by
    have hgt : compare (n.toNat : ℤ) 0 = .gt := Int.compare_eq_gt.2 (by omega)
    have hshift : (0 - ((n.toNat.log2 : ℤ) - 52)).toNat = 52 - n.toNat.log2 := by omega
    have hexponent : (0 : ℤ) - (52 - n.toNat.log2 : ℕ) = n.toNat.log2 - 52 := by omega
    simp only [UnpackedFloat.ofUInt64, UnpackedFloat.ofNat, UnpackedFloat.ofInt,
      UnpackedFloat.normalize, hgt, UnpackedFloat.round, Int.toNat_natCast, htarget,
      decreaseExponent, hshift, hexponent, Nat.shiftLeft_eq]
    have hv : ((n.toNat * 2 ^ (52 - n.toNat.log2) : ℕ) : ℚ) * 2 ^ ((n.toNat.log2 : ℤ) - 52) /
        2 ^ ((n.toNat.log2 : ℤ) - 52) = (n.toNat * 2 ^ (52 - n.toNat.log2) : ℕ) :=
      mul_div_cancel_right₀ _ (two_zpow_pos _).ne'
    refine roundWithAccuracy_eq _ canonical (hv.symm ▸ near_self _ _) (hv.symm ▸ tells_exact _) ?_
    rw [canonical.targetExponent]
  refine ⟨_, (n.toNat.log2 : ℤ) - 52, canonical.pos, ?_, ?_, ?_⟩
  · rw [Float.Model.ofUInt64, hround]
    exact unpack_pack canonical (by omega)
  · have hpow : ((n.toNat.log2 : ℤ) - 52) = -((52 - n.toNat.log2 : ℕ) : ℤ) := by omega
    rw [hpow, zpow_neg, zpow_natCast]
    push_cast
    exact mul_inv_cancel_right₀ (by positivity) _
  · exact canonical.full.resolve_right (by omega)

/-- The significand and the exponent of a power of ten in the table. -/
theorem powerOfTen_table : ∀ k : Fin 23,
    (parts Float.exactlyRepresentablePowersOfTen[k]).negative = false ∧
    2 ^ 52 ≤ (parts Float.exactlyRepresentablePowersOfTen[k]).significand ∧
    (parts Float.exactlyRepresentablePowersOfTen[k]).significand < 2 ^ 53 ∧
    -1074 ≤ (parts Float.exactlyRepresentablePowersOfTen[k]).exponent ∧
    (parts Float.exactlyRepresentablePowersOfTen[k]).exponent ≤ 971 ∧
    (parts Float.exactlyRepresentablePowersOfTen[k]).significand *
        2 ^ (parts Float.exactlyRepresentablePowersOfTen[k]).exponent.toNat =
      10 ^ (k : ℕ) * 2 ^ (-(parts Float.exactlyRepresentablePowersOfTen[k]).exponent).toNat := by
  decide +kernel

/-- A product with a power of two, told without powers below one. -/
theorem mul_zpow_eq_of_toNat {a b : ℕ} {e : ℤ} (h : a * 2 ^ e.toNat = b * 2 ^ (-e).toNat) :
    (a : ℚ) * 2 ^ e = b := by
  have hcast : (a : ℚ) * 2 ^ e.toNat = b * 2 ^ (-e).toNat := by exact_mod_cast h
  rw [zpow_eq_div two_ne_zero, ← mul_div_assoc, hcast, mul_div_cancel_right₀ _ (by positivity)]

theorem parts_eq_of_negative {x : Float} (h : (parts x).negative = false) :
    parts x = ⟨false, (parts x).significand, (parts x).exponent⟩ := by
  rw [← h]

theorem exactly_powerOfTen (k : Fin 23) :
    Exactly Float.exactlyRepresentablePowersOfTen[k].toModel (10 ^ (k : ℕ)) := by
  obtain ⟨hsign, hfull, hlt, hleast, he, hvalue⟩ := powerOfTen_table k
  have canonical : Canonical _ _ := ⟨lt_of_lt_of_le (by decide) hfull, hlt, hleast, .inl hfull⟩
  have hunpack := unpack_of_positive canonical he
    (eq_code_of_ofBits (UInt64.toNat_lt _) (parts_eq_of_negative hsign))
  exact ⟨_, _, canonical.pos, hunpack, mul_zpow_eq_of_toNat hvalue, hfull⟩

/-! ### Decimals -/

/-- What rounds to a positive finite double is neither too great nor too small. -/
theorem Near.bounds (canonical : Canonical m e) (he : e ≤ 971) (near : Near m e (v / 2 ^ e)) :
    2 ^ (-1075 : ℤ) ≤ v ∧ v < 2 ^ (1024 : ℤ) := by
  have hgap := lowGap_le m e
  constructor
  · have hm : (1 : ℚ) ≤ m := by exact_mod_cast canonical.pos
    have hhalf : 1 / 2 ≤ v / 2 ^ e := by linarith [near.lower]
    rw [le_div_iff₀ (two_zpow_pos e)] at hhalf
    calc (2 : ℚ) ^ (-1075 : ℤ) = 2 ^ (-1 : ℤ) * 2 ^ (-1074 : ℤ) :=
          zpow_add₀ two_ne_zero (-1) (-1074)
      _ = 1 / 2 * 2 ^ (-1074 : ℤ) := by rw [zpow_neg_one, one_div]
      _ ≤ 1 / 2 * 2 ^ e := by gcongr; exacts [one_le_two, canonical.least]
      _ ≤ v := hhalf
  · exact (near.lt_two_zpow canonical).trans_le
      (zpow_le_zpow_right₀ one_le_two (by push_cast; omega))

theorem two_zpow_lt_ten_zpow : (2 : ℚ) ^ (1024 : ℤ) < 10 ^ (309 : ℤ) := by
  have : 2 ^ 1024 < 10 ^ 309 := by decide +kernel
  exact_mod_cast this

theorem ten_zpow_lt_two_zpow : (10 : ℚ) ^ (-324 : ℤ) < 2 ^ (-1075 : ℤ) := by
  have : 2 ^ 1075 < 10 ^ 324 := by decide +kernel
  rw [zpow_neg, zpow_neg]
  refine inv_strictAnti₀ (by positivity) ?_
  exact_mod_cast this

variable {c : ℕ} {k : ℤ}

/-- A decimal of few digits is a product or a quotient of two exact doubles. -/
theorem ofScientific_of_small (pos : 0 < c) (canonical : Canonical m e)
    (near : Near m e (c * 10 ^ k / 2 ^ e)) (small : c < 2 ^ 53 ∧ k.natAbs ≤ 22) :
    Float.ofScientific c (k < 0) k.natAbs =
      .ofModel (Float.Model.pack (.finite .positive m e canonical.pos)) := by
  have hc : c.toUInt64.toNat = c := Nat.mod_eq_of_lt (by omega)
  obtain ⟨m₁, e₁, pos₁, hunpack₁, hvalue₁, hfull₁⟩ :=
    exactly_ofUInt64 (n := c.toUInt64) (by omega) (by omega)
  obtain ⟨m₂, e₂, pos₂, hunpack₂, hvalue₂, -⟩ :=
    exactly_powerOfTen ⟨k.natAbs, by omega⟩
  rw [hc] at hvalue₁
  push_cast at hvalue₂
  simp only [Float.ofScientific, dif_pos small, decide_eq_true_iff]
  split
  · rename_i hneg
    have hk : k = -(k.natAbs : ℤ) := by omega
    have hv : (c : ℚ) * 10 ^ k = m₁ / m₂ * 2 ^ (e₁ - e₂) := by
      rw [hk, zpow_neg, zpow_natCast, ← hvalue₁, ← hvalue₂, zpow_sub₀ two_ne_zero]
      have hm₂ : (m₂ : ℚ) ≠ 0 := by exact_mod_cast pos₂.ne'
      field_simp
    rw [← div_eq canonical near pos₁ pos₂ hv, ← hunpack₁, ← hunpack₂]
    rfl
  · rename_i hneg
    have hk : k = (k.natAbs : ℤ) := by omega
    have hv : (c : ℚ) * 10 ^ k = m₁ * m₂ * 2 ^ (e₁ + e₂) := by
      rw [hk, zpow_natCast, ← hvalue₁, ← hvalue₂, zpow_add₀ two_ne_zero]
      ring
    have hlong : 2 ^ 52 ≤ m₁ * m₂ := hfull₁.trans (Nat.le_mul_of_pos_right _ pos₂)
    rw [← mul_eq canonical near pos₁ pos₂ hv hlong, ← hunpack₁, ← hunpack₂]
    rfl

/-- The exponent of a decimal in the range of doubles. -/
theorem exponent_bounds (pos : 0 < c) (hleast : (2 : ℚ) ^ (-1075 : ℤ) ≤ c * 10 ^ k)
    (htop : (c : ℚ) * 10 ^ k < 2 ^ (1024 : ℤ)) : k < 1024 ∧ -1076 < c.log2 + k := by
  have hc : (0 : ℚ) < c := by exact_mod_cast pos
  have hone : (1 : ℚ) ≤ c := by exact_mod_cast pos
  constructor
  · by_contra hge
    have : (2 : ℚ) ^ (1024 : ℤ) ≤ c * 10 ^ k :=
      calc (2 : ℚ) ^ (1024 : ℤ) ≤ 2 ^ k := zpow_le_zpow_right₀ one_le_two (by omega)
        _ ≤ 10 ^ k := zpow_le_zpow_left₀ (by omega) (by norm_num) (by norm_num)
        _ ≤ c * 10 ^ k := le_mul_of_one_le_left (by positivity) hone
    linarith
  · by_contra hle
    have hbits : (c : ℚ) < 2 ^ ((c.log2 : ℤ) + 1) := by
      exact_mod_cast (Nat.lt_log2_self : c < 2 ^ (c.log2 + 1))
    have hten : (10 : ℚ) ^ k ≤ 2 ^ k := by
      rw [← neg_neg k, zpow_neg, zpow_neg (2 : ℚ)]
      exact inv_anti₀ (by positivity)
        (zpow_le_zpow_left₀ (by omega) (by norm_num) (by norm_num))
    have : (c : ℚ) * 10 ^ k < 2 ^ (-1075 : ℤ) :=
      calc (c : ℚ) * 10 ^ k < 2 ^ ((c.log2 : ℤ) + 1) * 10 ^ k := by gcongr
        _ ≤ 2 ^ ((c.log2 : ℤ) + 1) * 2 ^ k := by gcongr
        _ = 2 ^ ((c.log2 : ℤ) + 1 + k) := (zpow_add₀ two_ne_zero _ _).symm
        _ ≤ 2 ^ (-1075 : ℤ) := zpow_le_zpow_right₀ one_le_two (by omega)
    linarith

/-- The place of the leading digit of a decimal in the range of doubles. -/
theorem length_bounds (pos : 0 < c) (hleast : (2 : ℚ) ^ (-1075 : ℤ) ≤ c * 10 ^ k)
    (htop : (c : ℚ) * 10 ^ k < 2 ^ (1024 : ℤ)) :
    -324 < ((digits c).length : ℤ) + k ∧ ((digits c).length : ℤ) - 1 + k < 309 := by
  have hlow : (10 : ℚ) ^ (((digits c).length : ℤ) - 1 + k) ≤ c * 10 ^ k := by
    have hlength : 0 < (digits c).length := List.length_pos_of_ne_nil (digits_ne_nil c)
    have hle : ((10 ^ ((digits c).length - 1) : ℕ) : ℚ) ≤ c := by
      exact_mod_cast pow_length_digits_le pos
    rw [zpow_add₀ (by norm_num)]
    gcongr
    rw [← Nat.cast_one, ← Nat.cast_sub hlength, zpow_natCast]
    exact_mod_cast hle
  have hhigh : (c : ℚ) * 10 ^ k < 10 ^ (((digits c).length : ℤ) + k) := by
    have hlt : (c : ℚ) < ((10 ^ (digits c).length : ℕ) : ℚ) := by
      exact_mod_cast lt_pow_length_digits c
    rw [zpow_add₀ (by norm_num), zpow_natCast]
    gcongr
    exact_mod_cast hlt
  constructor
  · refine (zpow_lt_zpow_iff_right₀ (by norm_num : (1 : ℚ) < 10)).1 ?_
    calc (10 : ℚ) ^ (-324 : ℤ) < 2 ^ (-1075 : ℤ) := ten_zpow_lt_two_zpow
      _ ≤ (c : ℚ) * 10 ^ k := hleast
      _ < _ := hhigh
  · refine (zpow_lt_zpow_iff_right₀ (by norm_num : (1 : ℚ) < 10)).1 ?_
    calc _ ≤ (c : ℚ) * 10 ^ k := hlow
      _ < 2 ^ (1024 : ℤ) := htop
      _ < 10 ^ (309 : ℤ) := two_zpow_lt_ten_zpow

/-- A decimal that is not too great or too small is computed from all its digits. -/
theorem ofScientific_eq (pos : 0 < c) (canonical : Canonical m e) (he : e ≤ 971)
    (near : Near m e (c * 10 ^ k / 2 ^ e)) :
    Float.ofScientific c (k < 0) k.natAbs =
      .ofModel (Float.Model.pack (.finite .positive m e canonical.pos)) := by
  by_cases small : c < 2 ^ 53 ∧ k.natAbs ≤ 22
  · exact ofScientific_of_small pos canonical near small
  · have hk : (if k < 0 then Int.negOfNat k.natAbs else Int.ofNat k.natAbs) = k := by
      split
      · rw [Int.negOfNat_eq, Int.ofNat_eq_natCast]
        omega
      · exact Int.natAbs_of_nonneg (by omega)
    simp only [Float.ofScientific, dif_neg small, decide_eq_true_iff, hk, Float.Model.ofScientific]
    congr 2
    obtain ⟨hleast, htop⟩ := Near.bounds canonical he near
    obtain ⟨hless, hgreater⟩ := exponent_bounds pos hleast htop
    have hlarge : ¬ k > 2 ^ Format.binary64.exponentBits := by
      change ¬ k > 2 ^ 11
      omega
    have hsmall : ¬ k < -(2 ^ Format.binary64.exponentBits + (c.log2 : ℤ)) := by
      change ¬ k < -(2 ^ 11 + (c.log2 : ℤ))
      omega
    rw [UnpackedFloat.ofScientific, dif_neg pos.ne', if_neg hlarge, if_neg hsmall]
    split
    · rename_i hnonneg
      refine mul_eq canonical near _ _ ?_ ?_
      · have hk' : k = (k.toNat : ℤ) := by omega
        change _ = ((c <<< 53 : ℕ) : ℚ) * ((10 ^ k.toNat : ℕ) : ℚ) * 2 ^ (-53 + 0 : ℤ)
        rw [Nat.shiftLeft_eq]
        conv_lhs => rw [hk', zpow_natCast]
        push_cast
        norm_num
        ring
      · change 2 ^ 52 ≤ c <<< 53 * 10 ^ k.toNat
        rw [Nat.shiftLeft_eq]
        have : 1 ≤ 10 ^ k.toNat := Nat.one_le_pow _ _ (by decide)
        nlinarith
    · rename_i hneg
      refine div_eq canonical near _ _ ?_
      have hk' : k = -((-k).toNat : ℤ) := by omega
      conv_lhs => rw [hk', zpow_neg, zpow_natCast]
      push_cast
      rw [mul_one, div_eq_mul_inv]

/-- A decimal in the rounding interval of a double is read as that double. -/
theorem nearest_eq {x : Float} (pos : 0 < c) (canonical : Canonical m e) (he : e ≤ 971)
    (near : Near m e (c * 10 ^ k / 2 ^ e)) (hx : parts x = ⟨false, m, e⟩) :
    nearest c k = x := by
  obtain ⟨hleast, htop⟩ := Near.bounds canonical he near
  obtain ⟨hge, hle⟩ := length_bounds pos hleast htop
  have hsmall : ¬ (decide (c = 0) || decide (((digits c).length : ℤ) + k < -400)) = true := by
    simp only [Bool.or_eq_true, decide_eq_true_iff]
    omega
  rw [nearest, if_neg hsmall, if_neg (by omega), ofScientific_eq pos canonical he near,
    eq_pack_of_parts canonical he hx]

theorem parts_nearest (pos : 0 < c) (canonical : Canonical m e) (he : e ≤ 971)
    (near : Near m e (c * 10 ^ k / 2 ^ e)) : parts (nearest c k) = ⟨false, m, e⟩ := by
  rw [nearest_eq pos canonical he near (parts_pack canonical he), parts_pack canonical he]

end

end Agora.Double
