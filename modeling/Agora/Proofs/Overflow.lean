import Agora.Proofs.Nearest

/-!
Products that do not overflow. A rational from one up to half a unit beyond the largest double
rounds to a double, which is at most one part in `2 ^ 53` greater. Whole numbers of 64 bits and
powers of ten are rounded so, and therefore the product of two of them is finite if the product of
what they were before is far enough from the largest double.
-/

namespace Agora.Double

open Float.Model Float.Model.UnpackedFloat Decimal

variable {m : ℕ} {e : ℤ} {v w : ℚ}

/-! ### Rationals that round to doubles -/

/-- From here on rationals round to the infinite double. -/
def overflowBound : ℚ := (2 ^ 53 - 1 / 2) * 2 ^ (971 : ℤ)

theorem exists_rounds (nonneg : 0 ≤ w) : ∃ r, Rounds r w := by
  have hw : ((w.num.toNat : ℕ) : ℚ) / (w.den : ℕ) = w := by
    have hnum : ((w.num.toNat : ℕ) : ℤ) = w.num := Int.toNat_of_nonneg (Rat.num_nonneg.2 nonneg)
    conv_rhs => rw [← Rat.num_div_den w, ← hnum]
    rw [Int.cast_natCast]
  refine ⟨_, hw ▸ (tells_quotient w.num.toNat w.den_pos).rounds⟩

/-- A rational in a binade rounds to a double with a full significand in it, or to the power of two
above it. -/
theorem exists_near_of_binade (least : -1074 ≤ e) (hlow : 2 ^ 52 ≤ v / 2 ^ e)
    (hhigh : v / 2 ^ e < 2 ^ 53) :
    ∃ m, Canonical m e ∧ 2 ^ 52 ≤ m ∧ Near m e (v / 2 ^ e) ∨
      2 ^ 53 - 1 / 2 ≤ v / 2 ^ e ∧ m = 2 ^ 52 ∧ Canonical m (e + 1) ∧
        Near m (e + 1) (v / 2 ^ (e + 1)) := by
  obtain ⟨r, hr⟩ := exists_rounds (by linarith : 0 ≤ v / 2 ^ e)
  have hfull : 2 ^ 52 ≤ r := by
    have : (2 : ℚ) ^ 52 < r + 1 := by linarith [hr.upper]
    exact Nat.lt_add_one_iff.1 (by exact_mod_cast this)
  by_cases hfits : r < 2 ^ 53
  · refine ⟨r, .inl ⟨⟨by omega, hfits, least, .inl hfull⟩, hfull, hr.near e fun heq => ?_⟩⟩
    rw [heq]
    exact_mod_cast hlow
  · have htop : (2 : ℚ) ^ 53 ≤ r := by exact_mod_cast not_lt.1 hfits
    have hhalf : v / 2 ^ (e + 1) = v / 2 ^ e / 2 := by
      rw [zpow_add_one₀ two_ne_zero, div_div]
    have hgap : lowGap (2 ^ 52) (e + 1) = 1 / 4 := if_pos ⟨rfl, by omega⟩
    have hcanonical : Canonical (2 ^ 52) (e + 1) := ⟨by decide, by decide, by omega, .inl le_rfl⟩
    refine ⟨2 ^ 52, .inr ⟨by linarith [hr.lower], rfl, hcanonical, ?_, ?_, fun _ => by decide⟩⟩
    · rw [hgap, hhalf]
      push_cast
      linarith [hr.lower]
    · rw [hhalf]
      push_cast
      linarith

theorem overflowBound_lt : overflowBound < 2 ^ (1024 : ℤ) := by
  have htop : (2 : ℚ) ^ (1024 : ℤ) = 2 ^ 53 * 2 ^ (971 : ℤ) := by
    rw [← zpow_natCast, ← zpow_add₀ two_ne_zero]
    rfl
  rw [overflowBound, htop]
  gcongr
  norm_num

theorem natCast_lt_overflowBound {n : ℕ} (h : n * 2 < (2 ^ 54 - 1) * 2 ^ 971) :
    (n : ℚ) < overflowBound := by
  have hcast : (n : ℚ) * 2 < (2 ^ 54 - 1) * 2 ^ 971 := by
    have : ((2 ^ 54 - 1 : ℕ) : ℚ) = 2 ^ 54 - 1 := by norm_num
    rw [← this]
    exact_mod_cast h
  have htop : (2 : ℚ) ^ (971 : ℤ) = 2 ^ 971 := zpow_natCast 2 971
  rw [overflowBound, htop]
  generalize (2 : ℚ) ^ 971 = unit at hcast ⊢
  linarith

/-- A rational from one up to the bound rounds to a double. -/
theorem exists_near (hone : 1 ≤ v) (htop : v < overflowBound) :
    ∃ m e, Canonical m e ∧ -52 ≤ e ∧ e ≤ 971 ∧ 2 ^ 52 ≤ m ∧ Near m e (v / 2 ^ e) := by
  obtain ⟨k, hlow, hhigh⟩ := exists_mem_Ico_zpow (by linarith : 0 < v) one_lt_two
  have hk : 0 ≤ k := by
    have : (2 : ℚ) ^ (0 : ℤ) < 2 ^ (k + 1) := by rw [zpow_zero]; linarith
    have := lt_of_two_zpow_lt this
    omega
  have hk' : k < 1024 := lt_of_two_zpow_lt (hlow.trans_lt (htop.trans overflowBound_lt))
  have hlow' : 2 ^ 52 ≤ v / 2 ^ (k - 52) := le_div_zpow_iff.2 (by simpa using hlow)
  have hhigh' : v / 2 ^ (k - 52) < 2 ^ 53 := div_zpow_lt_iff.2 (by
    have hsum : ((53 : ℕ) : ℤ) + (k - 52) = k + 1 := by push_cast; ring
    rwa [hsum])
  obtain ⟨m, ⟨hm, hfull, hnear⟩ | ⟨hend, rfl, hm, hnear⟩⟩ :=
    exists_near_of_binade (by omega) hlow' hhigh'
  · exact ⟨m, k - 52, hm, by omega, by omega, hfull, hnear⟩
  · refine ⟨2 ^ 52, k - 52 + 1, hm, by omega, ?_, le_rfl, hnear⟩
    -- at the greatest exponent the bound is below the middle to the next power of two
    by_contra hgreat
    obtain rfl : k = 1023 := by omega
    rw [overflowBound, ← div_lt_iff₀ (two_zpow_pos _)] at htop
    linarith

/-- A full significand is greater than what it is near to by one part in `2 ^ 53` at most. -/
theorem Near.mul_zpow_le (near : Near m e (v / 2 ^ e)) (full : 2 ^ 52 ≤ m) (he : -1074 < e) :
    (m : ℚ) * 2 ^ e ≤ v * (1 + 1 / 2 ^ 53) := by
  have hunit : (m : ℚ) ≤ v / 2 ^ e * (1 + 1 / 2 ^ 53) := by
    have hlower := near.lower
    rcases full.eq_or_lt with rfl | hlt
    · rw [lowGap, if_pos ⟨rfl, he⟩] at hlower
      push_cast at hlower ⊢
      linarith
    · have hm : (2 : ℚ) ^ 52 + 1 ≤ m := by exact_mod_cast hlt
      have hgap := lowGap_le m e
      linarith
  calc (m : ℚ) * 2 ^ e ≤ v / 2 ^ e * (1 + 1 / 2 ^ 53) * 2 ^ e := by gcongr
    _ = v * (1 + 1 / 2 ^ 53) := by
        rw [mul_right_comm, div_mul_cancel₀ _ (two_zpow_pos e).ne']

/-! ### Factors -/

/-- A double that is at least one and at most a rational. -/
def UpTo (f : Float.Model) (v : ℚ) : Prop :=
  ∃ m e pos, f.unpack = .finite .positive m e pos ∧ 2 ^ 52 ≤ m ∧
    1 ≤ (m : ℚ) * 2 ^ e ∧ (m : ℚ) * 2 ^ e ≤ v

theorem upTo_of_near (canonical : Canonical m e) (least : -52 ≤ e) (he : e ≤ 971)
    (full : 2 ^ 52 ≤ m) (near : Near m e (v / 2 ^ e)) :
    UpTo (Float.Model.pack (.finite .positive m e canonical.pos)) (v * (1 + 1 / 2 ^ 53)) := by
  refine ⟨m, e, canonical.pos, unpack_pack canonical he, full, ?_,
    near.mul_zpow_le full (by omega)⟩
  calc (1 : ℚ) = 2 ^ 52 * 2 ^ (-52 : ℤ) := by norm_num
    _ ≤ m * 2 ^ e := by gcongr; exacts [by exact_mod_cast full, one_le_two]

/-- Whole numbers of 64 bits. -/
theorem upTo_ofUInt64 {n : UInt64} (pos : 0 < n.toNat) :
    UpTo (Float.Model.ofUInt64 n) (n.toNat * (1 + 1 / 2 ^ 53)) := by
  have hone : (1 : ℚ) ≤ n.toNat := by exact_mod_cast pos
  by_cases small : n.toNat < 2 ^ 53
  · obtain ⟨m, e, hm, hunpack, hvalue, hfull⟩ := exactly_ofUInt64 pos small
    refine ⟨m, e, hm, hunpack, hfull, by rwa [hvalue], ?_⟩
    rw [hvalue]
    exact le_mul_of_one_le_right (by linarith) (by norm_num)
  · have htop : (n.toNat : ℚ) < overflowBound := by
      have hlt : (n.toNat : ℚ) < 2 ^ 64 := by exact_mod_cast n.toNat_lt
      have hnat : 2 ^ 64 * 2 < (2 ^ 54 - 1) * 2 ^ 971 := by decide +kernel
      exact hlt.trans (natCast_lt_overflowBound (n := 2 ^ 64) hnat)
    obtain ⟨m, e, canonical, hleast, he, hfull, near⟩ := exists_near hone htop
    have hround : UnpackedFloat.ofUInt64 Format.binary64 n =
        .finite .positive m e canonical.pos := by
      have hgt : compare (n.toNat : ℤ) 0 = .gt := Int.compare_eq_gt.2 (by omega)
      have hlog : 53 ≤ n.toNat.log2 := (Nat.le_log2 pos.ne').2 (not_lt.1 small)
      have htarget : 0 ≤ Format.binary64.targetExponent (totalExponent n.toNat 0) := by
        rw [targetExponent_eq, totalExponent]
        omega
      have hshift : (0 - Format.binary64.targetExponent (totalExponent n.toNat 0)).toNat = 0 := by
        omega
      have hv : (n.toNat : ℚ) / 2 ^ (0 : ℤ) = n.toNat := by rw [zpow_zero, div_one]
      simp only [UnpackedFloat.ofUInt64, UnpackedFloat.ofNat, UnpackedFloat.ofInt,
        UnpackedFloat.normalize, hgt, UnpackedFloat.round, Int.toNat_natCast, decreaseExponent,
        hshift, Nat.shiftLeft_zero, Nat.cast_zero, sub_zero]
      exact roundWithAccuracy_eq _ canonical near (hv.symm ▸ tells_exact _) htarget
    rw [Float.Model.ofUInt64, hround]
    exact upTo_of_near canonical hleast he hfull near

/-- Powers of ten. -/
theorem upTo_powerOfTen {k : ℕ} (h : k ≤ 308) :
    UpTo (Float.ofScientific 1 false k).toModel (10 ^ k * (1 + 1 / 2 ^ 53)) := by
  have hone : (1 : ℚ) ≤ 10 ^ k := one_le_pow₀ (by norm_num)
  have htop : (10 : ℚ) ^ k < overflowBound := by
    have hlargest : 10 ^ 308 * 2 < (2 ^ 54 - 1) * 2 ^ 971 := by decide +kernel
    have hcast := natCast_lt_overflowBound hlargest
    rw [Nat.cast_pow] at hcast
    refine lt_of_le_of_lt ?_ hcast
    exact pow_le_pow_right₀ (by norm_num) h
  obtain ⟨m, e, canonical, hleast, he, hfull, near⟩ := exists_near hone htop
  have hvalue : ((1 : ℕ) : ℚ) * 10 ^ (k : ℤ) = 10 ^ k := by
    rw [Nat.cast_one, one_mul, zpow_natCast]
  have hpower := ofScientific_eq one_pos canonical he (hvalue.symm ▸ near)
  rw [decide_eq_false (by omega), Int.natAbs_natCast] at hpower
  rw [hpower]
  exact upTo_of_near canonical hleast he hfull near

/-! ### Products -/

theorem mul_toModel (x y : Float) :
    (x * y).toModel = Float.Model.pack (x.toModel.unpack.mul Format.binary64 y.toModel.unpack) :=
  rfl

/-- A product whose factors are not too great together is finite. -/
theorem isInf_mul {x y : Float} (hx : UpTo x.toModel v) (hy : UpTo y.toModel w)
    (h : v * w < overflowBound) : (x * y).isInf = false := by
  obtain ⟨m₁, e₁, pos₁, hunpack₁, hfull₁, hone₁, hle₁⟩ := hx
  obtain ⟨m₂, e₂, pos₂, hunpack₂, -, hone₂, hle₂⟩ := hy
  have hproduct : (m₁ : ℚ) * m₂ * 2 ^ (e₁ + e₂) = m₁ * 2 ^ e₁ * (m₂ * 2 ^ e₂) := by
    rw [zpow_add₀ two_ne_zero]
    ring
  have hone : 1 ≤ (m₁ : ℚ) * m₂ * 2 ^ (e₁ + e₂) := by
    rw [hproduct]
    exact one_le_mul_of_one_le_of_one_le hone₁ hone₂
  have htop : (m₁ : ℚ) * m₂ * 2 ^ (e₁ + e₂) < overflowBound := by
    rw [hproduct]
    exact (mul_le_mul hle₁ hle₂ (by linarith) (by linarith)).trans_lt h
  obtain ⟨m, e, canonical, -, he, -, near⟩ := exists_near hone htop
  have hlong : 2 ^ 52 ≤ m₁ * m₂ := hfull₁.trans (Nat.le_mul_of_pos_right _ pos₂)
  rw [isInf_iff, mul_toModel, hunpack₁, hunpack₂, mul_eq canonical near pos₁ pos₂ rfl hlong,
    unpack_pack canonical he]
  rfl

/-- So is the product of zero and a finite number. -/
theorem isInf_zero_mul {y : Float} (hy : UpTo y.toModel w) : (0.0 * y).isInf = false := by
  obtain ⟨m, e, pos, hunpack, -⟩ := hy
  have hzero : (0.0 : Float).toModel.unpack = .zero .positive :=
    unpack_of_zero (by decide +kernel) (by decide +kernel)
  rw [isInf_iff, mul_toModel, hunpack, hzero]
  change (Float.Model.pack (.zero .positive)).unpack.isInf = false
  decide +kernel

end Agora.Double
