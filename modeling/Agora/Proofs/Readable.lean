import Agora.Proofs.Grammar
import Agora.Proofs.Overflow

/-!
Which numerals have a value. The digits that fit 64 bits, with the power of ten that is left to
them, are at most the numeral; they are multiplied by a power of ten once or divided by one over and
over, and only a product can overflow. So a numeral has a value if it keeps away from the largest
double by more than two roundings can make up for.
-/

namespace Agora.Json

open Decimal Double

/-! ### Digits that fit -/

/-- What is gathered of a run of digits: all of them, or else so many that no more fit. -/
structure Gathered (ds : List Char) (coefficient left : ℕ) : Prop where
  fits : coefficient < 2 ^ 64
  whole : left = 0 → coefficient = ofDigits ds
  below : coefficient * 10 ^ left ≤ ofDigits ds
  beyond : 0 < left → 2 ^ 64 * 10 ^ (left - 1) ≤ ofDigits ds

theorem Gathered.take {ds : List Char} {c : ℕ} (h : Gathered ds c 0) {d : Char}
    (fits : 10 * c + digitValue d < 2 ^ 64) :
    Gathered (ds ++ [d]) (10 * c + digitValue d) 0 := by
  have hwhole : 10 * c + digitValue d = ofDigits (ds ++ [d]) := by
    rw [ofDigits_concat, h.whole rfl]
  exact ⟨fits, fun _ => hwhole, by rw [pow_zero, mul_one, hwhole],
    fun hpos => absurd hpos (lt_irrefl 0)⟩

theorem Gathered.leave {ds : List Char} {c k : ℕ} (h : Gathered ds c k) {d : Char}
    (full : k = 0 → 2 ^ 64 ≤ 10 * c + digitValue d) : Gathered (ds ++ [d]) c (k + 1) := by
  refine ⟨h.fits, fun hzero => absurd hzero k.succ_ne_zero, ?_, fun _ => ?_⟩
  · have hbelow := h.below
    rw [ofDigits_concat, pow_succ, ← mul_assoc]
    omega
  · rw [ofDigits_concat, Nat.add_sub_cancel]
    rcases Nat.eq_zero_or_pos k with rfl | hpos
    · have hfull := full rfl
      rwa [← h.whole rfl, pow_zero, mul_one]
    · have hbeyond := h.beyond hpos
      have hpow : 10 ^ k = 10 ^ (k - 1) * 10 := by rw [← pow_succ, Nat.sub_add_cancel hpos]
      rw [hpow, ← mul_assoc]
      omega

theorem gather_concat (ds : List Char) (d : Char) :
    gather (ds ++ [d]) =
      if (gather ds).2 = 0 ∧ 10 * (gather ds).1 + digitValue d < 0x10000000000000000 then
        (10 * (gather ds).1 + digitValue d, 0)
      else ((gather ds).1, (gather ds).2 + 1) := by
  rw [gather, List.foldl_append]
  rfl

theorem gathered_gather (ds : List Char) : Gathered ds (gather ds).1 (gather ds).2 := by
  induction ds using List.reverseRecOn with
  | nil => exact ⟨by decide, fun _ => rfl, by decide, fun h => absurd h (lt_irrefl 0)⟩
  | append_singleton ds d ih =>
    rw [gather_concat]
    split
    · rename_i h
      rw [h.1] at ih
      exact ih.take h.2
    · rename_i h
      exact ih.leave fun hzero => not_lt.1 fun hlt => h ⟨hzero, hlt⟩

/-- What the digits of a fraction make of a coefficient: as many of them are taken as fit. -/
structure Appended (coefficient : ℕ) (ds : List Char) (coefficient' taken : ℕ) : Prop where
  fits : coefficient' < 2 ^ 64
  few : taken ≤ ds.length
  none : taken = 0 → coefficient' = coefficient
  below : coefficient' * 10 ^ (ds.length - taken) ≤ coefficient * 10 ^ ds.length + ofDigits ds

theorem Appended.take {c c' : ℕ} {ds : List Char} (h : Appended c ds c' ds.length) {d : Char}
    (fits : 10 * c' + digitValue d < 2 ^ 64) :
    Appended c (ds ++ [d]) (10 * c' + digitValue d) (ds ++ [d]).length := by
  refine ⟨fits, le_rfl, fun hzero => ?_, ?_⟩
  · rw [List.length_append] at hzero
    exact absurd hzero (Nat.succ_ne_zero _)
  · have hbelow := h.below
    rw [Nat.sub_self, pow_zero, mul_one] at hbelow ⊢
    rw [ofDigits_concat, List.length_append, List.length_singleton, pow_succ, ← mul_assoc]
    omega

theorem Appended.leave {c c' t : ℕ} {ds : List Char} (h : Appended c ds c' t) (d : Char) :
    Appended c (ds ++ [d]) c' t := by
  have hlength : (ds ++ [d]).length = ds.length + 1 := List.length_append
  refine ⟨h.fits, by rw [hlength]; exact h.few.trans (Nat.le_succ _), h.none, ?_⟩
  have hbelow := h.below
  rw [ofDigits_concat, hlength, Nat.succ_sub h.few, pow_succ, pow_succ, ← mul_assoc, ← mul_assoc]
  omega

/-- One digit of a fraction, while the digits before it were all taken. -/
def appendDigit (s : ℕ × ℕ × Bool) (d : Char) : ℕ × ℕ × Bool :=
  if s.2.2 && 10 * s.1 + digitValue d < 0x10000000000000000 then
    (10 * s.1 + digitValue d, s.2.1 + 1, true)
  else (s.1, s.2.1, false)

theorem appended_appendFraction {c : ℕ} (hc : c < 2 ^ 64) (ds : List Char) :
    Appended c ds (appendFraction c ds).1 (appendFraction c ds).2 := by
  have hfold : Appended c ds (ds.foldl appendDigit (c, 0, true)).1
      (ds.foldl appendDigit (c, 0, true)).2.1 ∧
      ((ds.foldl appendDigit (c, 0, true)).2.2 = true →
        (ds.foldl appendDigit (c, 0, true)).2.1 = ds.length) := by
    induction ds using List.reverseRecOn with
    | nil => exact ⟨⟨hc, le_rfl, fun _ => rfl, by simp [ofDigits]⟩, fun _ => rfl⟩
    | append_singleton ds d ih =>
      rw [List.foldl_append, List.foldl_cons, List.foldl_nil]
      generalize ds.foldl appendDigit (c, 0, true) = s at ih ⊢
      obtain ⟨c', t, taking⟩ := s
      obtain ⟨happended, hall⟩ := ih
      rw [appendDigit]
      split
      · rename_i h
        obtain ⟨htaking, hfits⟩ := Bool.and_eq_true_iff.1 h
        obtain rfl : t = ds.length := hall htaking
        have hlength : (ds ++ [d]).length = ds.length + 1 := List.length_append
        rw [← hlength]
        exact ⟨happended.take (of_decide_eq_true hfits), fun _ => rfl⟩
      · exact ⟨happended.leave d, fun h => absurd h Bool.false_ne_true⟩
  exact hfold.1

theorem ofDigits_append (ds fs : List Char) :
    ofDigits (ds ++ fs) = ofDigits ds * 10 ^ fs.length + ofDigits fs := by
  induction fs using List.reverseRecOn with
  | nil => simp [ofDigits]
  | append_singleton fs f ih =>
    rw [← List.append_assoc, ofDigits_concat, ih, ofDigits_concat, List.length_append,
      List.length_singleton, pow_succ]
    ring

/-- What is gathered of the digits of a numeral is at most the numeral. -/
theorem gathered_le {whole fs : List Char} {c k c' t : ℕ} (gathered : Gathered whole c k)
    (appended : Appended c fs c' t) :
    (c' : ℚ) * 10 ^ ((k : ℤ) - t) ≤ ofDigits (whole ++ fs) * 10 ^ (-fs.length : ℤ) := by
  have hnat : c' * 10 ^ k * 10 ^ fs.length ≤ ofDigits (whole ++ fs) * 10 ^ t := by
    rw [ofDigits_append]
    rcases Nat.eq_zero_or_pos k with rfl | hk
    · rw [← gathered.whole rfl, pow_zero, mul_one]
      calc c' * 10 ^ fs.length = c' * 10 ^ (fs.length - t) * 10 ^ t := by
            rw [mul_assoc, ← pow_add, Nat.sub_add_cancel appended.few]
        _ ≤ (c * 10 ^ fs.length + ofDigits fs) * 10 ^ t := Nat.mul_le_mul_right _ appended.below
    · have hpow : 10 ^ k = 10 ^ (k - 1) * 10 := by rw [← pow_succ, Nat.sub_add_cancel hk]
      rcases Nat.eq_zero_or_pos t with rfl | ht
      · rw [appended.none rfl, pow_zero, mul_one]
        exact (Nat.mul_le_mul_right _ gathered.below).trans (Nat.le_add_right _ _)
      · calc c' * 10 ^ k * 10 ^ fs.length
            ≤ 2 ^ 64 * 10 ^ k * 10 ^ fs.length := by gcongr; exact appended.fits.le
          _ = 2 ^ 64 * 10 ^ (k - 1) * 10 ^ fs.length * 10 := by rw [hpow]; ring
          _ ≤ ofDigits whole * 10 ^ fs.length * 10 ^ t := by
            gcongr
            · exact gathered.beyond hk
            · exact Nat.le_self_pow ht.ne' 10
          _ ≤ (ofDigits whole * 10 ^ fs.length + ofDigits fs) * 10 ^ t := by
            gcongr
            exact Nat.le_add_right _ _
  have hcast : (c' : ℚ) * 10 ^ k * 10 ^ fs.length ≤ ofDigits (whole ++ fs) * 10 ^ t := by
    exact_mod_cast hnat
  rw [zpow_sub₀ (by norm_num), zpow_neg, zpow_natCast, zpow_natCast, zpow_natCast,
    ← div_eq_mul_inv, ← mul_div_assoc, div_le_div_iff₀ (by positivity) (by positivity)]
  exact hcast

/-! ### Powers of ten -/

theorem cast_moderateDouble : (moderateDouble : ℚ) = (2 ^ 53 - 4) * 2 ^ (971 : ℤ) := by
  have hnat : moderateDouble = (2 ^ 53 - 4) * 2 ^ 971 := by decide +kernel
  have hsub : ((2 ^ 53 - 4 : ℕ) : ℚ) = 2 ^ 53 - 4 := by norm_num
  rw [hnat, Nat.cast_mul, hsub, Nat.cast_pow]
  exact congrArg _ (zpow_natCast 2 971).symm

/-- Two roundings do not lead from a moderate number beyond the doubles. -/
theorem moderateDouble_mul_lt :
    (moderateDouble : ℚ) * ((1 + 1 / 2 ^ 53) * (1 + 1 / 2 ^ 53)) < overflowBound := by
  rw [cast_moderateDouble, overflowBound, mul_right_comm]
  gcongr
  norm_num

theorem moderateDouble_lt : (moderateDouble : ℚ) < 10 ^ (309 : ℤ) := by
  have hpos : (0 : ℚ) ≤ moderateDouble := Nat.cast_nonneg _
  calc (moderateDouble : ℚ)
      ≤ moderateDouble * ((1 + 1 / 2 ^ 53) * (1 + 1 / 2 ^ 53)) :=
        le_mul_of_one_le_right hpos (by norm_num)
    _ < overflowBound := moderateDouble_mul_lt
    _ < 2 ^ (1024 : ℤ) := overflowBound_lt
    _ < 10 ^ (309 : ℤ) := two_zpow_lt_ten_zpow

/-- A moderate number that is not zero has no great exponent. -/
theorem exponent_lt {c : ℕ} (pos : 0 < c) {e : ℤ} (h : (c : ℚ) * 10 ^ e ≤ moderateDouble) :
    e < 309 := by
  have hone : (1 : ℚ) ≤ c := by exact_mod_cast pos
  refine (zpow_lt_zpow_iff_right₀ (by norm_num : (1 : ℚ) < 10)).1 ?_
  calc (10 : ℚ) ^ e ≤ c * 10 ^ e := le_mul_of_one_le_left (by positivity) hone
    _ ≤ moderateDouble := h
    _ < 10 ^ (309 : ℤ) := moderateDouble_lt

/-- A moderate product is finite. -/
theorem isInf_scaled {c k : ℕ} (fits : c < 2 ^ 64) (hk : k ≤ 308)
    (h : (c : ℚ) * 10 ^ k ≤ moderateDouble) :
    (c.toUInt64.toFloat * Float.ofScientific 1 false k).isInf = false := by
  rcases Nat.eq_zero_or_pos c with rfl | hpos
  · have hzero : (0 : ℕ).toUInt64.toFloat = 0.0 := by decide +kernel
    rw [hzero]
    exact isInf_zero_mul (upTo_powerOfTen hk)
  · have hc : c.toUInt64.toNat = c := Nat.mod_eq_of_lt fits
    have hfactor := upTo_ofUInt64 (n := c.toUInt64) (by rwa [hc])
    rw [hc] at hfactor
    refine isInf_mul hfactor (upTo_powerOfTen hk) (lt_of_le_of_lt ?_ moderateDouble_mul_lt)
    rw [mul_mul_mul_comm]
    gcongr

/-- Divisions do not overflow. -/
theorem isSome_scale_of_neg (fuel : ℕ) (x : Float) {e : ℤ} (h : e < 0) :
    (scale fuel x e).isSome = true := by
  induction fuel generalizing x e with
  | zero => rfl
  | succ fuel ih =>
    rw [scale]
    split
    · rfl
    · rename_i hlong
      split
      · rfl
      · rw [if_neg (by omega)]
        exact ih _ (by omega)

/-- Neither does scaling to a moderate number. -/
theorem isSome_scale (fuel : ℕ) {c : ℕ} (fits : c < 2 ^ 64) {e : ℤ}
    (h : (c : ℚ) * 10 ^ e ≤ moderateDouble) : (scale fuel c.toUInt64.toFloat e).isSome = true := by
  rcases lt_or_ge e 0 with hneg | hnonneg
  · exact isSome_scale_of_neg fuel _ hneg
  cases fuel with
  | zero => rfl
  | succ fuel =>
    obtain ⟨k, rfl⟩ := Int.eq_ofNat_of_zero_le hnonneg
    rw [scale, Int.natAbs_natCast]
    by_cases hk : k ≤ 308
    · rw [if_pos hk, if_neg (by omega), isInf_scaled fits hk (by rwa [zpow_natCast] at h)]
      rfl
    · -- only zero is moderate with so great an exponent
      have hzero : c = 0 := Nat.eq_zero_of_not_pos fun hpos => by
        have := exponent_lt hpos h
        omega
      subst hzero
      have hfloat : ((0 : ℕ).toUInt64.toFloat == 0.0) = true := by decide +kernel
      rw [if_neg hk, if_pos hfloat]
      rfl

/-! ### Numerals -/

theorem Numeral.Within.mul_zpow_le {n : Numeral} {bound : ℕ} (h : n.Within bound) :
    (ofDigits (n.whole ++ n.fraction.getD []) : ℚ) * 10 ^ n.power ≤ bound := by
  have hcast : (ofDigits (n.whole ++ n.fraction.getD []) : ℚ) * 10 ^ n.power.toNat ≤
      bound * 10 ^ (-n.power).toNat := by exact_mod_cast h
  rwa [zpow_eq_div (by norm_num), ← mul_div_assoc, div_le_iff₀ (by positivity)]

theorem clamp32_cases (i : ℤ) : clamp32 i < 0 ∨ clamp32 i ≤ i := by
  rw [clamp32]
  omega

/-- A coefficient with a moderate power of ten has a value, also when the power is held between the
bounds of 32 bits. -/
theorem isSome_scale_clamp32 {c : ℕ} (fits : c < 2 ^ 64) {e : ℤ}
    (h : (c : ℚ) * 10 ^ e ≤ moderateDouble) :
    (scale 8 c.toUInt64.toFloat (clamp32 e)).isSome = true := by
  rcases clamp32_cases e with hneg | hle
  · exact isSome_scale_of_neg 8 _ hneg
  · have hpow : (10 : ℚ) ^ clamp32 e ≤ 10 ^ e := zpow_le_zpow_right₀ (by norm_num) hle
    exact isSome_scale 8 fits ((mul_le_mul_of_nonneg_left hpow (Nat.cast_nonneg c)).trans h)

/-- It has one when a part of the power is written behind it. An exponent of ten digits is let pass
if it makes the value zero. -/
theorem isSome_scale_written {c : ℕ} (fits : c < 2 ^ 64) {base : ℤ} {negative : Bool}
    {ds : List Char}
    (h : (c : ℚ) * 10 ^ (base + signedExponent (some (negative, ds))) ≤ moderateDouble)
    (great : 0x80000000 ≤ ofDigits ds → (decide (c = 0) || negative) = true) :
    (if 0x80000000 ≤ ofDigits ds then if c = 0 || negative then some 0.0 else none
      else scale 8 c.toUInt64.toFloat
        (clamp32 (if negative then base - ofDigits ds else base + ofDigits ds))).isSome = true := by
  split
  · rename_i hgreat
    rw [if_pos (great hgreat)]
    rfl
  · have hsum : (if negative then base - ofDigits ds else base + ofDigits ds) =
        base + signedExponent (some (negative, ds)) := by
      rw [signedExponent]
      split
      · exact sub_eq_add_neg _ _
      · rfl
    rw [hsum]
    exact isSome_scale_clamp32 fits h

theorem isSome_magnitude {n : Numeral} (h : n.Moderate) : n.magnitude.isSome = true := by
  obtain ⟨hwithin, hshort⟩ := h
  have hle := hwithin.mul_zpow_le
  have gathered := gathered_gather n.whole
  have appended := appended_appendFraction gathered.fits (n.fraction.getD [])
  have htaken := gathered_le gathered appended
  have hfits := appended.fits
  rw [Numeral.power] at hle
  rw [Numeral.magnitude]
  generalize (n.fraction.getD []).length = f at *
  generalize ofDigits (n.whole ++ n.fraction.getD []) = digits at *
  generalize appendFraction (gather n.whole).1 (n.fraction.getD []) = taken at *
  obtain ⟨c, t⟩ := taken
  have hscaled : (c : ℚ) * 10 ^ ((gather n.whole).2 - (t : ℤ) + signedExponent n.exponent) ≤
      moderateDouble := by
    rw [sub_eq_add_neg, zpow_add₀ (by norm_num), mul_left_comm] at hle
    rw [zpow_add₀ (by norm_num), ← mul_assoc, mul_comm]
    exact (mul_le_mul_of_nonneg_left htaken (by positivity)).trans hle
  cases hexponent : n.exponent with
  | none =>
    rw [hexponent, signedExponent, add_zero] at hscaled
    exact isSome_scale 8 hfits hscaled
  | some written =>
    obtain ⟨negative, ds⟩ := written
    rw [hexponent] at hscaled hle
    refine isSome_scale_written hfits hscaled fun hgreat => ?_
    -- digits that count for something are not moderate with so great an exponent
    by_contra hcounts
    obtain ⟨hc, hnegative⟩ : c ≠ 0 ∧ negative = false := by simpa using hcounts
    have hdigits : 0 < digits := Nat.pos_of_ne_zero fun hzero => by
      have hpos : (0 : ℚ) < c := by exact_mod_cast Nat.pos_of_ne_zero hc
      rw [hzero, Nat.cast_zero, zero_mul] at htaken
      exact absurd htaken (not_le.2 (by positivity))
    have hlt := exponent_lt hdigits hle
    rw [signedExponent, hnegative, if_neg Bool.false_ne_true] at hlt
    omega

/-- A moderate numeral has a value. -/
theorem Numeral.readable_of_moderate {n : Numeral} (h : n.Moderate) : n.Readable := by
  have hreal : (n.magnitude.map fun x => Number.real (if n.negative then -x else x)).isSome =
      true := by
    rw [Option.isSome_map]
    exact isSome_magnitude h
  have heither (p : Prop) [Decidable p] {a b : Option Number} (ha : a.isSome = true)
      (hb : b.isSome = true) : (if p then a else b).isSome = true := by
    split <;> assumption
  exact heither _ rfl hreal

theorem Literal.readable_of_moderate {l : Literal} (h : l.Moderate) : l.Readable := by
  cases l with
  | numeral n => exact Numeral.readable_of_moderate h
  | quoted ps => exact h

end Agora.Json
