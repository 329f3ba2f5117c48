import Agora.Proofs.Double

/-!
The total order of doubles. Numbers stand in it by what they are, except that minus zero stands
just below zero; the value of `0 / 0` stands below everything. The keys read off the bit patterns
put doubles into this order, and no two doubles have the same key.
-/

namespace Agora.Double

open Float.Model Float.Model.UnpackedFloat Decimal

/-- One double stands below another one in the total order. -/
def Below (x y : Float) : Prop :=
  x < y ∨ (x = -0.0 ∧ y = 0.0) ∨ (x.isNaN = true ∧ y.isNaN = false)

/-! ### Comparing bit patterns -/

/-- A bit pattern as sign and magnitude; both zeros have the magnitude zero. -/
def signed (b : ℕ) : ℤ := if b < 2 ^ 63 then b else 2 ^ 63 - b

theorem signed_of_positive {b : ℕ} (h : signOf b = .positive) : signed b = (b % 2 ^ 63 : ℕ) := by
  have hlt := (signOf_eq_positive_iff b).1 h
  rw [signed, if_pos hlt, Nat.mod_eq_of_lt hlt]

theorem signed_of_negative {b : ℕ} (hb : b < 2 ^ 64) (h : signOf b = .negative) :
    signed b = -(b % 2 ^ 63 : ℕ) := by
  have hge : ¬ b < 2 ^ 63 := fun hlt => nomatch ((signOf_eq_positive_iff b).2 hlt).symm.trans h
  rw [signed, if_neg hge]
  omega

theorem code_lt_code_iff {m n : ℕ} {e f : ℤ} (h : Canonical m e) (h' : Canonical n f) :
    code m e < code n f ↔ e < f ∨ e = f ∧ m < n := by
  obtain ⟨hpos, hlt, hleast, hfull⟩ := h
  obtain ⟨hpos', hlt', hleast', hfull'⟩ := h'
  rw [code, code]
  split <;> split <;> omega

theorem compare_sign_eq_lt_iff (s t : Sign) :
    compare s t = .lt ↔ s = .negative ∧ t = .positive := by
  cases s <;> cases t
  · exact ⟨nofun, nofun⟩
  · exact ⟨fun _ => ⟨rfl, rfl⟩, fun _ => rfl⟩
  · exact ⟨nofun, nofun⟩
  · exact ⟨nofun, nofun⟩

theorem then_eq_lt_iff {m n : ℕ} {e f : ℤ} (h : Canonical m e) (h' : Canonical n f) :
    (compare e f).then (compare m n) = .lt ↔ code m e < code n f := by
  rw [Ordering.then_eq_lt, compare_lt_iff_lt, compare_eq_iff_eq, compare_lt_iff_lt,
    code_lt_code_iff h h']

theorem then_eq_gt_iff {m n : ℕ} {e f : ℤ} (h : Canonical m e) (h' : Canonical n f) :
    (compare e f).then (compare m n) = .gt ↔ code n f < code m e := by
  rw [Ordering.then_eq_gt, compare_gt_iff_gt, compare_eq_iff_eq, compare_gt_iff_gt,
    code_lt_code_iff h' h, eq_comm]

/-- Numbers compare as their bit patterns do, read as sign and magnitude. -/
theorem compare_eq_lt_iff {b c : ℕ} {u v : UnpackedFloat} (hb : b < 2 ^ 64) (hc : c < 2 ^ 64)
    (hu : Unpacks b u) (hv : Unpacks c v) :
    u.compare v = some .lt ↔ u.isNaN = false ∧ v.isNaN = false ∧ signed b < signed c := by
  -- the signs and kinds decide all but two cases, finite numbers of the same sign
  rcases sign_cases (signOf b) with h | h <;> rcases sign_cases (signOf c) with h' | h' <;>
    simp only [signed_of_negative hb, signed_of_negative hc, signed_of_positive, h, h'] <;>
    cases hu <;> cases hv <;>
    simp only [UnpackedFloat.compare, UnpackedFloat.isNaN, Option.some.injEq, reduceCtorEq,
      true_and, false_and, and_false, and_self, false_iff, true_iff,
      compare_sign_eq_lt_iff, Ordering.swap_eq_lt, then_eq_lt_iff, then_eq_gt_iff, *] <;>
    omega

theorem lt_iff_compare (x y : Float) :
    x < y ↔ x.toModel.unpack.compare y.toModel.unpack = some .lt := by
  change decide ((_ == _) = true) = true ↔ _
  rw [decide_eq_true_iff, beq_iff_eq]

theorem lt_iff_signed (x y : Float) :
    x < y ↔ x.isNaN = false ∧ y.isNaN = false ∧ signed x.toBits.toNat < signed y.toBits.toNat := by
  rw [lt_iff_compare]
  exact compare_eq_lt_iff x.toBits.toNat_lt y.toBits.toNat_lt (unpacks _) (unpacks _)

/-! ### Keys -/

theorem isNaN_iff_magnitude (x : Float) :
    x.isNaN = true ↔ 2047 * 2 ^ 52 < x.toBits.toNat % 2 ^ 63 := by
  have hunpacks := unpacks x.toBits
  change (UnpackedFloat.unpack Format.binary64 x.toBits.toBitVec).isNaN = true ↔ _
  generalize UnpackedFloat.unpack Format.binary64 x.toBits.toBitVec = u at hunpacks
  cases hunpacks <;> simp only [UnpackedFloat.isNaN, reduceCtorEq, true_iff, false_iff] <;> omega

/-- Among the bit patterns that stand for no number only one is that of a double. -/
theorem eq_of_isNaN {x y : Float} (hx : x.isNaN = true) (hy : y.isNaN = true) : x = y := by
  have hpacked : ∀ z : Float, z.isNaN = true → z.toBits.toBitVec = packedNaN Format.binary64 := by
    intro z hz
    rw [isNaN_iff_magnitude] at hz
    have hexponent : @unpackExponent Format.binary64 z.toBits.toBitVec = -1#_ := by
      apply BitVec.eq_of_toNat_eq
      rw [toNat_unpackExponent]
      change _ = 2047
      omega
    have hmantissa : @unpackMantissa Format.binary64 z.toBits.toBitVec ≠ 0#_ := by
      intro hzero
      have hfraction := toNat_unpackMantissa z.toBits
      rw [hzero] at hfraction
      change 0 = _ at hfraction
      omega
    exact z.toModel.valid.eq_packedNaN hexponent hmantissa
  exact eq_of_toBits (congrArg BitVec.toNat ((hpacked x hx).trans (hpacked y hy).symm))

theorem eq_zero_iff (x : Float) : x = 0.0 ↔ x.toBits.toNat = 0 := by
  have hzero : (0.0 : Float).toBits.toNat = 0 := by decide +kernel
  exact ⟨fun h => h ▸ hzero, fun h => eq_of_toBits (h.trans hzero.symm)⟩

theorem eq_minus_zero_iff (x : Float) : x = -0.0 ↔ x.toBits.toNat = 2 ^ 63 := by
  have hzero : (-0.0 : Float).toBits.toNat = 2 ^ 63 := by decide +kernel
  exact ⟨fun h => h ▸ hzero, fun h => eq_of_toBits (h.trans hzero.symm)⟩

/-- The order of the keys is the total order. -/
theorem below_iff (x y : Float) : Below x y ↔ orderKey x < orderKey y := by
  have hx := x.toBits.toNat_lt
  have hy := y.toBits.toNat_lt
  have hxn := isNaN_iff_magnitude x
  have hyn := isNaN_iff_magnitude y
  rw [Below, lt_iff_signed, eq_minus_zero_iff, eq_zero_iff, orderKey, orderKey, signed, signed]
  cases hxb : x.isNaN <;> cases hyb : y.isNaN <;>
    simp only [hxb, hyb, reduceCtorEq, false_iff, true_iff, false_and, and_false, true_and,
      and_self, or_false, or_true, false_or, if_true, if_false] at hxn hyn ⊢ <;>
    omega

instance (x y : Float) : Decidable (Below x y) := decidable_of_iff' _ (below_iff x y)

/-- Doubles have the same key only if they are the same. -/
theorem orderKey_inj {x y : Float} : orderKey x = orderKey y ↔ x = y := by
  refine ⟨fun h => ?_, fun h => h ▸ rfl⟩
  have hx := x.toBits.toNat_lt
  have hy := y.toBits.toNat_lt
  have hxn := isNaN_iff_magnitude x
  have hyn := isNaN_iff_magnitude y
  rw [orderKey, orderKey] at h
  cases hxb : x.isNaN <;> cases hyb : y.isNaN <;>
    simp only [hxb, hyb, reduceCtorEq, false_iff, true_iff, if_true, if_false] at hxn hyn h
  · exact eq_of_toBits (by omega)
  · omega
  · omega
  · exact eq_of_isNaN hxb hyb

theorem eq_of_not_below {x y : Float} (h : ¬ Below x y) (h' : ¬ Below y x) : x = y := by
  rw [below_iff, not_lt] at h h'
  exact orderKey_inj.1 (le_antisymm h' h)

end Agora.Double
