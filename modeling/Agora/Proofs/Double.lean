import Agora.Decimal.Binary
import Agora.Proofs.Rounding

/-!
Doubles by their bits. Below the sign stand eleven bits of the exponent and 52 of the significand;
what the arithmetic of doubles unpacks from them are the parts that are read off the bit pattern,
and packing such parts gives the pattern back. So a positive finite double is known by its
significand and its exponent.
-/

namespace Agora.Double

open Float.Model Float.Model.UnpackedFloat Decimal

/-! ### Fields -/

section

variable (b : UInt64)

theorem toNat_unpackExponent :
    (@unpackExponent Format.binary64 b.toBitVec).toNat = b.toNat / 2 ^ 52 % 2 ^ 11 := by
  simp only [unpackExponent, BitVec.toNat_cast, BitVec.extractLsb_toNat, Nat.shiftRight_eq_div_pow,
    UInt64.toNat_toBitVec]

theorem toNat_unpackMantissa :
    (@unpackMantissa Format.binary64 b.toBitVec).toNat = b.toNat % 2 ^ 52 := by
  simp only [unpackMantissa, BitVec.toNat_cast, BitVec.extractLsb_toNat, Nat.shiftRight_eq_div_pow,
    UInt64.toNat_toBitVec, pow_zero, Nat.div_one]

theorem toNat_unpackSign :
    (@unpackSign Format.binary64 b.toBitVec).toNat = b.toNat / 2 ^ 63 := by
  have hlt : b.toNat < 2 ^ 64 := b.toNat_lt
  simp only [unpackSign, BitVec.toNat_cast, BitVec.extractLsb_toNat, Nat.shiftRight_eq_div_pow,
    UInt64.toNat_toBitVec]
  omega

end

/-! ### Bit patterns -/

/-- The bit pattern of the positive double with a significand and an exponent. -/
def code (m : ℕ) (e : ℤ) : ℕ :=
  if 2 ^ 52 ≤ m then (e + 1075).toNat * 2 ^ 52 + (m - 2 ^ 52) else m

theorem eq_code_of_ofBits {b m : ℕ} {e : ℤ} (hb : b < 2 ^ 64)
    (h : Parts.ofBits b = ⟨false, m, e⟩) : b = code m e := by
  rw [Parts.ofBits] at h
  split at h <;> simp only [Parts.mk.injEq, decide_eq_false_iff_not] at h <;>
    obtain ⟨hsign, rfl, rfl⟩ := h <;> rw [code]
  · rw [if_neg (by omega)]
    omega
  · rw [if_pos (by omega)]
    omega

theorem ofBits_code {m : ℕ} {e : ℤ} (h : Canonical m e) (he : e ≤ 971) :
    Parts.ofBits (code m e) = ⟨false, m, e⟩ := by
  have hlt := h.lt
  have hleast := h.least
  rw [code]
  split
  · rename_i hfull
    have hstored : ((e + 1075).toNat * 2 ^ 52 + (m - 2 ^ 52)) / 0x10000000000000 % 2048 =
        (e + 1075).toNat := by omega
    simp only [Parts.ofBits, hstored]
    rw [if_neg (by omega)]
    simp only [Parts.mk.injEq, decide_eq_false_iff_not]
    omega
  · rename_i hsub
    have heq := h.full.resolve_left hsub
    have hstored : m / 0x10000000000000 % 2048 = 0 := by omega
    simp only [Parts.ofBits, hstored, if_true, Parts.mk.injEq, decide_eq_false_iff_not]
    omega

theorem code_lt {m : ℕ} {e : ℤ} (h : Canonical m e) (he : e ≤ 971) : code m e < 2 ^ 63 := by
  have hlt := h.lt
  rw [code]
  split <;> omega

theorem toNat_packComponents (x : BitVec 11) (y : BitVec 52) :
    (packComponents Format.binary64 .positive x y).toNat = x.toNat * 2 ^ 52 + y.toNat := by
  rw [packComponents, BitVec.toNat_append, BitVec.toNat_append,
    ← Nat.shiftLeft_add_eq_or_of_lt y.isLt]
  simp [Sign.toBitVec, Nat.shiftLeft_eq]

/-- Packing a significand and an exponent. -/
theorem toNat_pack {m : ℕ} {e : ℤ} (h : Canonical m e) (he : e ≤ 971) :
    (UnpackedFloat.pack Format.binary64 (.finite .positive m e h.pos)).toNat = code m e := by
  have hlt := h.lt
  have hleast := h.least
  have hlog : m.log2 < 53 := (Nat.log2_lt h.pos.ne').2 hlt
  have hbias : (e + Format.binary64.exponentBias + Format.binary64.mantissaBitsWithoutImplicit) =
      e + 1075 := by
    change e + 1023 + 52 = e + 1075
    omega
  have hfits : ¬ 2 ^ Format.binary64.exponentBits ≤ (e + 1075).toNat + 1 := by
    change ¬ 2 ^ 11 ≤ _
    omega
  simp only [UnpackedFloat.pack, hbias, if_neg hfits]
  have hbits : m.log2 + 1 = Format.binary64.mantissaBits ↔ 2 ^ 52 ≤ m := by
    change m.log2 + 1 = 53 ↔ _
    rw [← Nat.le_log2 h.pos.ne']
    omega
  rw [code]
  by_cases hfull : 2 ^ 52 ≤ m
  · rw [if_pos hfull, if_pos (hbits.2 hfull), toNat_packComponents, BitVec.toNat_ofNat,
      BitVec.toNat_ofNat]
    change (e + 1075).toNat % 2 ^ 11 * 2 ^ 52 + m % 2 ^ 52 = _
    omega
  · rw [if_neg hfull, if_neg (mt hbits.1 hfull), toNat_packComponents, BitVec.toNat_ofNat,
      BitVec.toNat_ofNat]
    rw [Nat.zero_mod, Nat.zero_mul, Nat.zero_add]
    exact Nat.mod_eq_of_lt (not_le.1 hfull)

/-! ### Unpacking -/

/-- The sign that a bit pattern holds. -/
def signOf (b : ℕ) : Sign := if 2 ^ 63 ≤ b then .negative else .positive

theorem signOf_eq_positive_iff (b : ℕ) : signOf b = .positive ↔ b < 2 ^ 63 := by
  rw [signOf]
  split
  · exact ⟨nofun, fun h => by omega⟩
  · exact ⟨fun _ => by omega, fun _ => rfl⟩

theorem ofBitVec_unpackSign {b : UInt64} :
    Sign.ofBitVec (@unpackSign Format.binary64 b.toBitVec) =
      if 2 ^ 63 ≤ b.toNat then .negative else .positive := by
  have hlt : b.toNat < 2 ^ 64 := b.toNat_lt
  have hsign := toNat_unpackSign b
  rw [Sign.ofBitVec]
  split
  · rename_i h
    rw [h] at hsign
    rw [if_neg]
    have : b.toNat / 2 ^ 63 = 0 := hsign.symm
    omega
  · rename_i h
    have hne : b.toNat / 2 ^ 63 ≠ 0 := by
      rw [← hsign]
      exact fun hzero => h (BitVec.eq_of_toNat_eq hzero)
    rw [if_pos (by omega)]

section

variable {b : UInt64} {m : ℕ} {e : ℤ}

theorem toNat_unpackExponent_of_code (h : Canonical m e) (hb : b.toNat % 2 ^ 63 = code m e) :
    (@unpackExponent Format.binary64 b.toBitVec).toNat =
      if 2 ^ 52 ≤ m then (e + 1075).toNat else 0 := by
  have hlt := h.lt
  have hleast := h.least
  rw [toNat_unpackExponent]
  rw [code] at hb
  split at hb <;> split <;> omega

theorem toNat_unpackMantissa_of_code (h : Canonical m e) (hb : b.toNat % 2 ^ 63 = code m e) :
    (@unpackMantissa Format.binary64 b.toBitVec).toNat =
      if 2 ^ 52 ≤ m then m - 2 ^ 52 else m := by
  have hlt := h.lt
  rw [toNat_unpackMantissa]
  rw [code] at hb
  split at hb <;> split <;> omega

/-- What is unpacked from a bit pattern that is that of a finite double but for the sign. -/
theorem unpack_of_code (h : Canonical m e) (he : e ≤ 971) (hb : b.toNat % 2 ^ 63 = code m e) :
    UnpackedFloat.unpack Format.binary64 b.toBitVec = .finite (signOf b.toNat) m e h.pos := by
  have hsign : Sign.ofBitVec (@unpackSign Format.binary64 b.toBitVec) = signOf b.toNat :=
    ofBitVec_unpackSign
  have hexponent := toNat_unpackExponent_of_code h hb
  have hmantissa := toNat_unpackMantissa_of_code h hb
  have hleast := h.least
  have hpos := h.pos
  have hinf : @unpackExponent Format.binary64 b.toBitVec ≠ -1#_ := by
    intro heq
    rw [heq] at hexponent
    change 2047 = _ at hexponent
    split at hexponent <;> omega
  simp only [UnpackedFloat.unpack, hsign, if_neg hinf]
  by_cases hfull : 2 ^ 52 ≤ m
  · rw [if_pos hfull] at hexponent hmantissa
    have hzero : @unpackExponent Format.binary64 b.toBitVec ≠ 0#_ := by
      intro heq
      rw [heq] at hexponent
      change 0 = _ at hexponent
      omega
    have hm : (1#1 ++ @unpackMantissa Format.binary64 b.toBitVec).toNat = m := by
      rw [BitVec.toNat_append, ← Nat.shiftLeft_add_eq_or_of_lt (BitVec.isLt _), hmantissa]
      change 1 <<< 52 + _ = m
      rw [Nat.shiftLeft_eq]
      omega
    have he : ((@unpackExponent Format.binary64 b.toBitVec).toNat : ℤ) -
        (Format.binary64.exponentBias + Format.binary64.mantissaBitsWithoutImplicit) = e := by
      rw [hexponent]
      change ((e + 1075).toNat : ℤ) - (1023 + 52) = e
      omega
    rw [if_neg hzero]
    simp only [hm, he]
  · rw [if_neg hfull] at hexponent hmantissa
    have hzero : @unpackExponent Format.binary64 b.toBitVec = 0#_ :=
      BitVec.eq_of_toNat_eq hexponent
    have hne : @unpackMantissa Format.binary64 b.toBitVec ≠ 0#_ := by
      intro heq
      rw [heq] at hmantissa
      change 0 = m at hmantissa
      omega
    have he : ((@unpackExponent Format.binary64 b.toBitVec).toNat : ℤ) -
        (Format.binary64.exponentBias + Format.binary64.mantissaBitsWithoutImplicit) + 1 = e := by
      rw [hzero, h.full.resolve_left hfull]
      rfl
    rw [if_pos hzero, dif_neg hne]
    simp only [hmantissa, he]

theorem unpack_of_positive (h : Canonical m e) (he : e ≤ 971) (hb : b.toNat = code m e) :
    UnpackedFloat.unpack Format.binary64 b.toBitVec = .finite .positive m e h.pos := by
  have hlt : b.toNat < 2 ^ 63 := hb ▸ code_lt h he
  rw [unpack_of_code h he (by rw [Nat.mod_eq_of_lt hlt, hb])]
  simp only [(signOf_eq_positive_iff _).2 hlt]

end

theorem unpack_of_top {b : UInt64} (h : b.toNat / 2 ^ 52 % 2 ^ 11 = 2047) :
    UnpackedFloat.unpack Format.binary64 b.toBitVec =
      if b.toNat % 2 ^ 52 = 0 then .infinity (signOf b.toNat) else .notANumber := by
  have hexponent : @unpackExponent Format.binary64 b.toBitVec = -1#_ := by
    apply BitVec.eq_of_toNat_eq
    rw [toNat_unpackExponent, h]
    rfl
  have hmantissa : @unpackMantissa Format.binary64 b.toBitVec = 0#_ ↔ b.toNat % 2 ^ 52 = 0 := by
    rw [← toNat_unpackMantissa, ← BitVec.toNat_inj]
    exact Iff.rfl
  simp only [UnpackedFloat.unpack, if_pos hexponent, ofBitVec_unpackSign, hmantissa, signOf]

theorem unpack_of_zero {b : UInt64} (h : b.toNat / 2 ^ 52 % 2 ^ 11 = 0)
    (hzero : b.toNat % 2 ^ 52 = 0) :
    UnpackedFloat.unpack Format.binary64 b.toBitVec = .zero (signOf b.toNat) := by
  have hexponent : @unpackExponent Format.binary64 b.toBitVec = 0#_ := by
    apply BitVec.eq_of_toNat_eq
    rw [toNat_unpackExponent, h]
    rfl
  have hmantissa : @unpackMantissa Format.binary64 b.toBitVec = 0#_ := by
    apply BitVec.eq_of_toNat_eq
    rw [toNat_unpackMantissa, hzero]
    rfl
  simp only [UnpackedFloat.unpack, hexponent, hmantissa, ofBitVec_unpackSign, signOf]
  rfl

/-- The positive finite patterns are those of a significand and an exponent. -/
theorem exists_code {b : ℕ} (hpos : 0 < b) (hlt : b < 2047 * 2 ^ 52) :
    ∃ m e, Canonical m e ∧ e ≤ 971 ∧ b = code m e := by
  by_cases hfull : 2 ^ 52 ≤ b
  · refine ⟨2 ^ 52 + b % 2 ^ 52, (b / 2 ^ 52 : ℕ) - 1075, ⟨?_, ?_, ?_, .inl ?_⟩, ?_, ?_⟩ <;>
      try omega
    rw [code, if_pos (by omega)]
    omega
  · refine ⟨b, -1074, ⟨hpos, by omega, le_rfl, .inr rfl⟩, by omega, ?_⟩
    rw [code, if_neg hfull]

/-- What may be unpacked from a bit pattern: its sign is the greatest bit, and the others tell the
rest. -/
inductive Unpacks (b : ℕ) : UnpackedFloat → Prop
  | notANumber (top : 2047 * 2 ^ 52 < b % 2 ^ 63) : Unpacks b .notANumber
  | infinity (top : b % 2 ^ 63 = 2047 * 2 ^ 52) : Unpacks b (.infinity (signOf b))
  | zero (bottom : b % 2 ^ 63 = 0) : Unpacks b (.zero (signOf b))
  | finite {m : ℕ} {e : ℤ} (pos : 0 < b % 2 ^ 63) (lt : b % 2 ^ 63 < 2047 * 2 ^ 52)
    (canonical : Canonical m e) (le : e ≤ 971) (eq : b % 2 ^ 63 = code m e) :
    Unpacks b (.finite (signOf b) m e canonical.pos)

theorem unpacks (b : UInt64) :
    Unpacks b.toNat (UnpackedFloat.unpack Format.binary64 b.toBitVec) := by
  rcases lt_or_ge (b.toNat % 2 ^ 63) (2047 * 2 ^ 52) with hlt | hge
  · rcases Nat.eq_zero_or_pos (b.toNat % 2 ^ 63) with hzero | hpos
    · rw [unpack_of_zero (by omega) (by omega)]
      exact .zero hzero
    · obtain ⟨m, e, canonical, he, hb⟩ := exists_code hpos hlt
      rw [unpack_of_code canonical he hb]
      exact .finite hpos hlt canonical he hb
  · rw [unpack_of_top (by omega)]
    split
    · exact .infinity (by omega)
    · exact .notANumber (by omega)

/-! ### Kinds of doubles -/

theorem le_zero_iff (x : Float) :
    x ≤ 0.0 ↔ (x.toModel.unpack.compare (.zero .positive)).any (·.isLE) = true := by
  have hzero : (0.0 : Float).toModel.unpack = .zero .positive :=
    unpack_of_zero (by decide +kernel) (by decide +kernel)
  change decide (x.toModel.unpack.le (0.0 : Float).toModel.unpack = true) = true ↔ _
  rw [hzero, decide_eq_true_iff]
  exact Iff.rfl

theorem isNaN_iff (x : Float) : x.isNaN = x.toModel.unpack.isNaN := rfl

theorem isInf_iff (x : Float) : x.isInf = x.toModel.unpack.isInf := rfl

theorem sign_cases (sign : Sign) : sign = .negative ∨ sign = .positive := by
  cases sign <;> simp

/-- A double above zero is infinite or has a significand and an exponent. -/
theorem above_zero_cases {x : Float} (hnan : x.isNaN = false) (hpos : ¬ x ≤ 0.0) :
    x.toBits.toNat = 2047 * 2 ^ 52 ∨
      ∃ m e, Canonical m e ∧ e ≤ 971 ∧ parts x = ⟨false, m, e⟩ := by
  rw [le_zero_iff] at hpos
  rw [isNaN_iff] at hnan
  change (UnpackedFloat.unpack Format.binary64 x.toBits.toBitVec).isNaN = false at hnan
  change ¬ ((UnpackedFloat.unpack Format.binary64 x.toBits.toBitVec).compare _).any _ = true at hpos
  have hunpacks := unpacks x.toBits
  have hlt : x.toBits.toNat < 2 ^ 64 := x.toBits.toNat_lt
  have hsign := signOf_eq_positive_iff x.toBits.toNat
  rw [parts]
  generalize UnpackedFloat.unpack Format.binary64 x.toBits.toBitVec = u at hunpacks hnan hpos
  generalize x.toBits.toNat = b at *
  cases hunpacks with
  | notANumber top => cases hnan
  | infinity top =>
    rcases sign_cases (signOf b) with hb | hb
    · rw [hb] at hpos
      exact absurd rfl hpos
    · have hb := hsign.1 hb
      exact .inl (by omega)
  | zero bottom => exact absurd rfl hpos
  | @finite m e pos lt canonical le eq =>
    rcases sign_cases (signOf b) with hb | hb
    · rw [hb] at hpos
      exact absurd rfl hpos
    · have hb := hsign.1 hb
      rw [Nat.mod_eq_of_lt hb] at eq
      exact .inr ⟨m, e, canonical, le, eq ▸ ofBits_code canonical le⟩

/-- A positive finite double is what is packed from its parts. -/
theorem eq_pack_of_parts {x : Float} {m : ℕ} {e : ℤ} (h : Canonical m e) (he : e ≤ 971)
    (hx : parts x = ⟨false, m, e⟩) :
    x = .ofModel (Float.Model.pack (.finite .positive m e h.pos)) := by
  obtain ⟨⟨bits, valid⟩⟩ := x
  have hbits : bits.toNat = code m e := eq_code_of_ofBits bits.toNat_lt hx
  have hpack : bits = UInt64.ofBitVec (UnpackedFloat.pack Format.binary64
      (.finite .positive m e h.pos)) := by
    apply UInt64.toNat_inj.1
    rw [hbits, ← toNat_pack h he]
    rfl
  simp only [Float.Model.pack, hpack]

/-- The parts of what is packed. -/
theorem parts_pack {m : ℕ} {e : ℤ} (h : Canonical m e) (he : e ≤ 971) :
    parts (.ofModel (Float.Model.pack (.finite .positive m e h.pos))) = ⟨false, m, e⟩ := by
  have hbits : (Float.ofModel (Float.Model.pack (.finite .positive m e h.pos))).toBits.toNat =
      code m e := toNat_pack h he
  rw [parts, hbits, ofBits_code h he]

theorem unpack_pack {m : ℕ} {e : ℤ} (h : Canonical m e) (he : e ≤ 971) :
    (Float.Model.pack (.finite .positive m e h.pos)).unpack = .finite .positive m e h.pos :=
  unpack_of_positive h he (toNat_pack h he)

/-- A double with a significand and an exponent is a finite number. -/
theorem isNaN_of_parts {x : Float} {m : ℕ} {e : ℤ} (h : Canonical m e) (he : e ≤ 971)
    (hx : parts x = ⟨false, m, e⟩) : x.isNaN = false := by
  rw [eq_pack_of_parts h he hx, isNaN_iff, unpack_pack h he]
  rfl

theorem isInf_of_parts {x : Float} {m : ℕ} {e : ℤ} (h : Canonical m e) (he : e ≤ 971)
    (hx : parts x = ⟨false, m, e⟩) : x.isInf = false := by
  rw [eq_pack_of_parts h he hx, isInf_iff, unpack_pack h he]
  rfl

theorem eq_of_toBits {x y : Float} (h : x.toBits.toNat = y.toBits.toNat) : x = y := by
  obtain ⟨⟨bits, valid⟩⟩ := x
  obtain ⟨⟨bits', valid'⟩⟩ := y
  obtain rfl : bits = bits' := UInt64.toNat_inj.1 h
  rfl

/-- The positive double beyond all finite ones. -/
theorem eq_infinite {x : Float} (h : x.toBits.toNat = 2047 * 2 ^ 52) : x = 1.0 / 0.0 :=
  eq_of_toBits (h.trans (by decide +kernel))

end Agora.Double
