import Agora.Decimal.Layout
import Agora.Proofs.Shortest

/-!
Numbers in plain text. A run of digits, with or without a point, is read as the double nearest to
the decimal that it spells; so the plain text of a positive double is read as the double itself, and
what is read as an integer is read as the double nearest to it. Counts beyond the signed integers
come back from their doubles rounded to multiples of 2048.
-/

namespace Agora.Decimal

/-! ### Runs of digits -/

theorem toLower_of_isDigit {c : Char} (h : isDigit c = true) : c.toLower = c := by
  simp only [isDigit, Bool.and_eq_true, decide_eq_true_eq, Char.le_def, UInt32.le_iff_toNat_le] at h
  rw [Char.toLower, dif_neg]
  rintro ⟨h', -⟩
  exact absurd (Nat.le_trans h' h.2) (by decide)

/-- A text that begins with a digit is no name of a number. -/
theorem map_toLower_ne {ds : List Char} (hds : ∀ d ∈ ds, isDigit d = true) (hne : ds ≠ [])
    (rest : List Char) {c : Char} (hc : isDigit c = false) (name : List Char) :
    (ds ++ rest).map Char.toLower ≠ c :: name := by
  intro h
  obtain ⟨d, ds, rfl⟩ := List.exists_cons_of_ne_nil hne
  have hd : isDigit d = true := hds d List.mem_cons_self
  obtain ⟨rfl, -⟩ := List.cons.inj h
  rw [toLower_of_isDigit hd, hd] at hc
  cases hc

/-- Digits that are followed by something else. -/
theorem readUnsigned_run {ds rest : List Char} (hds : ∀ d ∈ ds, isDigit d = true) (hne : ds ≠ [])
    (halts : Halts rest) :
    readUnsigned (ds ++ rest) =
      let (fraction, rest) := match rest with
        | '.' :: r => (r.takeWhile isDigit, r.dropWhile isDigit)
        | r => ([], r)
      (readExponent rest).map fun e =>
        nearest (ofDigits (ds ++ fraction)) (e - fraction.length) := by
  have hi : isDigit 'i' = false := by decide
  have hn : isDigit 'n' = false := by decide
  have hinf : ¬ (decide ((ds ++ rest).map Char.toLower = "inf".toList) ||
      decide ((ds ++ rest).map Char.toLower = "infinity".toList)) = true := by
    simp only [Bool.or_eq_true, decide_eq_true_eq, not_or]
    exact ⟨map_toLower_ne hds hne rest hi _, map_toLower_ne hds hne rest hi _⟩
  have hnan : (ds ++ rest).map Char.toLower ≠ "nan".toList := map_toLower_ne hds hne rest hn _
  have hfilled (fraction : List Char) : (ds.isEmpty && fraction.isEmpty) = false := by
    cases ds with
    | nil => exact absurd rfl hne
    | cons => rfl
  simp only [readUnsigned, if_neg hinf, if_neg hnan, takeWhile_digits hds halts,
    List.dropWhile_append_of_pos hds, dropWhile_of_halts halts, hfilled]
  rfl

theorem readUnsigned_digits {ds : List Char} (hds : ∀ d ∈ ds, isDigit d = true) (hne : ds ≠ []) :
    readUnsigned ds = some (nearest (ofDigits ds) 0) := by
  have h := @readUnsigned_run ds [] hds hne nofun
  rw [List.append_nil] at h
  simp only [h, readExponent, Option.map_some, List.append_nil, List.length_nil]
  rfl

theorem readUnsigned_point {ds fs : List Char} (hds : ∀ d ∈ ds, isDigit d = true) (hne : ds ≠ [])
    (hfs : ∀ d ∈ fs, isDigit d = true) :
    readUnsigned (ds ++ '.' :: fs) = some (nearest (ofDigits (ds ++ fs)) (-fs.length)) := by
  have htake : fs.takeWhile isDigit = fs := List.takeWhile_eq_self_iff.2 hfs
  have hdrop : fs.dropWhile isDigit = [] := List.dropWhile_eq_nil_iff.2 hfs
  have hpoint : Halts ('.' :: fs) := halts_cons (by decide) fs
  simp only [readUnsigned_run hds hne hpoint, htake, hdrop, readExponent, Option.map_some, zero_sub]

theorem takeSign_of_isDigit {c : Char} (h : isDigit c = true) (cs : List Char) :
    takeSign (c :: cs) = (false, c :: cs) := by
  unfold takeSign
  split
  · rename_i heq
    cases heq
    cases h
  · rename_i heq
    cases heq
    cases h
  · rfl

/-- A text that begins with a digit has no sign. -/
theorem readFloat_run {ds : List Char} (hds : ∀ d ∈ ds, isDigit d = true) (hne : ds ≠ [])
    (rest : List Char) : readFloat (String.ofList (ds ++ rest)) = readUnsigned (ds ++ rest) := by
  obtain ⟨d, ds, rfl⟩ := List.exists_cons_of_ne_nil hne
  have hd : isDigit d = true := hds d List.mem_cons_self
  rw [readFloat, String.toList_ofList, List.cons_append, takeSign_of_isDigit hd]
  exact Option.map_id'

/-! ### Plain text -/

theorem isDigit_of_mem_replicate {k : ℕ} {d : Char} (h : d ∈ List.replicate k '0') :
    isDigit d = true := by
  rw [List.eq_of_mem_replicate h]
  rfl

/-- Zeros stand for the digits up to the point. -/
theorem readFloat_whole (c k : ℕ) :
    readFloat (String.ofList (digits c ++ List.replicate k '0')) =
      some (nearest (c * 10 ^ k) 0) := by
  have hds : ∀ d ∈ digits c ++ List.replicate k '0', isDigit d = true :=
    List.forall_mem_append.2
      ⟨isDigit_of_mem_digits c, fun d hd => isDigit_of_mem_replicate hd⟩
  have hne : digits c ++ List.replicate k '0' ≠ [] :=
    List.append_ne_nil_of_left_ne_nil (digits_ne_nil c) _
  have hread := readFloat_run hds hne []
  rwa [List.append_nil, readUnsigned_digits hds hne, ofDigits_append_replicate, ofDigits_digits,
    Nat.pow_eq] at hread

/-- The point stands between two digits. -/
theorem readFloat_parted (c : ℕ) {k : ℕ} (pos : 0 < k) :
    readFloat (String.ofList ((digits c).take k ++ '.' :: (digits c).drop k)) =
      some (nearest c (-((digits c).length - k : ℕ))) := by
  have htake : ∀ d ∈ (digits c).take k, isDigit d = true :=
    fun d hd => isDigit_of_mem_digits c d (List.mem_of_mem_take hd)
  have hdrop : ∀ d ∈ (digits c).drop k, isDigit d = true :=
    fun d hd => isDigit_of_mem_digits c d (List.mem_of_mem_drop hd)
  have hne : (digits c).take k ≠ [] := by
    rw [Ne, List.take_eq_nil_iff, not_or]
    exact ⟨pos.ne', digits_ne_nil c⟩
  rw [readFloat_run htake hne, readUnsigned_point htake hne hdrop, List.take_append_drop,
    ofDigits_digits, List.length_drop]

/-- Zeros stand between the point and the digits. -/
theorem readFloat_behind (c k : ℕ) :
    readFloat (String.ofList ('0' :: '.' :: (List.replicate k '0' ++ digits c))) =
      some (nearest c (-(k + (digits c).length : ℕ))) := by
  have hzero : ∀ d ∈ ['0'], isDigit d = true := List.forall_mem_singleton.2 rfl
  have hds : ∀ d ∈ List.replicate k '0' ++ digits c, isDigit d = true :=
    List.forall_mem_append.2
      ⟨fun d hd => isDigit_of_mem_replicate hd, isDigit_of_mem_digits c⟩
  have hvalue : ofDigits (['0'] ++ (List.replicate k '0' ++ digits c)) = c :=
    ((ofDigits_replicate_append 1 _).trans (ofDigits_replicate_append k _)).trans
      (ofDigits_digits c)
  refine (readFloat_run hzero (List.cons_ne_nil _ _) _).trans ?_
  rw [readUnsigned_point hzero (List.cons_ne_nil _ _) hds, hvalue, List.length_append,
    List.length_replicate]

/-- A decimal in plain text is read by its digits. -/
theorem readFloat_plain (c : ℕ) (k : ℤ) :
    readFloat (Layout.plain.write ⟨false, c, k⟩) =
      some (nearest (c * 10 ^ k.toNat) (min k 0)) := by
  have hwrite : Layout.plain.write ⟨false, c, k⟩ =
      String.ofList (Layout.plain.full (digits c) ((digits c).length + k)) := rfl
  rw [hwrite, Layout.full]
  split
  · have hk : ((digits c).length + k).toNat - (digits c).length = k.toNat := by omega
    have hmin : min k 0 = 0 := by omega
    have htail : Layout.plain.wholeTail.toList = [] := rfl
    rw [hk, hmin, htail, List.append_nil, readFloat_whole]
  · have hk : k.toNat = 0 := by omega
    rw [hk, pow_zero, mul_one]
    split
    · rename_i hinside
      have hmin : -(((digits c).length - ((digits c).length + k).toNat : ℕ) : ℤ) = min k 0 := by
        omega
      rw [readFloat_parted c (by omega), hmin]
    · have hmin : -(((-((digits c).length + k)).toNat + (digits c).length : ℕ) : ℤ) = min k 0 := by
        omega
      rw [readFloat_behind, hmin]

/-- The plain text of a positive double is read as that double. -/
theorem readFloat_writeFloat {x : Float} (hnan : x.isNaN = false) (hpos : ¬ x ≤ 0.0) :
    readFloat (Layout.plain.writeFloat x) = some x := by
  rcases Double.above_zero_cases hnan hpos with hbits | ⟨m, e, canonical, he, hx⟩
  · obtain rfl := Double.eq_infinite hbits
    have hwrite : Layout.plain.writeFloat (1.0 / 0.0) = "inf" := by decide +kernel
    rw [hwrite]
    rfl
  · obtain ⟨c, k, hshortest, pos, near⟩ := Double.shortest_spec canonical he hx
    rw [Layout.writeFloat, Double.isNaN_of_parts canonical he hx,
      Double.isInf_of_parts canonical he hx, hshortest]
    simp only [Bool.false_eq_true, if_false, readFloat_plain]
    congr 1
    refine Double.nearest_eq (Nat.mul_pos pos (Nat.pow_pos (by decide))) canonical he ?_ hx
    have hvalue : ((c * 10 ^ k.toNat : ℕ) : ℚ) * 10 ^ min k 0 = c * 10 ^ k := by
      have hk : k = (k.toNat : ℤ) + min k 0 := by omega
      conv_rhs => rw [hk, zpow_add₀ (by norm_num), zpow_natCast]
      push_cast
      ring
    rwa [hvalue]

/-! ### Integers -/

/-- What is read as an integer is read as the double nearest to it, with a sign of its own. -/
theorem readFloat_of_readInt {s : String} {i : ℤ} (h : readInt s = some i) :
    ∃ (negative : Bool) (n : ℕ), i = (if negative then -(n : ℤ) else n) ∧
      readFloat s = some (if negative then -nearest n 0 else nearest n 0) := by
  rw [readInt] at h
  rw [readFloat]
  rcases hsign : takeSign s.toList with ⟨negative, ds⟩
  simp only [hsign] at h ⊢
  split at h
  · cases h
  · rename_i hds
    simp only [Bool.or_eq_true, Bool.not_eq_true', not_or, Bool.not_eq_false, List.all_eq_true,
      List.isEmpty_iff] at hds
    rw [readUnsigned_digits hds.2 hds.1]
    exact ⟨negative, ofDigits ds, (Option.some.inj h).symm, rfl⟩

theorem readInt_text (n : ℕ) : readInt (text n) = some (n : ℤ) := by
  obtain ⟨d, ds, hds⟩ := List.exists_cons_of_ne_nil (digits_ne_nil n)
  have hd : isDigit d = true := isDigit_of_mem_digits n d (hds ▸ List.mem_cons_self)
  have hall : (digits n).all isDigit = true := List.all_eq_true.2 (isDigit_of_mem_digits n)
  have hempty : (digits n).isEmpty = false := by rw [hds]; rfl
  have hsign : takeSign (digits n) = (false, digits n) := by rw [hds, takeSign_of_isDigit hd]
  simp only [readInt, text, String.toList_ofList, hsign, hempty, hall, ofDigits_digits]
  rfl

/-- The text of a count is read as an integer if it is one of the signed ones. -/
theorem readInt64_text (n : ℕ) :
    readInt64 (text n) = if n < 2 ^ 63 then some (n : ℤ) else none := by
  rw [readInt64, readInt_text, Option.bind_some]
  split <;> split <;> first | rfl | omega

theorem readFloat_text (n : ℕ) : readFloat (text n) = some (nearest n 0) := by
  have hread := readFloat_run (isDigit_of_mem_digits n) (digits_ne_nil n) []
  rw [List.append_nil, readUnsigned_digits (isDigit_of_mem_digits n) (digits_ne_nil n),
    ofDigits_digits] at hread
  exact hread

/-! ### What numbers begin with -/

/-- A character with which a number can begin, and no word for a truth value does. -/
def Initial (c : Char) : Prop := c.toNat < 0x80 ∧ c.toLower ≠ 't' ∧ c.toLower ≠ 'f'

theorem toNat_lt_of_toLower {c : Char} (h : c.toLower.toNat < 0x80) : c.toNat < 0x80 := by
  rw [Char.toLower] at h
  split at h
  · rename_i hupper
    exact Nat.lt_of_le_of_lt (UInt32.le_iff_toNat_le.1 hupper.2) (by decide)
  · exact h

theorem initial_of_isDigit {c : Char} (h : isDigit c = true) : Initial c := by
  rw [Initial, toLower_of_isDigit h]
  simp only [isDigit, Bool.and_eq_true, decide_eq_true_eq, Char.le_def, UInt32.le_iff_toNat_le] at h
  refine ⟨Nat.lt_of_le_of_lt h.2 (by decide), ?_, ?_⟩
  · rintro rfl
    exact absurd h (by decide)
  · rintro rfl
    exact absurd h (by decide)

theorem initial_of_name {cs : List Char} {d : Char} {name : List Char}
    (h : cs.map Char.toLower = d :: name) (hd : d.toNat < 0x80 ∧ d ≠ 't' ∧ d ≠ 'f') :
    ∃ c, cs.head? = some c ∧ Initial c := by
  obtain ⟨c, cs, rfl, rfl, -⟩ := List.map_eq_cons_iff.1 h
  exact ⟨c, rfl, toNat_lt_of_toLower hd.1, hd.2⟩

theorem initial_of_readUnsigned {cs : List Char} {x : Float} (h : readUnsigned cs = some x) :
    ∃ c, cs.head? = some c ∧ Initial c := by
  rw [readUnsigned] at h
  split at h
  · rename_i hname
    rcases Bool.or_eq_true_iff.1 hname with hname | hname
    · exact initial_of_name (of_decide_eq_true hname) (by decide)
    · exact initial_of_name (of_decide_eq_true hname) (by decide)
  · split at h
    · rename_i hname
      exact initial_of_name hname (by decide)
    · cases cs with
      | nil => cases h
      | cons c cs =>
        refine ⟨c, rfl, ?_⟩
        by_cases hdigit : isDigit c = true
        · exact initial_of_isDigit hdigit
        · simp only [List.takeWhile_cons_of_neg hdigit, List.dropWhile_cons_of_neg hdigit] at h
          split at h
          · rename_i heq
            obtain ⟨rfl, -⟩ := List.cons.inj heq
            exact ⟨by decide, by decide, by decide⟩
          · cases h

theorem takeSign_cases (cs : List Char) :
    cs.head? = some '-' ∨ cs.head? = some '+' ∨ takeSign cs = (false, cs) := by
  unfold takeSign
  split
  · exact .inl rfl
  · exact .inr (.inl rfl)
  · exact .inr (.inr rfl)

theorem initial_of_readFloat {s : String} {x : Float} (h : readFloat s = some x) :
    ∃ c, s.toList.head? = some c ∧ Initial c := by
  rw [readFloat] at h
  rcases takeSign_cases s.toList with hhead | hhead | hsign
  · exact ⟨'-', hhead, by decide, by decide, by decide⟩
  · exact ⟨'+', hhead, by decide, by decide, by decide⟩
  · rw [hsign] at h
    obtain ⟨y, hy, -⟩ := Option.map_eq_some_iff.1 h
    exact initial_of_readUnsigned hy

/-! ### Counts by way of doubles -/

/-- A count as it comes back from the double nearest to it, if it is none of the signed integers: a
multiple of 2048, of two that are equally near the one that is even times that, and at most the
greatest count. -/
def coarse (n : ℕ) : ℕ :=
  if n < 2 ^ 63 then n else min (2048 * ((n + 1023 + n / 2048 % 2) / 2048)) (2 ^ 64 - 1)

theorem coarse_eq_self_iff {n : ℕ} (h : n < 2 ^ 64) :
    coarse n = n ↔ n < 2 ^ 63 ∨ 2048 ∣ n ∨ n = 2 ^ 64 - 1 := by
  rw [coarse]
  split <;> omega

theorem coarse_lt {n : ℕ} : n < 2 ^ 64 → coarse n < 2 ^ 64 := by
  rw [coarse]
  split <;> omega

/-- The count that a double with a nonnegative exponent stands for. -/
theorem toNat_countOf {x : Float} {m e : ℕ} (canonical : Double.Canonical m e)
    (he : (e : ℤ) ≤ 971) (hx : parts x = ⟨false, m, e⟩) :
    (countOf x).toNat = min (m * 2 ^ e) (2 ^ 64 - 1) := by
  have hrounded : (Parts.mk false m e).rounded = m * 2 ^ e := by
    have hunit : (-(e : ℤ)).toNat = 0 := by omega
    simp only [Parts.rounded, hunit, Int.toNat_natCast, Nat.pow_eq, pow_zero, mul_assoc 2]
    omega
  have hsize : UInt64.size = 2 ^ 64 := rfl
  rw [countOf, Double.isNaN_of_parts canonical he hx, hx, hrounded, if_neg (by simp),
    UInt64.ofNatClamp]
  split
  · rw [UInt64.toNat_ofNatLT]
    omega
  · rw [UInt64.toNat_ofNatLT]
    omega

/-- The multiple of 2048 that is nearest to a number, in units of 2048. -/
theorem rounds_coarse (n : ℕ) :
    Double.Rounds ((n + 1023 + n / 2048 % 2) / 2048) ((n : ℚ) / 2 ^ 11) := by
  obtain ⟨r, hr⟩ : ∃ r, r = (n + 1023 + n / 2048 % 2) / 2048 := ⟨_, rfl⟩
  have hlow : 2048 * r ≤ n + 1024 := by omega
  have hhigh : n ≤ 2048 * r + 1024 := by omega
  have heven : n + 1024 = 2048 * r ∨ n = 2048 * r + 1024 → r % 2 = 0 := by omega
  rw [← hr]
  have hlow' : (2048 : ℚ) * r ≤ n + 1024 := by exact_mod_cast hlow
  have hhigh' : (n : ℚ) ≤ 2048 * r + 1024 := by exact_mod_cast hhigh
  refine ⟨by linarith, by linarith, ?_⟩
  rintro (heq | heq)
  · have : (n : ℚ) + 1024 = 2048 * r := by linarith
    exact heven (.inl (by exact_mod_cast this))
  · have : (n : ℚ) = 2048 * r + 1024 := by linarith
    exact heven (.inr (by exact_mod_cast this))

/-- A count beyond the signed integers, read as a double and taken for a count again. -/
theorem countOf_nearest {n : ℕ} (h : 2 ^ 63 ≤ n) (hlt : n < 2 ^ 64) :
    (countOf (nearest n 0)).toNat = coarse n := by
  have pos : 0 < n := by omega
  have hvalue (e : ℕ) : (n : ℚ) * 10 ^ (0 : ℤ) / 2 ^ (e : ℤ) = n / 2 ^ e := by
    rw [zpow_zero, mul_one, zpow_natCast]
  have hcoarse : coarse n = min (2048 * ((n + 1023 + n / 2048 % 2) / 2048)) (2 ^ 64 - 1) :=
    if_neg (by omega)
  have hrounds := rounds_coarse n
  have hleast : 2 ^ 52 ≤ (n + 1023 + n / 2048 % 2) / 2048 := by omega
  have hgreatest : (n + 1023 + n / 2048 % 2) / 2048 ≤ 2 ^ 53 := by omega
  rw [hcoarse]
  generalize (n + 1023 + n / 2048 % 2) / 2048 = r at hrounds hleast hgreatest ⊢
  by_cases hfits : r < 2 ^ 53
  · have canonical : Double.Canonical r (11 : ℕ) := ⟨by omega, hfits, by omega, .inl hleast⟩
    have near : Double.Near r (11 : ℕ) (n * 10 ^ (0 : ℤ) / 2 ^ ((11 : ℕ) : ℤ)) := by
      have h' : (2 : ℚ) ^ 63 ≤ n := by exact_mod_cast h
      rw [hvalue]
      refine hrounds.near _ fun hr => ?_
      rw [hr]
      push_cast
      linarith
    rw [toNat_countOf canonical (by decide) (Double.parts_nearest pos canonical (by decide) near),
      mul_comm r]
    rfl
  · -- the next double is the power of two above all counts
    have canonical : Double.Canonical (2 ^ 52) (12 : ℕ) :=
      ⟨by decide, by decide, by decide, .inl le_rfl⟩
    have near : Double.Near (2 ^ 52) (12 : ℕ) (n * 10 ^ (0 : ℤ) / 2 ^ ((12 : ℕ) : ℤ)) := by
      have hgap : Double.lowGap (2 ^ 52) (12 : ℕ) = 1 / 4 := if_pos ⟨rfl, by decide⟩
      have htop : (2 : ℚ) ^ 53 ≤ r := by exact_mod_cast not_lt.1 hfits
      have hlt' : (n : ℚ) < 2 ^ 64 := by exact_mod_cast hlt
      have hlow := hrounds.lower
      rw [hvalue]
      refine ⟨?_, ?_, fun _ => by decide⟩
      · rw [hgap]
        push_cast
        linarith
      · push_cast
        linarith
    rw [toNat_countOf canonical (by decide) (Double.parts_nearest pos canonical (by decide) near)]
    omega

end Agora.Decimal
