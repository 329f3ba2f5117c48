import Agora.Proofs.Calendar
import Agora.Proofs.Digits
import Agora.Timestamp.Text

/-!
The text of a point in time reads back as the point. Each part is written as a run of digits that
ends where the part does, either by its width or at a sign that is no digit; so each reader takes
what its writer has put there and leaves the rest.
-/

namespace Agora.Timestamp

open Agora.Text Agora.Decimal

variable {α β : Type}

/-! ### Steps that succeed -/

theorem ok_bind (a : α) (f : α → Except ReadError β) : (Except.ok a >>= f) = f a := by
  unfold bind; rfl

theorem map_ok (f : α → β) (a : α) : (Except.ok a : Except ReadError α).map f = .ok (f a) := rfl

/-! ### Numbers -/

theorem not_isWhite_of_isDigit {c : Char} (h : isDigit c = true) : isWhite c = false := by
  have hrange : '0'.toNat ≤ c.toNat ∧ c.toNat ≤ '9'.toNat := by
    simpa [isDigit, Char.le_def, UInt32.le_iff_toNat_le] using h
  have hlow : 48 ≤ c.toNat := hrange.1
  have hhigh : c.toNat ≤ 57 := hrange.2
  simp [isWhite, within, whiteRanges]
  omega

theorem trimStart_of_head {c : Char} (cs : List Char) (h : isWhite c = false) :
    trimStart (c :: cs) = c :: cs :=
  List.dropWhile_cons_of_neg (by simp [h])

/-- White space is looked for before a number, and there is none. -/
theorem trimStart_of_digits {ds : List Char} (rest : List Char) (nonempty : ds ≠ [])
    (digits : ∀ d ∈ ds, isDigit d = true) : trimStart (ds ++ rest) = ds ++ rest := by
  cases ds with
  | nil => exact absurd rfl nonempty
  | cons d ds => exact trimStart_of_head _ (not_isWhite_of_isDigit (digits d List.mem_cons_self))

/-- The digits that a number takes, of at most `width` of them when a width is given. -/
def taken (width : Option Nat) (cs : List Char) : List Char :=
  match width with
  | some w => (cs.take w).takeWhile isDigit
  | none => cs.takeWhile isDigit

theorem taken_digits {width : Option Nat} {ds rest : List Char}
    (digits : ∀ d ∈ ds, isDigit d = true)
    (ends : width = some ds.length ∨ Halts rest ∧ ∀ w ∈ width, ds.length ≤ w) :
    taken width (ds ++ rest) = ds := by
  rcases ends with rfl | ⟨halts, hwidth⟩
  · rw [taken, List.take_left]
    have hall : (ds ++ []).takeWhile isDigit = ds := takeWhile_digits digits fun c hc => nomatch hc
    rwa [List.append_nil] at hall
  · cases width with
    | none => exact takeWhile_digits digits halts
    | some w =>
      have htake : (ds ++ rest).take w = ds ++ rest.take (w - ds.length) := by
        rw [List.take_append, List.take_of_length_le (hwidth w rfl)]
      have hhalts : Halts (rest.take (w - ds.length)) := by
        intro c hc
        rw [List.head?_take] at hc
        split at hc
        · exact nomatch hc
        · exact halts c hc
      rw [taken, htake, takeWhile_digits digits hhalts]

theorem number_of_taken {width : Option Nat} {cs ds : List Char} (htaken : taken width cs = ds)
    (nonempty : ds ≠ []) (fits : ofDigits ds < 0x8000000000000000) :
    number width cs = .ok (ofDigits ds, cs.drop ds.length) := by
  subst htaken
  cases cs with
  | nil => cases width <;> simp [taken] at nonempty
  | cons c cs =>
    have hsome : ¬ (taken width (c :: cs)).isEmpty = true := by simpa using nonempty
    have hfits := Nat.not_le.2 fits
    cases width <;> exact (if_neg hsome).trans (if_neg hfits)

/-- A run of digits is read as a number if the width ends it, or what comes next. -/
theorem number_digits {width : Option Nat} {ds rest : List Char} (nonempty : ds ≠ [])
    (digits : ∀ d ∈ ds, isDigit d = true) (fits : ofDigits ds < 0x8000000000000000)
    (ends : width = some ds.length ∨ Halts rest ∧ ∀ w ∈ width, ds.length ≤ w) :
    number width (ds ++ rest) = .ok (ofDigits ds, rest) := by
  rw [number_of_taken (taken_digits digits ends) nonempty fits, List.drop_left]

/-- A field of two places between two bounds. -/
theorem field_places {low high n : Nat} (rest : List Char) (range : low ≤ n ∧ n ≤ high)
    (fits : n < 100) : field low high (places 2 n ++ rest) = .ok (n, rest) := by
  have hdigits := isDigit_of_mem_places 2 n
  have hvalue : ofDigits (places 2 n) = n := ofDigits_places fits
  have hnonempty : places 2 n ≠ [] := by simp [places]
  have hnumber : number (some 2) (places 2 n ++ rest) = .ok (n, rest) := by
    rw [number_digits hnonempty hdigits (by omega) (.inl (by rw [length_places])), hvalue]
  rw [field, trimStart_of_digits rest hnonempty hdigits, hnumber]
  exact if_pos range

theorem literal_cons (c : Char) (rest : List Char) : literal c (c :: rest) = .ok ((), rest) :=
  if_pos rfl

/-! ### Dates -/

/-- A year without a sign. -/
theorem year_digits {ds rest : List Char} (nonempty : ds ≠ [])
    (digits : ∀ d ∈ ds, isDigit d = true) (width : ds.length = 4)
    (fits : ofDigits ds < 0x80000000) :
    year (ds ++ rest) = .ok ((ofDigits ds : Int), rest) := by
  have hnumber : number (some 4) (ds ++ rest) = .ok (ofDigits ds, rest) :=
    number_digits nonempty digits (by omega) (.inl (by rw [width]))
  have hsign (c : Char) (cs : List Char) (h : ds ++ rest = c :: cs) : isDigit c = true := by
    obtain ⟨d, ds, rfl⟩ := List.exists_cons_of_ne_nil nonempty
    rw [List.cons_append, List.cons.injEq] at h
    exact h.1 ▸ digits d List.mem_cons_self
  rw [year, trimStart_of_digits rest nonempty digits]
  split
  · rename_i cs h
    exact absurd (hsign _ _ h) (by decide)
  · rename_i cs h
    exact absurd (hsign _ _ h) (by decide)
  · have hrange : -0x80000000 ≤ (ofDigits ds : Int) ∧ (ofDigits ds : Int) < 0x80000000 := by omega
    simp only [hnumber, map_ok, ok_bind]
    rw [if_pos hrange]

theorem year_minus {n : Nat} {ds rest : List Char} (h : number none ds = .ok (n, rest))
    (fits : n ≤ 0x80000000) : year ('-' :: ds) = .ok (-(n : Int), rest) := by
  have hrange : -0x80000000 ≤ -(n : Int) ∧ -(n : Int) < 0x80000000 := by omega
  rw [year, trimStart_of_head _ (by decide)]
  simp only [h, map_ok, ok_bind]
  rw [if_pos hrange]

theorem year_plus {n : Nat} {ds rest : List Char} (h : number none ds = .ok (n, rest))
    (fits : n < 0x80000000) : year ('+' :: ds) = .ok ((n : Int), rest) := by
  have hrange : -0x80000000 ≤ (n : Int) ∧ (n : Int) < 0x80000000 := by omega
  rw [year, trimStart_of_head _ (by decide)]
  simp only [h, map_ok, ok_bind]
  rw [if_pos hrange]

theorem year_yearText {y : Int} (range : -262143 ≤ y ∧ y ≤ 262142) (rest : List Char) :
    year (yearText y ++ '-' :: rest) = .ok (y, '-' :: rest) := by
  have hhalts : Halts ('-' :: rest) := halts_cons (by decide) rest
  rw [yearText]
  split
  · rename_i hplain
    have hlength : (padded 4 y.toNat).length = 4 := length_padded (by decide) (by simp; omega)
    rw [year_digits (padded_ne_nil 4 _) (isDigit_of_mem_padded 4 _) hlength
      (by rw [ofDigits_padded]; omega), ofDigits_padded, Int.toNat_of_nonneg hplain.1]
  · have hnumber : number none (padded 4 y.natAbs ++ '-' :: rest) =
        .ok (y.natAbs, '-' :: rest) := by
      rw [number_digits (padded_ne_nil 4 _) (isDigit_of_mem_padded 4 _)
        (by rw [ofDigits_padded]; omega) (.inr ⟨hhalts, fun _ h => by cases h⟩), ofDigits_padded]
    split
    · rw [List.cons_append, year_minus hnumber (by omega)]
      have hy : -(y.natAbs : Int) = y := by omega
      rw [hy]
    · rw [List.cons_append, year_plus hnumber (by omega)]
      have hy : (y.natAbs : Int) = y := by omega
      rw [hy]

theorem date_ofDay {z : Int} (range : -96465292 ≤ z ∧ z ≤ 95026236) (rest : List Char) :
    date (yearText (Date.ofDay z).year ++ '-' :: (places 2 (Date.ofDay z).month ++
      '-' :: (places 2 (Date.ofDay z).day ++ rest))) = .ok (Date.ofDay z, rest) := by
  have hexists := Date.exists_ofDay z
  have hday := Date.day_ofDay_le z
  have hdash (cs : List Char) : trimStart ('-' :: cs) = '-' :: cs :=
    trimStart_of_head cs (by decide)
  rw [date, year_yearText (Date.year_ofDay range), ok_bind]
  dsimp only
  rw [hdash, literal_cons, ok_bind]
  dsimp only
  rw [field_places _ ⟨hexists.1, hexists.2.1⟩ (by have := hexists.2.1; omega), ok_bind]
  dsimp only
  rw [hdash, literal_cons, ok_bind]
  dsimp only
  rw [field_places _ ⟨hexists.2.2.1, hday⟩ (by omega), ok_bind]

/-! ### Times of day -/

theorem fraction_places {k n : Nat} {rest : List Char} (width : 0 < k ∧ k ≤ 9)
    (fits : n < Nat.pow 10 k) (halts : Halts rest) :
    fraction ('.' :: (places k n ++ rest)) = .ok (n * Nat.pow 10 (9 - k), rest) := by
  have hlength := length_places k n
  have hvalue : ofDigits (places k n) = n := ofDigits_places fits
  have hnonempty : places k n ≠ [] := List.ne_nil_of_length_pos (by omega)
  have hbound : Nat.pow 10 k ≤ Nat.pow 10 9 := Nat.pow_le_pow_right (by decide) width.2
  have hnine : Nat.pow 10 9 = 1000000000 := by decide
  have hnumber : number (some 9) (places k n ++ rest) = .ok (n, rest) := by
    rw [number_digits hnonempty (isDigit_of_mem_places k n) (by omega)
      (.inr ⟨halts, fun w hw => by cases hw; omega⟩), hvalue]
  rw [fraction, hnumber, ok_bind]
  dsimp only
  rw [dropWhile_of_halts halts, List.length_append, Nat.add_sub_cancel, hlength]

/-- The digits of a fraction are as many as are needed, and the ones left out are zeros. -/
theorem fraction_fractionText {nano : Nat} {rest : List Char} (fits : nano < 1000000000)
    (halts : Halts rest) (pointless : ∀ cs, rest ≠ '.' :: cs) :
    fraction (fractionText nano ++ rest) = .ok (nano, rest) := by
  unfold fractionText
  split
  · rename_i hzero
    rw [hzero, List.nil_append, fraction]
    exact pointless
  split
  · rw [List.cons_append, fraction_places (by decide) (by simp; omega) halts]
    simp; omega
  split
  · rw [List.cons_append, fraction_places (by decide) (by simp; omega) halts]
    simp; omega
  · rw [List.cons_append, fraction_places (by decide) (by simpa using fits) halts]
    simp

theorem timeOfDay_write (t : Timestamp) :
    timeOfDay (places 2 (t.second / 3600) ++ ':' :: (places 2 (t.second / 60 % 60) ++
      ':' :: (places 2 (t.second % 60 + t.nano / 1000000000) ++
        (fractionText (t.nano % 1000000000) ++ ['Z'])))) = .ok ((t.second, t.nano), ['Z']) := by
  have hsecond := t.second_lt
  have hnano := t.nano_lt
  have hcolon (cs : List Char) : trimStart (':' :: cs) = ':' :: cs :=
    trimStart_of_head cs (by decide)
  have hz : trimStart ['Z'] = ['Z'] := trimStart_of_head [] (by decide)
  rw [timeOfDay, field_places _ (by omega) (by omega), ok_bind]
  dsimp only
  rw [hcolon, literal_cons, ok_bind]
  dsimp only
  rw [field_places _ (by omega) (by omega), ok_bind]
  dsimp only
  rw [hcolon, literal_cons, ok_bind]
  dsimp only
  rw [field_places _ (by omega) (by omega), ok_bind]
  dsimp only
  rw [fraction_fractionText (by omega) (halts_cons (by decide) []) (by simp), ok_bind]
  dsimp only
  rw [hz]
  congr 3
  · split <;> omega
  · split <;> omega

/-! ### Points in time -/

theorem assemble_ofDay (t : Timestamp) :
    assemble (Date.ofDay t.day) t.second t.nano 0 = .ok t := by
  have hyear := Date.year_ofDay t.day_range
  have hdate : ¬ (¬ (Date.ofDay t.day).Exists ∨ (Date.ofDay t.day).year < -262143 ∨
      262142 < (Date.ofDay t.day).year) := by
    have hexists := Date.exists_ofDay t.day
    simp only [hexists, not_true, false_or]
    omega
  have hsecond := t.second_lt
  have hday : (Date.ofDay t.day).toDay + ((t.second : Int) - 0) / 86400 = t.day := by
    rw [Date.toDay_ofDay]; omega
  have hleft : (((t.second : Int) - 0) % 86400).toNat = t.second := by omega
  have hparts : ofParts? t.day t.second t.nano = some t :=
    dif_pos ⟨t.day_range, t.second_lt, t.nano_lt⟩
  rw [assemble, if_neg hdate, if_neg (by decide)]
  simp only [hday, hleft, hparts]

/-- The text of a point in time reads back as the point. -/
theorem read_write (t : Timestamp) : read t.write = .ok t := by
  have htext : t.write = yearText (Date.ofDay t.day).year ++ '-' ::
      (places 2 (Date.ofDay t.day).month ++ '-' :: (places 2 (Date.ofDay t.day).day ++
        ('T' :: (places 2 (t.second / 3600) ++ ':' :: (places 2 (t.second / 60 % 60) ++
          ':' :: (places 2 (t.second % 60 + t.nano / 1000000000) ++
            (fractionText (t.nano % 1000000000) ++ ['Z']))))))) := by
    simp [write]
  have hoffset : offset ['Z'] = .ok (0, []) := by decide
  rw [htext, read, date_ofDay t.day_range, ok_bind]
  dsimp only
  rw [separator, if_pos (by decide), ok_bind]
  dsimp only
  rw [timeOfDay_write, ok_bind]
  dsimp only
  rw [hoffset, ok_bind]
  exact assemble_ofDay t

end Agora.Timestamp
