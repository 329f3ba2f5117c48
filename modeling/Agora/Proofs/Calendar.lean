import Agora.Timestamp.Civil

/-!
Days and dates are two names for the same things: the date of a day exists and stands for that day.
The year of a day is found between two firsts of March, the month among months that are counted from
March, and the day of the month by what is left.
-/

namespace Agora.Date

/-- The year found for a day begins on or before it, and the next year begins after it. -/
theorem marchYear_spec (n : Int) :
    marchDays (marchYear n) ≤ n ∧ n < marchDays (marchYear n + 1) := by
  have hnear : marchDays (400 * n / 146097 - 1) ≤ n ∧ n < marchDays (400 * n / 146097 + 2) := by
    unfold marchDays; omega
  simp only [marchYear]
  split
  · rename_i hbefore
    exact ⟨hnear.1, by rwa [Int.sub_add_cancel]⟩
  · rename_i hbegun
    split
    · rename_i hnext
      exact ⟨hnext, by rw [Int.add_assoc]; exact hnear.2⟩
    · rename_i hover
      exact ⟨Int.not_lt.1 hbegun, Int.not_le.1 hover⟩

theorem marchDays_le {x y : Int} (h : x ≤ y) : marchDays x ≤ marchDays y := by
  rcases Int.lt_or_eq_of_le h with h | rfl
  · unfold marchDays; omega
  · exact Int.le_refl _

/-- A year is no longer than 366 days. -/
theorem marchDays_succ_le (y : Int) : marchDays (y + 1) ≤ marchDays y + 366 := by
  unfold marchDays; omega

/-- The months of a year, counted from March, and their days. -/
theorem month_spec {left : Nat} (h : left < 366) :
    (5 * left + 2) / 153 < 12 ∧ monthDays ((5 * left + 2) / 153) ≤ left ∧
      left < monthDays ((5 * left + 2) / 153) + 31 := by
  unfold monthDays; omega

/-- What the date of a day is made of: a year and a month of it that are both counted from March,
and a day of that month. -/
structure Reckoned (z : Int) (d : Date) (year : Int) (month left : Nat) : Prop where
  begun : monthDays month ≤ left
  day_lt : left < monthDays month + 31
  total : marchDays year + left = z + epochDays
  month_range : 1 ≤ d.month ∧ d.month ≤ 12
  month_eq : (d.month + 9) % 12 = month
  year_eq : d.year = if d.month ≤ 2 then year + 1 else year
  day_eq : d.day = left - monthDays month + 1

theorem exists_reckoned (z : Int) : ∃ year month left, Reckoned z (ofDay z) year month left := by
  obtain ⟨hlow, hhigh⟩ := marchYear_spec (z + epochDays)
  have hlong := marchDays_succ_le (marchYear (z + epochDays))
  generalize hyear : marchYear (z + epochDays) = year at hlow hhigh hlong
  have hlength : (z + epochDays - marchDays year).toNat < 366 := by omega
  generalize hleft : (z + epochDays - marchDays year).toNat = left at hlength
  obtain ⟨hmonth, hbegun, hday⟩ := month_spec hlength
  generalize hm : (5 * left + 2) / 153 = month at hmonth hbegun hday
  have hdate : ofDay z = ⟨if (if month < 10 then month + 3 else month - 9) ≤ 2 then year + 1
      else year, if month < 10 then month + 3 else month - 9, left - monthDays month + 1⟩ := by
    simp only [ofDay, hyear, hleft, hm]
  refine ⟨year, month, left, hbegun, hday, by omega, ?_, ?_, by rw [hdate], by rw [hdate]⟩
  all_goals
    rw [hdate]
    dsimp only
    split <;> omega

theorem toDay_ofDay (z : Int) : (ofDay z).toDay = z := by
  obtain ⟨year, month, left, h⟩ := exists_reckoned z
  have hyear : (if (ofDay z).month ≤ 2 then (ofDay z).year - 1 else (ofDay z).year) = year := by
    rw [h.year_eq]
    split <;> omega
  have hbegun := h.begun
  have htotal := h.total
  simp only [toDay, hyear, h.month_eq, h.day_eq]
  omega

/-- The date of a day exists. -/
theorem exists_ofDay (z : Int) : (ofDay z).Exists := by
  obtain ⟨year, month, left, h⟩ := exists_reckoned z
  exact ⟨h.month_range.1, h.month_range.2, by rw [h.day_eq]; omega, by rw [toDay_ofDay]⟩

theorem day_ofDay_le (z : Int) : (ofDay z).day ≤ 31 := by
  obtain ⟨year, month, left, h⟩ := exists_reckoned z
  have hday := h.day_lt
  have hbegun := h.begun
  rw [h.day_eq]
  omega

/-- The days of points in time lie in the years of points in time. -/
theorem year_ofDay {z : Int} (range : -96465292 ≤ z ∧ z ≤ 95026236) :
    -262143 ≤ (ofDay z).year ∧ (ofDay z).year ≤ 262142 := by
  obtain ⟨year, month, left, h⟩ := exists_reckoned z
  have hday := h.day_lt
  have hbegun := h.begun
  have htotal := h.total
  have hrange := h.month_range
  have hmonth := h.month_eq
  -- the firsts of March at either end of the range, and those a year beyond
  have hlast : 262142 ≤ year → 95745399 ≤ marchDays year := marchDays_le
  have hover : 262143 ≤ year → 95745764 ≤ marchDays year := marchDays_le
  have hfirst : year ≤ -262144 → marchDays year ≤ -95746130 := marchDays_le
  have hunder : year ≤ -262145 → marchDays year ≤ -95746496 := marchDays_le
  rw [h.year_eq]
  simp only [monthDays, epochDays] at hday hbegun htotal
  split <;> omega

end Agora.Date
