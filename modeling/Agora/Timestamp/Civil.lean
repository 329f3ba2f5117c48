/-!
Days and calendar dates. Days are counted from 1970-01-01; a date is a year, a month and a day of
the proleptic Gregorian calendar. Years are reckoned from March here, so that the leap day is the
last day of its year and the lengths of the months before it never change.
-/

namespace Agora

/-- A calendar date. -/
structure Date where
  year : Int
  month : Nat
  day : Nat
  deriving DecidableEq, Repr

namespace Date

/-- The days from 0000-03-01 to the first of March of a year. -/
def marchDays (y : Int) : Int := 365 * y + y / 4 - y / 100 + y / 400

/-- The days from the first of March to the first of a month, months counted from March. -/
def monthDays (m : Nat) : Nat := (153 * m + 2) / 5

/-- The days from 0000-03-01 to 1970-01-01. -/
def epochDays : Int := 719468

/-- The day a date stands for. -/
def toDay (d : Date) : Int :=
  let y := if d.month ≤ 2 then d.year - 1 else d.year
  marchDays y + (monthDays ((d.month + 9) % 12) + d.day : Int) - 1 - epochDays

/-- The year, reckoned from March, that holds a day counted from 0000-03-01. The mean length of a
year gives it up to one, and the first of March on either side decides. -/
def marchYear (n : Int) : Int :=
  let y := 400 * n / 146097
  if n < marchDays y then y - 1
  else if marchDays (y + 1) ≤ n then y + 1
  else y

/-- The date of a day. -/
def ofDay (z : Int) : Date :=
  let n := z + epochDays
  let y := marchYear n
  let left := (n - marchDays y).toNat
  let m := (5 * left + 2) / 153
  let month := if m < 10 then m + 3 else m - 9
  ⟨if month ≤ 2 then y + 1 else y, month, left - monthDays m + 1⟩

/-- Whether a date is on the calendar. -/
def Exists (d : Date) : Prop := 1 ≤ d.month ∧ d.month ≤ 12 ∧ 1 ≤ d.day ∧ ofDay d.toDay = d

instance (d : Date) : Decidable d.Exists := by unfold Exists; infer_instance

end Date

end Agora
