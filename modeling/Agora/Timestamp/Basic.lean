import Agora.Timestamp.Civil

/-!
Points in time, in UTC. A point in time is a day, a second of the day and nanoseconds. A leap
second is the last second of its minute with a billion nanoseconds more. Points are ordered by day,
by second and by nanosecond, which is their order on a line of nanoseconds on which every second has
room for its leap second.
-/

namespace Agora

/-- A point in time between the years -262143 and 262142. -/
structure Timestamp where
  day : Int
  second : Nat
  nano : Nat
  day_range : -96465292 ≤ day ∧ day ≤ 95026236
  second_lt : second < 86400
  nano_lt : nano < 1000000000 ∨ (nano < 2000000000 ∧ second % 60 = 59)
  deriving DecidableEq

namespace Timestamp

/-- The point in time with the given parts, if they are in range. -/
def ofParts? (day : Int) (second nano : Nat) : Option Timestamp :=
  if h : (-96465292 ≤ day ∧ day ≤ 95026236) ∧ second < 86400 ∧
      (nano < 1000000000 ∨ (nano < 2000000000 ∧ second % 60 = 59)) then
    some ⟨day, second, nano, h.1, h.2.1, h.2.2⟩
  else none

/-- The beginning of 1970. -/
def epoch : Timestamp := ⟨0, 0, 0, by decide, by decide, by decide⟩

instance : Inhabited Timestamp := ⟨epoch⟩

/-- The place of a point on the line of nanoseconds; every second has room for two. -/
def key (t : Timestamp) : Int := (t.day * 86400 + t.second) * 2000000000 + t.nano

/-- One point comes before another: on an earlier day, or on the same day in an earlier second, or
in the same second at an earlier nanosecond. -/
def Earlier (s t : Timestamp) : Prop :=
  s.day < t.day ∨ s.day = t.day ∧ (s.second < t.second ∨ s.second = t.second ∧ s.nano < t.nano)

instance (s t : Timestamp) : Decidable (s.Earlier t) :=
  inferInstanceAs (Decidable (_ ∨ _ ∧ (_ ∨ _ ∧ _)))

/-- The nanoseconds from `s` to `t`. A leap second that lies between the two counts. -/
def nanosSince (t s : Timestamp) : Int :=
  let seconds : Int := t.second - s.second
  let leap : Int :=
    if s.second < t.second ∧ 1000000000 ≤ s.nano then 1
    else if t.second < s.second ∧ 1000000000 ≤ t.nano then -1
    else 0
  ((t.day - s.day) * 86400 + seconds + leap) * 1000000000 + (t.nano - s.nano)

/-- The whole milliseconds from `s` to `t`, rounded towards zero. -/
def millisSince (t s : Timestamp) : Int := (t.nanosSince s).tdiv 1000000

/-- The point a number of milliseconds later, if it is in range. A leap second that is left counts
as an ordinary second. -/
def addMillis? (t : Timestamp) (ms : Int) : Option Timestamp :=
  let seconds := ms.tdiv 1000
  let nanos := ms.tmod 1000 * 1000000
  let stays := seconds = 0 ∧ (t.nano : Int) + nanos < 2000000000
  if 1000000000 ≤ t.nano ∧ stays then ofParts? t.day t.second (t.nano + nanos).toNat
  else
    -- outside a leap second the line of ordinary nanoseconds is enough
    let start : Int :=
      if t.nano < 1000000000 then t.second * 1000000000 + t.nano
      else if seconds < 0 then (t.second + 1) * 1000000000 + (t.nano - 1000000000)
      else t.second * 1000000000 + (t.nano - 1000000000)
    let total := start + seconds * 1000000000 + nanos
    let left := total % 86400000000000
    ofParts? (t.day + total / 86400000000000) (left / 1000000000).toNat
      (left % 1000000000).toNat

theorem key_inj {s t : Timestamp} (h : s.key = t.key) : s = t := by
  obtain ⟨d, a, n, _, ha, hn⟩ := s
  obtain ⟨d', a', n', _, ha', hn'⟩ := t
  simp only [key] at h
  have : d = d' ∧ a = a' ∧ n = n' := by omega
  simp [this]

theorem key_lt_iff {s t : Timestamp} : s.key < t.key ↔ s.Earlier t := by
  have hs := s.second_lt
  have ht := t.second_lt
  have hs' := s.nano_lt
  have ht' := t.nano_lt
  simp only [key, Earlier]
  omega

theorem key_eq_iff {s t : Timestamp} : s.key = t.key ↔ s = t :=
  ⟨key_inj, congrArg key⟩

end Timestamp

end Agora
