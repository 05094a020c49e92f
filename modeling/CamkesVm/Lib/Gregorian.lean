import Mathlib.Logic.Function.Iterate
import Mathlib.Algebra.BigOperators.Group.List.Basic
import Mathlib.Algebra.Ring.Int.Defs

/-!
# The Gregorian calendar, by the second

Date-times with months and days counted from 1, which of them exist (`DateTime.Valid`), and the one
that comes a second later (`DateTime.succ`).  `succ` is written with the carries a clock makes; that
it is the right carries is `toSeconds_succ`: numbering the seconds since the start of year 1 by the
usual count of days, the successor has the next number.  What is `n` seconds later is therefore
`succ^[n]`.

Years are proleptic and may be zero or negative.

## What is here

* `IsLeap`, `monthLength` — the 4/100/400 rule and the lengths of the months.
* `DateTime.succ`, `DateTime.nextDay` — the carries, from the second up to the year. A date that
  exists is followed by one that exists (`DateTime.Valid.succ`).
* `daysBeforeYear`, `daysBeforeMonth`, `DateTime.toSeconds` — the count of days, with which the
  carries are compared.
* `toSeconds_succ` and `toSeconds_iterate_succ` — one second later, and `n` seconds later.

The comparison is what makes the successor more than a definition: the count of days knows nothing
of carries, only how many leap years there are before a year.
-/

set_option autoImplicit false

namespace Gregorian

/-! ## Years and months -/

/-- A leap year: every fourth, but not every hundredth, but every four-hundredth. -/
def IsLeap (y : ℤ) : Prop := 4 ∣ y ∧ (¬100 ∣ y ∨ 400 ∣ y)

instance (y : ℤ) : Decidable (IsLeap y) := inferInstanceAs (Decidable (_ ∧ _))

/-- The number of days of month `m` of year `y`. -/
def monthLength (y m : ℤ) : ℤ :=
  if m = 2 then if IsLeap y then 29 else 28
  else if m = 4 ∨ m = 6 ∨ m = 9 ∨ m = 11 then 30
  else 31

theorem monthLength_pos (y m : ℤ) : 28 ≤ monthLength y m := by
  rw [monthLength]
  split
  · split <;> omega
  · split <;> omega

theorem monthLength_le (y m : ℤ) : monthLength y m ≤ 31 := by
  rw [monthLength]
  split
  · split <;> omega
  · split <;> omega

/-- The days of the years before `y`, counted from year 1. -/
def daysBeforeYear (y : ℤ) : ℤ := 365 * (y - 1) + (y - 1) / 4 - (y - 1) / 100 + (y - 1) / 400

/-- The days of the months before month `m` of year `y`. -/
def daysBeforeMonth (y m : ℤ) : ℤ :=
  ((List.range (m - 1).toNat).map fun j : ℕ ↦ monthLength y (j + 1)).sum

theorem daysBeforeYear_succ (y : ℤ) :
    daysBeforeYear (y + 1) = daysBeforeYear y + if IsLeap y then 366 else 365 := by
  by_cases h : IsLeap y
  · rw [if_pos h]
    simp only [daysBeforeYear, IsLeap] at h ⊢
    omega
  · rw [if_neg h]
    simp only [daysBeforeYear, IsLeap] at h ⊢
    omega

theorem daysBeforeMonth_succ (y : ℤ) {m : ℤ} (h : 1 ≤ m) :
    daysBeforeMonth y (m + 1) = daysBeforeMonth y m + monthLength y m := by
  obtain ⟨k, rfl⟩ : ∃ k : ℕ, m = k + 1 := ⟨(m - 1).toNat, by omega⟩
  have h1 : ((k : ℤ) + 1 + 1 - 1).toNat = k + 1 := by omega
  have h2 : ((k : ℤ) + 1 - 1).toNat = k := by omega
  rw [daysBeforeMonth, daysBeforeMonth, h1, h2, List.range_succ]
  simp

theorem daysBeforeMonth_one (y : ℤ) : daysBeforeMonth y 1 = 0 := rfl

/-- The twelve months make a year. -/
theorem daysBeforeMonth_thirteen (y : ℤ) :
    daysBeforeMonth y 13 = if IsLeap y then 366 else 365 := by
  by_cases h : IsLeap y
  · simp [daysBeforeMonth, List.range_succ, monthLength, h]
  · simp [daysBeforeMonth, List.range_succ, monthLength, h]

/-! ## Date-times -/

/-- A date and a time of day. -/
@[ext]
structure DateTime where
  /-- The second, from 0. -/
  second : ℤ
  /-- The minute, from 0. -/
  minute : ℤ
  /-- The hour, from 0. -/
  hour : ℤ
  /-- The day of the month, from 1. -/
  day : ℤ
  /-- The month, from 1. -/
  month : ℤ
  /-- The year. -/
  year : ℤ
  deriving DecidableEq

namespace DateTime

/-- The date-time exists. -/
structure Valid (d : DateTime) : Prop where
  /-- The second is one of 60. -/
  second : 0 ≤ d.second ∧ d.second < 60
  /-- The minute is one of 60. -/
  minute : 0 ≤ d.minute ∧ d.minute < 60
  /-- The hour is one of 24. -/
  hour : 0 ≤ d.hour ∧ d.hour < 24
  /-- The month has the day. -/
  day : 1 ≤ d.day ∧ d.day ≤ monthLength d.year d.month
  /-- The month is one of twelve. -/
  month : 1 ≤ d.month ∧ d.month ≤ 12

/-- The first second of the next day. -/
def nextDay (d : DateTime) : DateTime :=
  if d.day < monthLength d.year d.month then
    { second := 0, minute := 0, hour := 0, day := d.day + 1, month := d.month, year := d.year }
  else if d.month < 12 then
    { second := 0, minute := 0, hour := 0, day := 1, month := d.month + 1, year := d.year }
  else { second := 0, minute := 0, hour := 0, day := 1, month := 1, year := d.year + 1 }

/-- A day's last second. -/
def IsLastSecond (d : DateTime) : Prop := d.hour = 23 ∧ d.minute = 59 ∧ d.second = 59

instance (d : DateTime) : Decidable d.IsLastSecond := inferInstanceAs (Decidable (_ ∧ _ ∧ _))

/-- The date-time one second later. -/
def succ (d : DateTime) : DateTime :=
  if d.second < 59 then { d with second := d.second + 1 }
  else if d.minute < 59 then { d with second := 0, minute := d.minute + 1 }
  else if d.hour < 23 then { d with second := 0, minute := 0, hour := d.hour + 1 }
  else d.nextDay

/-- The seconds from the start of year 1. -/
def toSeconds (d : DateTime) : ℤ :=
  86400 * (daysBeforeYear d.year + daysBeforeMonth d.year d.month + (d.day - 1)) +
    3600 * d.hour + 60 * d.minute + d.second

theorem Valid.nextDay {d : DateTime} (h : d.Valid) : d.nextDay.Valid := by
  obtain ⟨-, -, -, hd, hm⟩ := h
  have hpos := monthLength_pos
  rw [DateTime.nextDay]
  split
  · exact ⟨by simp, by simp, by simp, by dsimp only; omega, hm⟩
  · split
    · exact ⟨by simp, by simp, by simp, by dsimp only; have := hpos d.year (d.month + 1); omega,
        by dsimp only; omega⟩
    · exact ⟨by simp, by simp, by simp, by dsimp only; have := hpos (d.year + 1) 1; omega,
        by simp⟩

/-- **The successor of a date-time that exists exists.** -/
theorem Valid.succ {d : DateTime} (h : d.Valid) : d.succ.Valid := by
  have hn := h.nextDay
  obtain ⟨hs, hmin, hh, hd, hm⟩ := h
  rw [DateTime.succ]
  split
  · exact ⟨by dsimp only; omega, hmin, hh, hd, hm⟩
  · split
    · exact ⟨by simp, by dsimp only; omega, hh, hd, hm⟩
    · split
      · exact ⟨by simp, by simp, by dsimp only; omega, hd, hm⟩
      · exact hn

theorem toSeconds_nextDay {d : DateTime} (h : d.Valid) (hlast : d.IsLastSecond) :
    d.nextDay.toSeconds = d.toSeconds + 1 := by
  obtain ⟨hh, hmin, hs⟩ := hlast
  have hd := h.day
  have hm := h.month
  rw [nextDay]
  split
  · simp only [toSeconds, hh, hmin, hs]
    omega
  · have hday : d.day = monthLength d.year d.month := by omega
    have hmonth := daysBeforeMonth_succ d.year hm.1
    split
    · simp only [toSeconds, hh, hmin, hs]
      omega
    · have hdec : d.month = 12 := by omega
      have hyear := daysBeforeYear_succ d.year
      have h13 := daysBeforeMonth_thirteen d.year
      have h1 := daysBeforeMonth_one (d.year + 1)
      rw [hdec] at hday hmonth
      rw [show (12 : ℤ) + 1 = 13 from rfl] at hmonth
      simp only [toSeconds, hh, hmin, hs, hdec]
      omega

/-- **The successor is one second later.** -/
theorem toSeconds_succ {d : DateTime} (h : d.Valid) : d.succ.toSeconds = d.toSeconds + 1 := by
  have hs := h.second
  have hmin := h.minute
  have hh := h.hour
  rw [succ]
  split
  · simp only [toSeconds]
    omega
  · split
    · simp only [toSeconds]
      omega
    · split
      · simp only [toSeconds]
        omega
      · exact toSeconds_nextDay h ⟨by omega, by omega, by omega⟩

theorem Valid.iterate_succ {d : DateTime} (h : d.Valid) (n : ℕ) :
    (DateTime.succ^[n] d).Valid := by
  induction n with
  | zero => exact h
  | succ n ih => rw [Function.iterate_succ_apply']; exact ih.succ

/-- **`n` successors are `n` seconds.** -/
theorem toSeconds_iterate_succ {d : DateTime} (h : d.Valid) (n : ℕ) :
    (succ^[n] d).toSeconds = d.toSeconds + n := by
  induction n with
  | zero => simp
  | succ n ih =>
    rw [Function.iterate_succ_apply', toSeconds_succ (h.iterate_succ n), ih]
    omega

/-- After a day's last second comes the next day. -/
theorem succ_of_isLastSecond {d : DateTime} (h : d.IsLastSecond) : d.succ = d.nextDay := by
  obtain ⟨hh, hmin, hs⟩ := h
  rw [succ, if_neg (by omega), if_neg (by omega), if_neg (by omega)]

/-- Except at the end of a day the date stays. -/
theorem succ_of_not_isLastSecond {d : DateTime} (h : d.Valid) (hlast : ¬d.IsLastSecond) :
    d.succ.day = d.day ∧ d.succ.month = d.month ∧ d.succ.year = d.year := by
  have hs := h.second
  have hmin := h.minute
  have hh := h.hour
  rw [succ]
  split
  · exact ⟨rfl, rfl, rfl⟩
  · split
    · exact ⟨rfl, rfl, rfl⟩
    · split
      · exact ⟨rfl, rfl, rfl⟩
      · exact absurd ⟨by omega, by omega, by omega⟩ hlast

end DateTime

end Gregorian
