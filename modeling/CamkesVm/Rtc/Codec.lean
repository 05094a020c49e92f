import CamkesVm.Rtc.State

/-!
# Setting the clock to what it reads

The registers are written from the internal time by `rtc_copy_date` and read back into it by
`rtc_set_time`, in one of four formats.  `displayed` is what a guest reads off them.  Every field is
displayed as it is (`displayed_rtcCopyDate`) and read back as it was displayed, with one exception:
`rtc_set_time` takes one off the month, and `rtc_copy_date` does not add it.  So a guest that sets
the clock to what it reads moves it by a month, in every format and for every date
(`not_roundTrips`), while nothing else moves (`currentTm_rtcSetTime_rtcCopyDate`).

## What is here

* `rtcFromBcd_rtcToBcd`, `hourOfByte_hoursByte` — the bytes, in both encodings and both formats of
  the hour.
* `timeRegisters`, `displayed`, `TimeOfDay`, `DisplayedDate` — what a guest reads, and which
  internal times it can be shown.
* `displayed_rtcCopyDate`, `currentTm_rtcSetTime_rtcCopyDate` — there, and there and back, field by
  field.
* `RoundTrips`, `not_roundTrips` — the law, and that it holds of no date.

The four formats are the two bits of register B that select BCD and 12 hours. Nothing else of the
device matters here, so the results are about any state.
-/

set_option autoImplicit false

namespace CamkesVm
namespace Rtc

/-! ## Bytes -/

/-- **A byte in either encoding is read as the number it was written for.** -/
theorem rtcFromBcd_rtcToBcd (dm : Bool) {a : ℤ} (h0 : 0 ≤ a) (h : a < 100) :
    rtcFromBcd dm (rtcToBcd dm a) = a := by
  have hall : ∀ dm, ∀ n < 100, rtcFromBcd dm (rtcToBcd dm (n : ℕ)) = n := by decide
  obtain ⟨n, rfl⟩ := Int.eq_ofNat_of_zero_le h0
  exact hall dm n (by omega)

/-- The hour that the hours register says, whose top bit is the half of the day in 12-hour
format. -/
def hourOfByte (dm h24 : Bool) (b : BitVec 8) : ℤ :=
  if !h24 && b &&& 0x80 != 0 then rtcFromBcd dm (b &&& 0x7f) + 12 else rtcFromBcd dm (b &&& 0x7f)

/-- **The hours register is read as the hour it was written for**, in all four formats. -/
theorem hourOfByte_hoursByte (dm h24 : Bool) {hour : ℤ} (h0 : 0 ≤ hour) (h : hour < 24) :
    hourOfByte dm h24 (hoursByte dm h24 hour) = hour := by
  have hall : ∀ dm h24, ∀ n < 24, hourOfByte dm h24 (hoursByte dm h24 (n : ℕ)) = n := by decide
  obtain ⟨n, rfl⟩ := Int.eq_ofNat_of_zero_le h0
  exact hall dm h24 n (by omega)

/-- A byte for an hour in 12-hour format: a number, with the top bit set after noon. -/
def halfDayByte (dm pm : Bool) (y : ℤ) : BitVec 8 :=
  if pm then rtcToBcd dm y ||| 0x80 else rtcToBcd dm y

/-- A byte for a second or a minute. -/
def IsSexagesimal (dm : Bool) (b : BitVec 8) : Prop := ∃ y : ℕ, y < 60 ∧ b = rtcToBcd dm y

instance (dm : Bool) (b : BitVec 8) : Decidable (IsSexagesimal dm b) :=
  inferInstanceAs (Decidable (∃ y : ℕ, y < 60 ∧ b = rtcToBcd dm y))

/-- A byte for an hour.  In 12-hour format the number 0 is legal too, since it is how the device
shows the number 12. -/
def IsHour (dm h24 : Bool) (b : BitVec 8) : Prop :=
  if h24 then ∃ y : ℕ, y < 24 ∧ b = rtcToBcd dm y
  else ∃ pm, ∃ y : ℕ, y < 13 ∧ b = halfDayByte dm pm y

instance (dm : Bool) (b : BitVec 8) : (h24 : Bool) → Decidable (IsHour dm h24 b)
  | true => inferInstanceAs (Decidable (∃ y : ℕ, y < 24 ∧ b = rtcToBcd dm y))
  | false => inferInstanceAs (Decidable (∃ pm, ∃ y : ℕ, y < 13 ∧ b = halfDayByte dm pm y))

/-- In the 12-hour format the register without its top bit says less than 12. -/
theorem rtcFromBcd_and_range (dm h24 : Bool) {hour : ℤ} (h0 : 0 ≤ hour) (h : hour < 24) :
    0 ≤ rtcFromBcd dm (hoursByte dm h24 hour &&& 0x7f) ∧
      rtcFromBcd dm (hoursByte dm h24 hour &&& 0x7f) < 24 := by
  have hall : ∀ dm h24, ∀ n < 24, 0 ≤ rtcFromBcd dm (hoursByte dm h24 (n : ℕ) &&& 0x7f) ∧
      rtcFromBcd dm (hoursByte dm h24 (n : ℕ) &&& 0x7f) < 24 := by decide
  obtain ⟨n, rfl⟩ := Int.eq_ofNat_of_zero_le h0
  exact hall dm h24 n (by omega)

theorem yearOfCentury_range (T : FieldTypes) (year baseYear : ℤ) :
    0 ≤ yearOfCentury T year baseYear ∧ yearOfCentury T year baseYear < 100 := by
  have h1 := Int.tmod_lt_of_pos (T.yearMinus year baseYear) (show (0 : ℤ) < 100 by omega)
  have h2 := Int.lt_tmod_of_pos (T.yearMinus year baseYear) (show (0 : ℤ) < 100 by omega)
  rw [yearOfCentury]
  split <;> omega

/-- Counted from 1900, the year of the century is the year modulo 100. -/
theorem yearOfCentury_of_full {T : FieldTypes} {year : ℤ} (h : T.full year) :
    yearOfCentury T year 1900 = year % 100 := by
  have hm := Int.tmod_eq_emod (a := year - 1900) (b := 100)
  rw [yearOfCentury, T.yearMinus_of_full year h, hm]
  split <;> split <;> omega

/-! ## Registers -/

section

variable (T : FieldTypes) (s : RTCState)

@[simp] theorem emit_cmosData (e : Effect) : (s.emit e).cmosData = s.cmosData := rfl

@[simp] theorem setCmos_self (i : Fin 128) (v : BitVec 8) : (s.setCmos i v).cmosData i = v := by
  simp [RTCState.setCmos]

theorem setCmos_of_ne {i j : Fin 128} (h : j ≠ i) (v : BitVec 8) :
    (s.setCmos i v).cmosData j = s.cmosData j := by
  simp [RTCState.setCmos, h]

/-- The registers `rtc_copy_date` writes. -/
def timeRegisters : List (Fin 128) :=
  [rtcSeconds, rtcMinutes, rtcHours, rtcDayOfMonth, rtcMonth, rtcYear]

theorem rtcCopyDate_cmosData_of_notMem {i : Fin 128} (h : i ∉ timeRegisters) :
    (rtcCopyDate T s).cmosData i = s.cmosData i := by
  simp only [timeRegisters, List.mem_cons, List.not_mem_nil, or_false, not_or] at h
  obtain ⟨h0, h1, h2, h3, h4, h5⟩ := h
  rw [rtcCopyDate, setCmos_of_ne _ h5, setCmos_of_ne _ h4, setCmos_of_ne _ h3, setCmos_of_ne _ h2,
    setCmos_of_ne _ h1, setCmos_of_ne _ h0]

@[simp] theorem rtcCopyDate_baseYear : (rtcCopyDate T s).baseYear = s.baseYear := rfl

@[simp] theorem isBinary_rtcCopyDate : (rtcCopyDate T s).isBinary = s.isBinary := by
  rw [RTCState.isBinary, RTCState.anyBit, rtcCopyDate_cmosData_of_notMem T s (by decide)]
  rfl

@[simp] theorem is24h_rtcCopyDate : (rtcCopyDate T s).is24h = s.is24h := by
  rw [RTCState.is24h, RTCState.anyBit, rtcCopyDate_cmosData_of_notMem T s (by decide)]
  rfl

/-- What the time registers say, in the format register B selects. -/
def displayed : RtcTimeDate where
  second := rtcFromBcd s.isBinary (s.cmosData rtcSeconds)
  minute := rtcFromBcd s.isBinary (s.cmosData rtcMinutes)
  hour := hourOfByte s.isBinary s.is24h (s.cmosData rtcHours)
  day := rtcFromBcd s.isBinary (s.cmosData rtcDayOfMonth)
  month := rtcFromBcd s.isBinary (s.cmosData rtcMonth)
  year := rtcFromBcd s.isBinary (s.cmosData rtcYear)

theorem rtcCopyDate_cmosData :
    (rtcCopyDate T s).cmosData rtcSeconds = rtcToBcd s.isBinary s.currentTm.second ∧
    (rtcCopyDate T s).cmosData rtcMinutes = rtcToBcd s.isBinary s.currentTm.minute ∧
    (rtcCopyDate T s).cmosData rtcHours = hoursByte s.isBinary s.is24h s.currentTm.hour ∧
    (rtcCopyDate T s).cmosData rtcDayOfMonth = rtcToBcd s.isBinary s.currentTm.day ∧
    (rtcCopyDate T s).cmosData rtcMonth = rtcToBcd s.isBinary s.currentTm.month ∧
    (rtcCopyDate T s).cmosData rtcYear =
      rtcToBcd s.isBinary (yearOfCentury T s.currentTm.year s.baseYear) :=
  ⟨rfl, rfl, rfl, rfl, rfl, rfl⟩

end

/-! ## There and back -/

/-- A time of day. -/
structure TimeOfDay (tm : RtcTimeDate) : Prop where
  /-- The second is one of 60. -/
  second : 0 ≤ tm.second ∧ tm.second < 60
  /-- The minute is one of 60. -/
  minute : 0 ≤ tm.minute ∧ tm.minute < 60
  /-- The hour is one of 24. -/
  hour : 0 ≤ tm.hour ∧ tm.hour < 24

/-- A time two decimal digits can hold in every field, with an hour of the day. -/
structure Displayable (tm : RtcTimeDate) : Prop where
  /-- The second. -/
  second : 0 ≤ tm.second ∧ tm.second < 100
  /-- The minute. -/
  minute : 0 ≤ tm.minute ∧ tm.minute < 100
  /-- The hour. -/
  hour : 0 ≤ tm.hour ∧ tm.hour < 24
  /-- The day. -/
  day : 0 ≤ tm.day ∧ tm.day < 100
  /-- The month. -/
  month : 0 ≤ tm.month ∧ tm.month < 100

/-- **The registers say the internal time**, and of the year the last two digits. -/
theorem displayed_rtcCopyDate (T : FieldTypes) {s : RTCState} (h : Displayable s.currentTm) :
    displayed (rtcCopyDate T s) =
      { s.currentTm with year := yearOfCentury T s.currentTm.year s.baseYear } := by
  obtain ⟨hs, hmin, hh, hd, hm⟩ := h
  have hy := yearOfCentury_range T s.currentTm.year s.baseYear
  obtain ⟨e0, e1, e2, e3, e4, e5⟩ := rtcCopyDate_cmosData T s
  simp only [displayed, isBinary_rtcCopyDate, is24h_rtcCopyDate, e0, e1, e2, e3, e4, e5,
    rtcFromBcd_rtcToBcd _ hs.1 hs.2, rtcFromBcd_rtcToBcd _ hmin.1 hmin.2,
    rtcFromBcd_rtcToBcd _ hd.1 hd.2, rtcFromBcd_rtcToBcd _ hm.1 hm.2,
    rtcFromBcd_rtcToBcd _ hy.1 hy.2, hourOfByte_hoursByte _ _ hh.1 hh.2]

/-- The registers are read back one month early. -/
theorem month_rtcSetTime_rtcCopyDate (T : FieldTypes) {s : RTCState}
    (h : 1 ≤ s.currentTm.month ∧ s.currentTm.month < 100) :
    (rtcSetTime T (rtcCopyDate T s)).currentTm.month = s.currentTm.month - 1 := by
  obtain ⟨-, -, -, -, e4, -⟩ := rtcCopyDate_cmosData T s
  simp only [rtcSetTime, isBinary_rtcCopyDate, e4]
  rw [rtcFromBcd_rtcToBcd _ (by omega) h.2, T.field_of_small _ (by omega) (by omega)]

/-- The hour is set to the one the register says. -/
theorem hour_rtcSetTime (T : FieldTypes) {s : RTCState}
    (h : 0 ≤ rtcFromBcd s.isBinary (s.cmosData rtcHours &&& 0x7f) ∧
      rtcFromBcd s.isBinary (s.cmosData rtcHours &&& 0x7f) < 24) :
    (rtcSetTime T s).currentTm.hour =
      hourOfByte s.isBinary s.is24h (s.cmosData rtcHours) := by
  have hx := T.field_of_small _ h.1 (by omega)
  have hx12 := T.field_of_small (rtcFromBcd s.isBinary (s.cmosData rtcHours &&& 0x7f) + 12)
    (by omega) (by omega)
  simp only [rtcSetTime, hx, hx12]
  rfl

/-- **All that moves when the clock is set to what it reads** is the month, and the century. -/
theorem currentTm_rtcSetTime_rtcCopyDate {T : FieldTypes} {s : RTCState}
    (h : Displayable s.currentTm) (hmonth : 1 ≤ s.currentTm.month) (hbase : s.baseYear = 1900)
    (hyear : T.full s.currentTm.year) :
    (rtcSetTime T (rtcCopyDate T s)).currentTm =
      { s.currentTm with month := s.currentTm.month - 1, year := s.currentTm.year % 100 } := by
  have hm := month_rtcSetTime_rtcCopyDate T ⟨hmonth, h.month.2⟩
  obtain ⟨hs, hmin, hh, hd, -⟩ := h
  obtain ⟨e0, e1, e2, e3, -, e5⟩ := rtcCopyDate_cmosData T s
  have hsecond : (rtcSetTime T (rtcCopyDate T s)).currentTm.second = s.currentTm.second := by
    simp only [rtcSetTime, isBinary_rtcCopyDate, e0]
    rw [rtcFromBcd_rtcToBcd _ hs.1 hs.2, T.field_of_small _ hs.1 (by omega)]
  have hminute : (rtcSetTime T (rtcCopyDate T s)).currentTm.minute = s.currentTm.minute := by
    simp only [rtcSetTime, isBinary_rtcCopyDate, e1]
    rw [rtcFromBcd_rtcToBcd _ hmin.1 hmin.2, T.field_of_small _ hmin.1 (by omega)]
  have hhour : (rtcSetTime T (rtcCopyDate T s)).currentTm.hour = s.currentTm.hour := by
    rw [hour_rtcSetTime, isBinary_rtcCopyDate, is24h_rtcCopyDate, e2,
      hourOfByte_hoursByte _ _ hh.1 hh.2]
    rw [isBinary_rtcCopyDate, e2]
    exact rtcFromBcd_and_range _ _ hh.1 hh.2
  have hday : (rtcSetTime T (rtcCopyDate T s)).currentTm.day = s.currentTm.day := by
    simp only [rtcSetTime, isBinary_rtcCopyDate, e3]
    rw [rtcFromBcd_rtcToBcd _ hd.1 hd.2, T.field_of_small _ hd.1 (by omega)]
  have hyy : (rtcSetTime T (rtcCopyDate T s)).currentTm.year = s.currentTm.year % 100 := by
    have hr := yearOfCentury_range T s.currentTm.year s.baseYear
    simp only [rtcSetTime, isBinary_rtcCopyDate, e5, rtcCopyDate_baseYear]
    rw [rtcFromBcd_rtcToBcd _ hr.1 hr.2, hbase, yearOfCentury_of_full hyear,
      T.year_of_small _ (by omega) (by omega)]
    omega
  exact RtcTimeDate.ext hsecond hminute hhour hday hm hyy

/-- **The clock codec round trip**: setting the clock to what it reads changes neither the time, up
to the century, nor what it reads. -/
structure RoundTrips (T : FieldTypes) (s : RTCState) : Prop where
  /-- The second is the same. -/
  second : (rtcSetTime T (rtcCopyDate T s)).currentTm.second = s.currentTm.second
  /-- The minute is the same. -/
  minute : (rtcSetTime T (rtcCopyDate T s)).currentTm.minute = s.currentTm.minute
  /-- The hour is the same. -/
  hour : (rtcSetTime T (rtcCopyDate T s)).currentTm.hour = s.currentTm.hour
  /-- The day is the same. -/
  day : (rtcSetTime T (rtcCopyDate T s)).currentTm.day = s.currentTm.day
  /-- The month is the same. -/
  month : (rtcSetTime T (rtcCopyDate T s)).currentTm.month = s.currentTm.month
  /-- The year is the same modulo 100. -/
  year : (rtcSetTime T (rtcCopyDate T s)).currentTm.year % 100 = s.currentTm.year % 100
  /-- The registers are written as they were. -/
  registers : (rtcCopyDate T (rtcSetTime T (rtcCopyDate T s))).cmosData = (rtcCopyDate T s).cmosData

/-- A date-time in the representation `rtc_copy_date` displays. -/
structure DisplayedDate (tm : RtcTimeDate) : Prop where
  /-- The second is one of 60. -/
  second : 0 ≤ tm.second ∧ tm.second < 60
  /-- The minute is one of 60. -/
  minute : 0 ≤ tm.minute ∧ tm.minute < 60
  /-- The hour is one of 24. -/
  hour : 0 ≤ tm.hour ∧ tm.hour < 24
  /-- The day is at most 31. -/
  day : 1 ≤ tm.day ∧ tm.day ≤ 31
  /-- The month is one of twelve, from 1. -/
  month : 1 ≤ tm.month ∧ tm.month ≤ 12

/-- **No date survives the round trip**, in any of the formats. -/
theorem not_roundTrips (T : FieldTypes) {s : RTCState} (h : DisplayedDate s.currentTm) :
    ¬RoundTrips T s := by
  intro hr
  have hm := h.month
  have hback := month_rtcSetTime_rtcCopyDate T (s := s) ⟨hm.1, by omega⟩
  have hsame := hr.month
  omega

/-- The first of March 2024, at 13:05:09. -/
def exampleDate : RtcTimeDate :=
  { second := 9, minute := 5, hour := 13, day := 1, month := 3, year := 2024 }

/-- The theorem in the default format, for that date. -/
theorem not_roundTrips_default : ¬RoundTrips intFields (rtcPreInit intFields exampleDate 0) :=
  not_roundTrips intFields ⟨by decide, by decide, by decide, by decide, by decide⟩

/-- **Setting the clock to what it reads moves it to February**, on the first of March
2024. -/
theorem not_forall_roundTrips :
    ¬ ∀ T s, DisplayedDate s.currentTm → RoundTrips T s := by
  intro h
  have hm := (h intFields (rtcPreInit intFields exampleDate 0)
    ⟨by decide, by decide, by decide, by decide, by decide⟩).month
  exact absurd hm (by decide)

end Rtc
end CamkesVm
