import CamkesVm.Lib.Gregorian
import CamkesVm.Rtc.Cycle

/-!
# The clock against the calendar

Each update cycle advances the internal time by `rtc_next_second` and writes it to the registers.
The carries up to the hour are those of a clock.  The one into the month goes by a table that counts
months from 0, and a year that is given 1900 more, while the time that is carried has its months
from 1 and its year in full.  So the length of the next month is looked up, and a month that
follows November is taken for the first of the next year.

`CarriesRight` says at which midnights this makes no difference, in terms of the length that is
looked up; `carriesRight_iff_dates` lists the days at whose end it does make one.  They are the 30th
of most months, which is either not the last day and taken for it or the last day and not taken for
it, the end of January and of February, and the last day of December.

* `toDateTime_rtcNextSecond_iff` — one execution of `rtc_next_second` is right exactly there.
* `updateCycle_spec` — what an update cycle does to the internal time and to the registers.
* `Keeps` — the invariant: the internal time is a date that exists, and the registers show it.
* `clock_follows_calendar_iff` — the displayed clock is right as long as only midnights that carry
  right have passed.

The types of the date fields are a parameter (`FieldTypes`); of the year, all that is used is that
it is one its field counts with.
-/

set_option autoImplicit false

namespace CamkesVm
namespace Rtc

open Gregorian (DateTime monthLength)

/-! ## The carries -/

/-- The date-time an internal time stands for, its months counted from 1. -/
def RtcTimeDate.toDateTime (tm : RtcTimeDate) : DateTime where
  second := tm.second
  minute := tm.minute
  hour := tm.hour
  day := tm.day
  month := tm.month
  year := tm.year

/-- The length `rtc_next_second` takes the month of `d` to have. -/
def lookedUpLength (d : DateTime) : ℤ := getDaysInMonth d.month (d.year + 1900)

/-- At the end of a day: the day is not the last of its month, and is not taken for it; or it is,
and is taken for it, and the month is not December. -/
def CarriesRight (d : DateTime) : Prop :=
  d.IsLastSecond →
    (d.day < monthLength d.year d.month ∧ d.day < lookedUpLength d) ∨
    (d.day = monthLength d.year d.month ∧ lookedUpLength d ≤ d.day ∧ d.month ≠ 12)

instance (d : DateTime) : Decidable (CarriesRight d) := inferInstanceAs (Decidable (_ → _))

/-- **The length looked up is that of the next month**, in the year 1900 years later; that of
December is 31. -/
theorem lookedUpLength_eq {d : DateTime} (h : 1 ≤ d.month ∧ d.month ≤ 12) :
    lookedUpLength d = monthLength (d.year + 1900) (d.month + 1) := by
  have hleap : ((d.year + 1900).tmod 4 = 0 ∧
      ((d.year + 1900).tmod 100 ≠ 0 ∨ (d.year + 1900).tmod 400 = 0)) ↔
      Gregorian.IsLeap (d.year + 1900) := by
    rw [Gregorian.IsLeap, Int.dvd_iff_tmod_eq_zero, Int.dvd_iff_tmod_eq_zero,
      Int.dvd_iff_tmod_eq_zero]
  simp only [lookedUpLength, getDaysInMonth, hleap]
  generalize d.month = m at h ⊢
  obtain rfl | rfl | rfl | rfl | rfl | rfl | rfl | rfl | rfl | rfl | rfl | rfl : m = 1 ∨ m = 2 ∨
    m = 3 ∨ m = 4 ∨ m = 5 ∨ m = 6 ∨ m = 7 ∨ m = 8 ∨ m = 9 ∨ m = 10 ∨ m = 11 ∨ m = 12 := by omega
  all_goals simp [monthLength, daysTab]

/-- The days whose end is carried wrong: the 30th, but of July and December; the last days of
January, from the day on that is the last of February 1900 years later; the last of February; and
the last of December. -/
def EndsWrong (d : DateTime) : Prop :=
  (d.day = 30 ∧ d.month ≠ 7 ∧ d.month ≠ 12) ∨
  (d.month = 1 ∧ monthLength (d.year + 1900) 2 ≤ d.day ∧ d.day < 31) ∨
  (d.month = 2 ∧ d.day = monthLength d.year 2) ∨
  (d.month = 12 ∧ d.day = 31)

/-- **Which midnights carry right**, by their dates. -/
theorem carriesRight_iff_dates {d : DateTime} (h : d.Valid) :
    CarriesRight d ↔ (d.IsLastSecond → ¬EndsWrong d) := by
  have hm := h.month
  have hday := h.day
  have hleap := Gregorian.monthLength_pos (d.year + 1900) 2
  refine imp_congr_right fun _ ↦ ?_
  rw [lookedUpLength_eq hm, EndsWrong]
  generalize d.day = day at hday ⊢
  generalize d.month = m at hm hday ⊢
  obtain rfl | rfl | rfl | rfl | rfl | rfl | rfl | rfl | rfl | rfl | rfl | rfl : m = 1 ∨ m = 2 ∨
    m = 3 ∨ m = 4 ∨ m = 5 ∨ m = 6 ∨ m = 7 ∨ m = 8 ∨ m = 9 ∨ m = 10 ∨ m = 11 ∨ m = 12 := by omega
  all_goals simp [monthLength] at hday hleap ⊢
  all_goals omega

/-- The looked-up length of November is December's. -/
theorem lookedUpLength_november {d : DateTime} (h : d.month = 11) : lookedUpLength d = 31 := by
  rw [lookedUpLength_eq (by omega), h]
  rfl

section

variable {T : FieldTypes} {tm : RtcTimeDate}

/-- **The carries of a clock**: what `rtc_next_second` does to a time of day. -/
theorem rtcNextSecond_eq (h : TimeOfDay tm) :
    rtcNextSecond T tm =
      if tm.second < 59 then { tm with second := tm.second + 1 }
      else if tm.minute < 59 then { tm with second := 0, minute := tm.minute + 1 }
      else if tm.hour < 23 then { tm with second := 0, minute := 0, hour := tm.hour + 1 }
      else rtcNextDay T { tm with second := 0, minute := 0, hour := 0 } := by
  obtain ⟨hs, hmin, hh⟩ := h
  simp only [rtcNextSecond, T.field_of_small (tm.second + 1) (by omega) (by omega),
    T.field_of_small (tm.minute + 1) (by omega) (by omega),
    T.field_of_small (tm.hour + 1) (by omega) (by omega), unsignedGe]
  by_cases h1 : tm.second < 59
  · rw [if_pos h1, if_neg (by omega)]
  · rw [if_neg h1, if_pos (by omega)]
    by_cases h2 : tm.minute < 59
    · rw [if_pos h2, if_neg (by omega)]
    · rw [if_neg h2, if_pos (by omega)]
      by_cases h3 : tm.hour < 23
      · rw [if_pos h3, if_neg (by omega)]
      · rw [if_neg h3, if_pos (by omega)]

/-- What `rtc_next_second` does to a date that exists, at the end of its day. -/
theorem rtcNextDay_eq (tm : RtcTimeDate) (hd : 1 ≤ tm.day ∧ tm.day ≤ 31)
    (hm : 1 ≤ tm.month ∧ tm.month ≤ 12)
    (hy : T.full tm.year) :
    rtcNextDay T tm =
      if tm.day < lookedUpLength tm.toDateTime then { tm with day := tm.day + 1 }
      else if tm.month < 11 then { tm with day := 1, month := tm.month + 1 }
      else { tm with day := 1, month := 0, year := T.year (tm.year + 1) } := by
  have hday := T.field_of_small (tm.day + 1) (by omega) (by omega)
  have hmonth := T.field_of_small (tm.month + 1) (by omega) (by omega)
  have hlen : getDaysInMonth tm.month (T.yearPlus tm.year 1900) = lookedUpLength tm.toDateTime := by
    rw [T.yearPlus_of_full _ hy]
    rfl
  simp only [rtcNextDay, hday, hmonth, hlen]
  rw [if_neg (by omega)]
  by_cases h1 : tm.day < lookedUpLength tm.toDateTime
  · rw [if_pos h1, if_neg (by omega)]
  · rw [if_neg h1, if_pos (by omega)]
    by_cases h2 : tm.month < 11
    · rw [if_pos h2, if_neg (by omega)]
    · rw [if_neg h2, if_pos (by omega)]

/-- Within a day the next second is the calendar's. -/
theorem toDateTime_rtcNextSecond_of_not_last (h : tm.toDateTime.Valid)
    (hlast : ¬tm.toDateTime.IsLastSecond) :
    (rtcNextSecond T tm).toDateTime = tm.toDateTime.succ := by
  have hs : 0 ≤ tm.second ∧ tm.second < 60 := h.second
  have hmin : 0 ≤ tm.minute ∧ tm.minute < 60 := h.minute
  have hh : 0 ≤ tm.hour ∧ tm.hour < 24 := h.hour
  rw [rtcNextSecond_eq ⟨h.second, h.minute, h.hour⟩, DateTime.succ]
  by_cases h1 : tm.second < 59
  · rw [if_pos h1, if_pos (show tm.toDateTime.second < 59 from h1)]
    rfl
  · rw [if_neg h1, if_neg (show ¬tm.toDateTime.second < 59 from h1)]
    by_cases h2 : tm.minute < 59
    · rw [if_pos h2, if_pos (show tm.toDateTime.minute < 59 from h2)]
      rfl
    · rw [if_neg h2, if_neg (show ¬tm.toDateTime.minute < 59 from h2)]
      have h3 : tm.hour < 23 := by
        by_contra h3
        exact hlast ⟨show tm.hour = 23 by omega, show tm.minute = 59 by omega,
          show tm.second = 59 by omega⟩
      rw [if_pos h3, if_pos (show tm.toDateTime.hour < 23 from h3)]
      rfl

/-- What the next second is at the end of a day. -/
theorem toDateTime_rtcNextSecond_of_last (h : tm.toDateTime.Valid) (hy : T.full tm.year)
    (hlast : tm.toDateTime.IsLastSecond) :
    (rtcNextSecond T tm).toDateTime =
      if tm.toDateTime.day < lookedUpLength tm.toDateTime then
        { second := 0, minute := 0, hour := 0, day := tm.day + 1, month := tm.month,
          year := tm.year }
      else if tm.toDateTime.month < 11 then
        { second := 0, minute := 0, hour := 0, day := 1, month := tm.month + 1, year := tm.year }
      else
        { second := 0, minute := 0, hour := 0, day := 1, month := 0,
          year := T.year (tm.year + 1) } := by
  obtain ⟨hh, hmin, hs⟩ : tm.hour = 23 ∧ tm.minute = 59 ∧ tm.second = 59 := hlast
  have hle := Gregorian.monthLength_le tm.year tm.month
  have hd : 1 ≤ tm.day ∧ tm.day ≤ monthLength tm.year tm.month := h.day
  have hday : 1 ≤ tm.day ∧ tm.day ≤ 31 := by omega
  rw [rtcNextSecond_eq ⟨h.second, h.minute, h.hour⟩, if_neg (by omega), if_neg (by omega),
    if_neg (by omega),
    rtcNextDay_eq { tm with second := 0, minute := 0, hour := 0 } hday h.month hy]
  change (if tm.day < lookedUpLength tm.toDateTime then _ else if tm.month < 11 then _ else _ :
    RtcTimeDate).toDateTime = _
  rw [apply_ite RtcTimeDate.toDateTime, apply_ite RtcTimeDate.toDateTime]
  rfl

/-- In the second case of `CarriesRight` the month is one of the first ten. -/
theorem month_lt_of_lookedUpLength_le {d : DateTime} (h : d.Valid)
    (heq : d.day = monthLength d.year d.month) (hle : lookedUpLength d ≤ d.day)
    (hne : d.month ≠ 12) : d.month < 11 := by
  have hm := h.month
  by_contra h11
  have hnov : d.month = 11 := by omega
  have hlen := lookedUpLength_november hnov
  have hthirty : monthLength d.year d.month = 30 := by simp [monthLength, hnov]
  omega

/-- **The midnights that carry right**: there the next second is the calendar's. -/
theorem toDateTime_rtcNextSecond_of_carriesRight (h : tm.toDateTime.Valid) (hy : T.full tm.year)
    (hc : CarriesRight tm.toDateTime) :
    (rtcNextSecond T tm).toDateTime = tm.toDateTime.succ := by
  by_cases hlast : tm.toDateTime.IsLastSecond
  · rw [toDateTime_rtcNextSecond_of_last h hy hlast, DateTime.succ_of_isLastSecond hlast,
      DateTime.nextDay]
    rcases hc hlast with ⟨hlt, hlt'⟩ | ⟨heq, hle, hne⟩
    · rw [if_pos hlt, if_pos hlt']
      rfl
    · have h11 := month_lt_of_lookedUpLength_le h heq hle hne
      rw [if_neg (by omega), if_pos h11, if_neg (by omega), if_pos (by omega)]
      rfl
  · exact toDateTime_rtcNextSecond_of_not_last h hlast

/-- **At every other midnight** the day or the month is wrong. -/
theorem toDateTime_rtcNextSecond_of_not_carriesRight (h : tm.toDateTime.Valid)
    (hy : T.full tm.year) (hc : ¬CarriesRight tm.toDateTime) :
    (rtcNextSecond T tm).toDateTime.day ≠ tm.toDateTime.succ.day ∨
      (rtcNextSecond T tm).toDateTime.month ≠ tm.toDateTime.succ.month := by
  obtain ⟨hlast, hno⟩ := Classical.not_imp.mp hc
  obtain ⟨hno, hno'⟩ := not_or.mp hno
  have hd := h.day
  have hm := h.month
  have hday : tm.toDateTime.day = tm.day := rfl
  have hmonth : tm.toDateTime.month = tm.month := rfl
  rw [toDateTime_rtcNextSecond_of_last h hy hlast, DateTime.succ_of_isLastSecond hlast,
    DateTime.nextDay]
  by_cases hlt : tm.toDateTime.day < monthLength tm.toDateTime.year tm.toDateTime.month
  · -- the last day of the month comes too early
    rw [if_pos hlt, if_neg (by omega)]
    left
    split
    · dsimp only; omega
    · dsimp only; omega
  · rw [if_neg hlt]
    by_cases hlt' : tm.toDateTime.day < lookedUpLength tm.toDateTime
    · -- the last day of the month passes unnoticed
      rw [if_pos hlt']
      left
      split
      · dsimp only; omega
      · dsimp only; omega
    · -- the year ends in month 0
      have hdec : tm.toDateTime.month = 12 := by omega
      rw [if_neg hlt', if_neg (by omega), if_neg (by omega)]
      right
      exact zero_ne_one

/-- **When one execution of `rtc_next_second` produces the calendar's next second.** -/
theorem toDateTime_rtcNextSecond_iff (h : tm.toDateTime.Valid) (hy : T.full tm.year) :
    (rtcNextSecond T tm).toDateTime = tm.toDateTime.succ ↔ CarriesRight tm.toDateTime := by
  constructor
  · intro heq
    by_contra hc
    rcases toDateTime_rtcNextSecond_of_not_carriesRight h hy hc with hd | hm
    · exact hd (by rw [heq])
    · exact hm (by rw [heq])
  · exact toDateTime_rtcNextSecond_of_carriesRight h hy

/-- What comes after a time that exists fits the registers, right or wrong. -/
theorem displayable_rtcNextSecond (h : tm.toDateTime.Valid) (hy : T.full tm.year) :
    Displayable (rtcNextSecond T tm) := by
  have hs : 0 ≤ tm.second ∧ tm.second < 60 := h.second
  have hmin : 0 ≤ tm.minute ∧ tm.minute < 60 := h.minute
  have hh : 0 ≤ tm.hour ∧ tm.hour < 24 := h.hour
  have hm : 1 ≤ tm.month ∧ tm.month ≤ 12 := h.month
  have hd : 1 ≤ tm.day ∧ tm.day ≤ 31 :=
    ⟨h.day.1, h.day.2.trans (Gregorian.monthLength_le tm.year tm.month)⟩
  rw [rtcNextSecond_eq ⟨h.second, h.minute, h.hour⟩,
    rtcNextDay_eq { tm with second := 0, minute := 0, hour := 0 } hd hm hy]
  split
  · constructor <;> dsimp only <;> omega
  · split
    · constructor <;> dsimp only <;> omega
    · split
      · constructor <;> dsimp only <;> omega
      · split
        · constructor <;> dsimp only <;> omega
        · split <;> constructor <;> dsimp only <;> omega

/-- A year does not end at a midnight that carries right. -/
theorem year_succ_of_carriesRight {d : DateTime} (h : d.Valid) (hc : CarriesRight d) :
    d.succ.year = d.year := by
  by_cases hlast : d.IsLastSecond
  · rw [DateTime.succ_of_isLastSecond hlast, DateTime.nextDay]
    rcases hc hlast with ⟨hlt, -⟩ | ⟨heq, hle, hne⟩
    · rw [if_pos hlt]
    · have h11 := month_lt_of_lookedUpLength_le h heq hle hne
      rw [if_neg (by omega), if_pos (by omega)]
  · exact (DateTime.succ_of_not_isLastSecond h hlast).2.2

end

/-! ## Update cycles -/

/-- The clock is running: the oscillator is in normal operation, and the registers are not being
set. -/
structure Running (s : RTCState) : Prop where
  /-- The divider bits of register A. -/
  oscillator : s.cmosData rtcRegA &&& 0x70 = 0x20
  /-- The `SET` bit of register B. -/
  notSet : s.anyBit rtcRegB regBSet = false
  /-- The base year of `rtc_pre_init`. -/
  baseYear : s.baseYear = 1900

/-- An update cycle: the two second timers expire in turn. -/
def updateCycle (T : FieldTypes) (s : RTCState) : RTCState :=
  rtcUpdateSecond2 T (rtcUpdateSecond T s)

/-- The registers show the date-time `d`, its year modulo 100. -/
def Shows (s : RTCState) (d : DateTime) : Prop :=
  (displayed s).toDateTime = { d with year := d.year % 100 }

theorem displayed_congr {s t : RTCState} (hB : s.cmosData rtcRegB = t.cmosData rtcRegB)
    (h : ∀ i ∈ timeRegisters, s.cmosData i = t.cmosData i) : displayed s = displayed t := by
  have hb : s.isBinary = t.isBinary := by rw [RTCState.isBinary, RTCState.anyBit, hB]; rfl
  have h24 : s.is24h = t.is24h := by rw [RTCState.is24h, RTCState.anyBit, hB]; rfl
  rw [displayed, displayed, hb, h24, h _ (by decide : rtcSeconds ∈ timeRegisters),
    h _ (by decide : rtcMinutes ∈ timeRegisters), h _ (by decide : rtcHours ∈ timeRegisters),
    h _ (by decide : rtcDayOfMonth ∈ timeRegisters), h _ (by decide : rtcMonth ∈ timeRegisters),
    h _ (by decide : rtcYear ∈ timeRegisters)]

/-- `rtc_update_second` advances the internal time and marks the update in register A. -/
theorem rtcUpdateSecond_frame (T : FieldTypes) {s : RTCState} (h : Running s) :
    let s' := rtcUpdateSecond T s
    s'.currentTm = rtcNextSecond T s.currentTm ∧ s'.baseYear = s.baseYear ∧
      s'.cmosData rtcRegA = s.cmosData rtcRegA ||| regAUip ∧
      ∀ i ≠ rtcRegA, s'.cmosData i = s.cmosData i := by
  have hset : ¬setMode s = true := by
    rw [setMode, h.notSet]
    exact Bool.false_ne_true
  simp only [rtcUpdateSecond_of_oscillating T (beq_iff_eq.mpr h.oscillator), if_neg hset]
  refine ⟨rfl, rfl, by rw [emit_cmosData, setCmos_self], fun i hi ↦ ?_⟩
  rw [emit_cmosData, setCmos_of_ne _ hi]

/-- `rtc_update_second2` copies the internal time to the registers, and otherwise changes the
flags of registers A and C. -/
theorem rtcUpdateSecond2_frame (T : FieldTypes) {s : RTCState}
    (h : s.anyBit rtcRegB regBSet = false) :
    let s' := rtcUpdateSecond2 T s
    s'.currentTm = s.currentTm ∧ s'.baseYear = s.baseYear ∧
      s'.cmosData rtcRegA = s.cmosData rtcRegA &&& ~~~regAUip ∧
      ∀ i ≠ rtcRegA, i ≠ rtcRegC → s'.cmosData i = (rtcCopyDate T s).cmosData i := by
  intro s'
  have hset : ¬setMode s = true := by
    rw [setMode, h]
    exact Bool.false_ne_true
  obtain ⟨t, ht, hs'⟩ : ∃ t, OnlyFlags (rtcCopyDate T s) t ∧ s' = endCycle t := by
    obtain ⟨t, ht, hend⟩ := rtcUpdateSecond2_eq T s
    rw [if_neg hset] at ht
    exact ⟨t, ht, hend⟩
  rw [hs']
  refine ⟨ht.currentTm, ht.baseYear, ?_, fun i hA hC ↦ ?_⟩
  · calc _ = t.cmosData rtcRegA &&& ~~~regAUip := setCmos_self t rtcRegA _
      _ = (rtcCopyDate T s).cmosData rtcRegA &&& ~~~regAUip := by
        rw [ht.cmosData rtcRegA (by decide)]
      _ = s.cmosData rtcRegA &&& ~~~regAUip := by
        rw [rtcCopyDate_cmosData_of_notMem T s (by decide)]
  · exact (setCmos_of_ne t hA _).trans (ht.cmosData i hC)

/-- The time registers are written from the internal time and the format alone. -/
theorem rtcCopyDate_congr (T : FieldTypes) {s t : RTCState} (htm : s.currentTm = t.currentTm)
    (hbase : s.baseYear = t.baseYear) (hb : s.isBinary = t.isBinary) (h24 : s.is24h = t.is24h)
    {i : Fin 128} (hi : i ∈ timeRegisters) :
    (rtcCopyDate T s).cmosData i = (rtcCopyDate T t).cmosData i := by
  obtain ⟨e0, e1, e2, e3, e4, e5⟩ := rtcCopyDate_cmosData T s
  obtain ⟨f0, f1, f2, f3, f4, f5⟩ := rtcCopyDate_cmosData T t
  simp only [timeRegisters, List.mem_cons, List.not_mem_nil, or_false] at hi
  rcases hi with rfl | rfl | rfl | rfl | rfl | rfl
  · rw [e0, f0, htm, hb]
  · rw [e1, f1, htm, hb]
  · rw [e2, f2, htm, hb, h24]
  · rw [e3, f3, htm, hb]
  · rw [e4, f4, htm, hb]
  · rw [e5, f5, htm, hb, hbase]

/-- **What an update cycle does**: it advances the internal time by a second and shows it. -/
theorem updateCycle_spec (T : FieldTypes) {s : RTCState} (h : Running s) :
    Running (updateCycle T s) ∧
      (updateCycle T s).currentTm = rtcNextSecond T s.currentTm ∧
      displayed (updateCycle T s) =
        displayed (rtcCopyDate T { s with currentTm := rtcNextSecond T s.currentTm }) := by
  obtain ⟨htm, hbase, hA, hcmos⟩ := rtcUpdateSecond_frame T h
  have hB : (rtcUpdateSecond T s).cmosData rtcRegB = s.cmosData rtcRegB := hcmos _ (by decide)
  have hset : (rtcUpdateSecond T s).anyBit rtcRegB regBSet = false := by
    rw [RTCState.anyBit, hB]
    exact h.notSet
  obtain ⟨htm', hbase', hA', hcmos'⟩ := rtcUpdateSecond2_frame T hset
  have hB' : (updateCycle T s).cmosData rtcRegB = s.cmosData rtcRegB := by
    rw [updateCycle, hcmos' _ (by decide) (by decide),
      rtcCopyDate_cmosData_of_notMem T _ (by decide), hB]
  refine ⟨⟨?_, ?_, ?_⟩, htm'.trans htm, ?_⟩
  · have hbits : ∀ x : BitVec 8, (x ||| regAUip) &&& ~~~regAUip &&& 0x70 = x &&& 0x70 := by decide
    rw [updateCycle, hA', hA, hbits, h.oscillator]
  · rw [RTCState.anyBit, hB']
    exact h.notSet
  · rw [updateCycle, hbase', hbase, h.baseYear]
  · -- the time registers are written from the same internal time, in the same format
    have htime : ∀ i ∈ timeRegisters, i ≠ rtcRegA ∧ i ≠ rtcRegC := by decide
    have hb : (rtcUpdateSecond T s).isBinary = s.isBinary := by
      rw [RTCState.isBinary, RTCState.anyBit, hB]
      rfl
    have h24 : (rtcUpdateSecond T s).is24h = s.is24h := by
      rw [RTCState.is24h, RTCState.anyBit, hB]
      rfl
    refine displayed_congr ?_ fun i hi ↦ ?_
    · rw [hB', rtcCopyDate_cmosData_of_notMem T _ (by decide)]
    · rw [updateCycle, hcmos' i (htime i hi).1 (htime i hi).2]
      exact rtcCopyDate_congr T (t := { s with currentTm := rtcNextSecond T s.currentTm }) htm hbase
        hb h24 hi

/-! ## Runs of update cycles -/

/-- The clock is running, keeps the date-time `d` and shows it. -/
structure Keeps (T : FieldTypes) (d : DateTime) (s : RTCState) : Prop where
  /-- It is running. -/
  running : Running s
  /-- The date-time exists. -/
  valid : d.Valid
  /-- Its year is one the year field counts with. -/
  full : T.full d.year
  /-- It is the internal time. -/
  currentTm : s.currentTm.toDateTime = d
  /-- The registers show it. -/
  shows : Shows s d

/-- What the registers show after an update cycle. -/
theorem displayed_updateCycle {T : FieldTypes} {d : DateTime} {s : RTCState} (h : Keeps T d s) :
    displayed (updateCycle T s) =
      { rtcNextSecond T s.currentTm with
        year := yearOfCentury T (rtcNextSecond T s.currentTm).year 1900 } := by
  obtain ⟨hrun, hvalid, hfull, htm, -⟩ := h
  subst htm
  rw [(updateCycle_spec T hrun).2.2,
    displayed_rtcCopyDate T (displayable_rtcNextSecond hvalid hfull)]
  simp only [hrun.baseYear]

/-- **One cycle**: if it carries right, the clock goes on to the next second. -/
theorem Keeps.updateCycle {T : FieldTypes} {d : DateTime} {s : RTCState} (h : Keeps T d s)
    (hc : CarriesRight d) : Keeps T d.succ (updateCycle T s) := by
  have hshow := displayed_updateCycle h
  obtain ⟨hrun, hvalid, hfull, htm, -⟩ := h
  obtain ⟨hrun', htm', -⟩ := updateCycle_spec T hrun
  subst htm
  have hnext := toDateTime_rtcNextSecond_of_carriesRight (T := T) hvalid hfull hc
  have hyear := year_succ_of_carriesRight hvalid hc
  have hfull' : T.full (s.currentTm.toDateTime.succ).year := by rw [hyear]; exact hfull
  refine ⟨hrun', hvalid.succ, hfull', by rw [htm', hnext], ?_⟩
  rw [Shows, hshow]
  have hy : (rtcNextSecond T s.currentTm).year = s.currentTm.toDateTime.succ.year :=
    congrArg DateTime.year hnext
  rw [hy, yearOfCentury_of_full hfull', ← hnext]
  rfl

/-- **If it does not, the registers show another date.** -/
theorem Keeps.not_shows {T : FieldTypes} {d : DateTime} {s : RTCState} (h : Keeps T d s)
    (hc : ¬CarriesRight d) : ¬Shows (Rtc.updateCycle T s) d.succ := by
  have hshow := displayed_updateCycle h
  obtain ⟨-, hvalid, hfull, rfl, -⟩ := h
  intro hs
  rw [Shows, hshow] at hs
  rcases toDateTime_rtcNextSecond_of_not_carriesRight hvalid hfull hc with hd | hm
  · have hday := congrArg DateTime.day hs
    exact hd hday
  · have hmonth := congrArg DateTime.month hs
    exact hm hmonth

/-- The cycles up to the first midnight that carries wrong. -/
theorem Keeps.iterate {T : FieldTypes} {d : DateTime} {s : RTCState} (h : Keeps T d s) {n : ℕ}
    (hc : ∀ k < n, CarriesRight (DateTime.succ^[k] d)) :
    Keeps T (DateTime.succ^[n] d) ((Rtc.updateCycle T)^[n] s) := by
  induction n with
  | zero => exact h
  | succ n ih =>
    rw [Function.iterate_succ_apply', Function.iterate_succ_apply']
    exact (ih fun k hk ↦ hc k (by omega)).updateCycle (hc n (by omega))

/-- **A clock that carries right counts the seconds**: `n` cycles on, it is `n` seconds later by the
calendar. -/
theorem Keeps.toSeconds_iterate {T : FieldTypes} {d : DateTime} {s : RTCState} (h : Keeps T d s)
    {n : ℕ} (hc : ∀ k < n, CarriesRight (DateTime.succ^[k] d)) :
    ((Rtc.updateCycle T)^[n] s).currentTm.toDateTime.toSeconds = d.toSeconds + n := by
  obtain ⟨-, -, -, htm, -⟩ := h.iterate hc
  obtain ⟨-, hvalid, -, -, -⟩ := h
  rw [htm, Gregorian.DateTime.toSeconds_iterate_succ hvalid]

/-- The registers are those the host's date was copied to, in the default format. -/
theorem displayed_rtcPreInit (T : FieldTypes) (tm : RtcTimeDate) (now : ℤ) :
    ∃ s : RTCState, s.currentTm = tm ∧ s.baseYear = 1900 ∧
      displayed (rtcPreInit T tm now) = displayed (rtcCopyDate T s) := by
  let s : RTCState :=
    { ((({ zeroState with baseYear := 1900 }.setCmos rtcRegA 0x26).setCmos rtcRegB 0x02).setCmos
      rtcRegC 0x00).setCmos rtcRegD 0x80 with currentTm := tm }
  have hset : (rtcPreInit T tm now).cmosData rtcRegB =
      0x02 &&& ~~~(regBPie ||| regBAie ||| regBSqwe) := rfl
  have hB : (rtcCopyDate T s).cmosData rtcRegB = 0x02 := rfl
  refine ⟨s, rfl, rfl, displayed_congr (by rw [hset, hB]; decide) fun i hi ↦ ?_⟩
  simp only [timeRegisters, List.mem_cons, List.not_mem_nil, or_false] at hi
  rcases hi with rfl | rfl | rfl | rfl | rfl | rfl <;> rfl

/-- **The clock starts with the host's date**, and shows it. -/
theorem keeps_rtcPreInit {T : FieldTypes} {tm : RtcTimeDate} (h : tm.toDateTime.Valid)
    (hy : T.full tm.year) (now : ℤ) : Keeps T tm.toDateTime (rtcPreInit T tm now) := by
  have hle := Gregorian.monthLength_le tm.year tm.month
  have hs : 0 ≤ tm.second ∧ tm.second < 60 := h.second
  have hmin : 0 ≤ tm.minute ∧ tm.minute < 60 := h.minute
  have hd : 1 ≤ tm.day ∧ tm.day ≤ monthLength tm.year tm.month := h.day
  have hm : 1 ≤ tm.month ∧ tm.month ≤ 12 := h.month
  have hdisp : Displayable tm := ⟨by omega, by omega, h.hour, by omega, by omega⟩
  have hosc : (rtcPreInit T tm now).cmosData rtcRegA = 0x26 := rfl
  have hset : (rtcPreInit T tm now).cmosData rtcRegB =
      0x02 &&& ~~~(regBPie ||| regBAie ||| regBSqwe) := rfl
  refine ⟨⟨by rw [hosc]; decide, by rw [RTCState.anyBit, hset]; decide, rfl⟩, h, hy, rfl, ?_⟩
  obtain ⟨s, htm, hbase, hcopy⟩ := displayed_rtcPreInit T tm now
  subst htm
  rw [Shows, hcopy, displayed_rtcCopyDate T hdisp, hbase, yearOfCentury_of_full hy]
  rfl

/-- **When the clock follows the calendar.**  One execution of `rtc_next_second` produces the
calendar's next second exactly if the carry is right.  And a running clock, started on any date-time
that exists, shows after each of `n` update cycles the start plus as many seconds, exactly if every
carry before the last of them was right. -/
theorem clock_follows_calendar_iff {T : FieldTypes} {d : DateTime} {s : RTCState}
    (h : Keeps T d s) :
    ((rtcNextSecond T s.currentTm).toDateTime = d.succ ↔ CarriesRight d) ∧
      ∀ n, (∀ k ≤ n, Shows ((updateCycle T)^[k] s) (DateTime.succ^[k] d)) ↔
        ∀ k < n, CarriesRight (DateTime.succ^[k] d) := by
  constructor
  · obtain ⟨-, hvalid, hfull, rfl, -⟩ := h
    exact toDateTime_rtcNextSecond_iff hvalid hfull
  · intro n
    refine ⟨fun hshow k hk ↦ ?_, fun hc k hk ↦ ?_⟩
    · -- induction on the cycle: up to the first wrong carry the clock is kept
      induction k using Nat.strongRecOn with
      | ind k ih =>
        have hkeep := h.iterate fun j hj ↦ ih j hj (by omega)
        by_contra hc
        have hnext := hshow (k + 1) hk
        rw [Function.iterate_succ_apply', Function.iterate_succ_apply'] at hnext
        exact hkeep.not_shows hc hnext
    · exact (h.iterate fun j hj ↦ hc j (by omega)).shows

/-- The theorem for a clock started at noon of the tenth of June 2024. -/
theorem clock_follows_calendar_iff_june :
    let tm : RtcTimeDate :=
      { second := 0, minute := 0, hour := 12, day := 10, month := 6, year := 2024 }
    let s := rtcPreInit intFields tm 0
    ((rtcNextSecond intFields s.currentTm).toDateTime = tm.toDateTime.succ ↔
        CarriesRight tm.toDateTime) ∧
      ∀ n, (∀ k ≤ n, Shows ((updateCycle intFields)^[k] s) (DateTime.succ^[k] tm.toDateTime)) ↔
        ∀ k < n, CarriesRight (DateTime.succ^[k] tm.toDateTime) :=
  clock_follows_calendar_iff (keeps_rtcPreInit ⟨by decide, by decide, by decide, by decide,
    by decide⟩ trivial 0)

/-- **April ends on the 31st**: a clock started a second before the first of May 2024 next shows the
31st of April. -/
theorem not_clock_follows_calendar :
    ¬ ∀ (T : FieldTypes) (tm : RtcTimeDate) (now : ℤ), tm.toDateTime.Valid → T.full tm.year →
      (rtcNextSecond T tm).toDateTime = tm.toDateTime.succ ∧
        ∀ n, Shows ((updateCycle T)^[n] (rtcPreInit T tm now))
          (DateTime.succ^[n] tm.toDateTime) := by
  intro h
  have hnext := (h intFields
    { second := 59, minute := 59, hour := 23, day := 30, month := 4, year := 2024 } 0
    ⟨by decide, by decide, by decide, by decide, by decide⟩ trivial).1
  exact absurd hnext (by decide)

end Rtc
end CamkesVm
