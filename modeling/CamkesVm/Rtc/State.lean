import Mathlib.Data.BitVec
import Mathlib.Logic.Function.Basic

/-!
# The RTC: registers, time and the update cycle

The emulated MC146818 of `components/Init/src/mc146818rtc.c`, as far as the time of day goes: the
CMOS registers, the internal time `current_tm`, the functions that take one to the other, and the
two timer handlers of an update cycle.  What the periodic interrupt needs (`rtc_timer_update`, the
coalesced interrupts and their fields) is left out.

The type `rtc_time_date_t` of the internal time comes from the platform library, and the widths of
its fields with it.  `FieldTypes` stands for them: how an `int` is stored in a field, and how the
year takes part in arithmetic.  All that is assumed is that small numbers are stored as they are,
and that there are *full* years, which are close enough to 1900 for the arithmetic to be exact.

A C `int` is an integer here, `/` and `%` on it round towards zero (`tdiv`, `tmod`), and a register
holds a byte.

The functions stand in the order of the source. `rtcUpdateSecond` and `rtcUpdateSecond2` are called
in turn, by timers that are armed by each other; that this is so is shown in `CamkesVm.Rtc.Chain`,
and the definitions do not rely on it.

Every function takes the whole state and returns it, with what it did to the outside in `log`; a
field that a function does not mention is the same afterwards.
-/

set_option autoImplicit false

namespace CamkesVm
namespace Rtc

/-! ## Constants -/

/-- There are registers: a numeral names one. -/
scoped instance instNeZeroRegisters : NeZero 128 := ⟨by decide⟩

/-- `RTC_SECONDS` -/
def rtcSeconds : Fin 128 := 0

/-- `RTC_SECONDS_ALARM` -/
def rtcSecondsAlarm : Fin 128 := 1

/-- `RTC_MINUTES` -/
def rtcMinutes : Fin 128 := 2

/-- `RTC_MINUTES_ALARM` -/
def rtcMinutesAlarm : Fin 128 := 3

/-- `RTC_HOURS` -/
def rtcHours : Fin 128 := 4

/-- `RTC_HOURS_ALARM` -/
def rtcHoursAlarm : Fin 128 := 5

/-- `RTC_DAY_OF_MONTH` -/
def rtcDayOfMonth : Fin 128 := 7

/-- `RTC_MONTH` -/
def rtcMonth : Fin 128 := 8

/-- `RTC_YEAR` -/
def rtcYear : Fin 128 := 9

/-- `RTC_REG_A` -/
def rtcRegA : Fin 128 := 10

/-- `RTC_REG_B` -/
def rtcRegB : Fin 128 := 11

/-- `RTC_REG_C` -/
def rtcRegC : Fin 128 := 12

/-- `RTC_REG_D` -/
def rtcRegD : Fin 128 := 13

/-- `REG_IBM_CENTURY_BYTE` -/
def regIbmCenturyByte : Fin 128 := 0x32

/-- `REG_IBM_PS2_CENTURY_BYTE` -/
def regIbmPs2CenturyByte : Fin 128 := 0x37

/-- `REG_A_UIP` -/
def regAUip : BitVec 8 := 0x80

/-- `REG_B_SET` -/
def regBSet : BitVec 8 := 0x80

/-- `REG_B_PIE` -/
def regBPie : BitVec 8 := 0x40

/-- `REG_B_AIE` -/
def regBAie : BitVec 8 := 0x20

/-- `REG_B_UIE` -/
def regBUie : BitVec 8 := 0x10

/-- `REG_B_SQWE` -/
def regBSqwe : BitVec 8 := 0x08

/-- `REG_B_DM` -/
def regBDm : BitVec 8 := 0x04

/-- `REG_B_24H` -/
def regB24h : BitVec 8 := 0x02

/-- `REG_C_UF` -/
def regCUf : BitVec 8 := 0x10

/-- `REG_C_IRQF` -/
def regCIrqf : BitVec 8 := 0x80

/-- `REG_C_PF` -/
def regCPf : BitVec 8 := 0x40

/-- `REG_C_AF` -/
def regCAf : BitVec 8 := 0x20

/-- `get_ticks_per_sec`: nanoseconds per second. -/
def getTicksPerSec : ℤ := 1000000000

/-! ## State -/

/-- The internal time, `rtc_time_date_t`. -/
@[ext]
structure RtcTimeDate where
  /-- The second. -/
  second : ℤ
  /-- The minute. -/
  minute : ℤ
  /-- The hour. -/
  hour : ℤ
  /-- The day of the month. -/
  day : ℤ
  /-- The month. -/
  month : ℤ
  /-- The year. -/
  year : ℤ
  deriving DecidableEq

/-- The integer types of the fields of `rtc_time_date_t`. -/
structure FieldTypes where
  /-- What a field other than the year holds once an `int` was assigned to it. -/
  field : ℤ → ℤ
  /-- What the year holds once an `int` was assigned to it. -/
  year : ℤ → ℤ
  /-- The value of `year - base_year`. -/
  yearMinus : ℤ → ℤ → ℤ
  /-- The value of `year + 1900`, as an `int`. -/
  yearPlus : ℤ → ℤ → ℤ
  /-- The years that take part in arithmetic with 1900 as what they are. -/
  full : ℤ → Prop
  /-- A field holds small numbers as they are. -/
  field_of_small : ∀ x, 0 ≤ x → x ≤ 127 → field x = x
  /-- So does the year. -/
  year_of_small : ∀ x, 0 ≤ x → x ≤ 127 → year x = x
  /-- The difference of a full year and 1900. -/
  yearMinus_of_full : ∀ y, full y → yearMinus y 1900 = y - 1900
  /-- The sum of a full year and 1900. -/
  yearPlus_of_full : ∀ y, full y → yearPlus y 1900 = y + 1900

/-- Fields of type `int`. -/
def intFields : FieldTypes where
  field x := x
  year x := x
  yearMinus x y := x - y
  yearPlus x y := x + y
  full _ := True
  field_of_small _ _ _ := rfl
  year_of_small _ _ _ := rfl
  yearMinus_of_full _ _ := rfl
  yearPlus_of_full _ _ := rfl

/-- What the RTC does to the world outside. -/
inductive Effect
  /-- `vm_set_irq_level(RTC_IRQ, level)` -/
  | setIrqLevel (level : ℕ)
  /-- `init_timer_oneshot_absolute(TIMER_SECOND_TIMER, time)` -/
  | secondTimer (time : ℤ)
  /-- `init_timer_oneshot_absolute(TIMER_SECOND_TIMER2, time)` -/
  | secondTimer2 (time : ℤ)
  deriving DecidableEq

/-- The device, `RTCState`, with what it has done so far. -/
structure RTCState where
  /-- The registers. -/
  cmosData : Fin 128 → BitVec 8
  /-- The internal time. -/
  currentTm : RtcTimeDate
  /-- The year the year register counts from. -/
  baseYear : ℤ
  /-- The time of the next second update. -/
  nextSecondTime : ℤ
  /-- What has been done to the world outside, oldest first. -/
  log : List Effect

/-- The effect of one call on the world outside. -/
def RTCState.emit (s : RTCState) (e : Effect) : RTCState := { s with log := s.log ++ [e] }

/-- Stores a byte in a register. -/
def RTCState.setCmos (s : RTCState) (i : Fin 128) (v : BitVec 8) : RTCState :=
  { s with cmosData := Function.update s.cmosData i v }

/-- A C condition `s->cmos_data[i] & mask`. -/
def RTCState.anyBit (s : RTCState) (i : Fin 128) (mask : BitVec 8) : Bool :=
  s.cmosData i &&& mask != 0

/-- The registers hold binary numbers, and not BCD. -/
def RTCState.isBinary (s : RTCState) : Bool := s.anyBit rtcRegB regBDm

/-- The hours run from 0 to 23, and not from 0 to 11 twice. -/
def RTCState.is24h (s : RTCState) : Bool := s.anyBit rtcRegB regB24h

/-! ## Registers and internal time -/

/-- `rtc_to_bcd`, with what every caller does to its result, storing it in a byte.  The flag is the
`DM` bit of register B. -/
def rtcToBcd (dm : Bool) (a : ℤ) : BitVec 8 :=
  if dm then BitVec.ofInt 8 a
  else ((BitVec.ofInt 32 (a.tdiv 10) <<< 4) ||| BitVec.ofInt 32 (a.tmod 10)).setWidth 8

/-- `rtc_from_bcd`, on a byte. -/
def rtcFromBcd (dm : Bool) (a : BitVec 8) : ℤ :=
  if dm then a.toNat else (a >>> 4).toNat * 10 + (a &&& 0x0f).toNat

/-- `rtc_set_time` -/
def rtcSetTime (T : FieldTypes) (s : RTCState) : RTCState :=
  let dm := s.isBinary
  let hour := T.field (rtcFromBcd dm (s.cmosData rtcHours &&& 0x7f))
  { s with currentTm := {
      second := T.field (rtcFromBcd dm (s.cmosData rtcSeconds))
      minute := T.field (rtcFromBcd dm (s.cmosData rtcMinutes))
      hour := if !s.is24h && s.anyBit rtcHours 0x80 then T.field (hour + 12) else hour
      day := T.field (rtcFromBcd dm (s.cmosData rtcDayOfMonth))
      month := T.field (rtcFromBcd dm (s.cmosData rtcMonth) - 1)
      year := T.year (rtcFromBcd dm (s.cmosData rtcYear) + s.baseYear - 1900) } }

/-- The hours register of `rtc_copy_date`. -/
def hoursByte (dm h24 : Bool) (hour : ℤ) : BitVec 8 :=
  if h24 then rtcToBcd dm hour
  else if 12 ≤ hour then rtcToBcd dm (hour.tmod 12) ||| 0x80
  else rtcToBcd dm (hour.tmod 12)

/-- The year of the century of `rtc_copy_date`. -/
def yearOfCentury (T : FieldTypes) (year baseYear : ℤ) : ℤ :=
  let year := (T.yearMinus year baseYear).tmod 100
  if year < 0 then year + 100 else year

/-- `rtc_copy_date` -/
def rtcCopyDate (T : FieldTypes) (s : RTCState) : RTCState :=
  let tm := s.currentTm
  let dm := s.isBinary
  (((((s.setCmos rtcSeconds (rtcToBcd dm tm.second)).setCmos
    rtcMinutes (rtcToBcd dm tm.minute)).setCmos
    rtcHours (hoursByte dm s.is24h tm.hour)).setCmos
    rtcDayOfMonth (rtcToBcd dm tm.day)).setCmos
    rtcMonth (rtcToBcd dm tm.month)).setCmos
    rtcYear (rtcToBcd dm (yearOfCentury T tm.year s.baseYear))

/-! ## The calendar -/

/-- `days_tab` -/
def daysTab : List ℤ := [31, 28, 31, 30, 31, 30, 31, 31, 30, 31, 30, 31]

/-- `get_days_in_month` -/
def getDaysInMonth (month year : ℤ) : ℤ :=
  -- the cast to `unsigned` makes a negative month a large one
  if month < 0 ∨ 12 ≤ month then 31
  else
    let d := daysTab.getD month.toNat 0
    if month = 1 ∧ year.tmod 4 = 0 ∧ (year.tmod 100 ≠ 0 ∨ year.tmod 400 = 0) then d + 1 else d

/-- A C condition `(unsigned)x >= limit`. -/
def unsignedGe (x limit : ℤ) : Prop := x < 0 ∨ limit ≤ x

instance (x limit : ℤ) : Decidable (unsignedGe x limit) := inferInstanceAs (Decidable (_ ∨ _))

/-- The next day of `rtc_next_second`. -/
def rtcNextDay (T : FieldTypes) (tm : RtcTimeDate) : RtcTimeDate :=
  let daysInMonth := getDaysInMonth tm.month (T.yearPlus tm.year 1900)
  let tm := { tm with day := T.field (tm.day + 1) }
  if tm.day < 1 then { tm with day := 1 }
  else if daysInMonth < tm.day then
    let tm := { tm with day := 1, month := T.field (tm.month + 1) }
    if 12 ≤ tm.month then { tm with month := 0, year := T.year (tm.year + 1) } else tm
  else tm

/-- `rtc_next_second` -/
def rtcNextSecond (T : FieldTypes) (tm : RtcTimeDate) : RtcTimeDate :=
  let tm := { tm with second := T.field (tm.second + 1) }
  if unsignedGe tm.second 60 then
    let tm := { tm with second := 0, minute := T.field (tm.minute + 1) }
    if unsignedGe tm.minute 60 then
      let tm := { tm with minute := 0, hour := T.field (tm.hour + 1) }
      if unsignedGe tm.hour 24 then rtcNextDay T { tm with hour := 0 } else tm
    else tm
  else tm

/-! ## The update cycle -/

/-- `rtc_update_second` -/
def rtcUpdateSecond (T : FieldTypes) (s : RTCState) : RTCState :=
  if s.cmosData rtcRegA &&& 0x70 != 0x20 then
    -- the oscillator is not in normal operation: no update
    let s := { s with nextSecondTime := s.nextSecondTime + getTicksPerSec }
    s.emit (.secondTimer s.nextSecondTime)
  else
    let s := { s with currentTm := rtcNextSecond T s.currentTm }
    let s := if !s.anyBit rtcRegB regBSet
      then s.setCmos rtcRegA (s.cmosData rtcRegA ||| regAUip) else s
    s.emit (.secondTimer2 (s.nextSecondTime + max (getTicksPerSec / 100) 1))

/-- Whether an alarm register asks for the given value or for any. -/
def alarmMatches (s : RTCState) (i : Fin 128) (value : ℤ) : Bool :=
  s.cmosData i &&& 0xc0 == 0xc0 || decide (rtcFromBcd s.isBinary (s.cmosData i) = value)

/-- `rtc_update_second2` -/
def rtcUpdateSecond2 (T : FieldTypes) (s : RTCState) : RTCState :=
  let s := if !s.anyBit rtcRegB regBSet then rtcCopyDate T s else s
  let s := if s.anyBit rtcRegB regBAie && alarmMatches s rtcSecondsAlarm s.currentTm.second &&
      alarmMatches s rtcMinutesAlarm s.currentTm.minute &&
      alarmMatches s rtcHoursAlarm s.currentTm.hour
    then (s.setCmos rtcRegC (s.cmosData rtcRegC ||| 0xa0)).emit (.setIrqLevel 1) else s
  let s := s.setCmos rtcRegC (s.cmosData rtcRegC ||| regCUf)
  let s := if s.anyBit rtcRegB regBUie
    then (s.setCmos rtcRegC (s.cmosData rtcRegC ||| regCIrqf)).emit (.setIrqLevel 1) else s
  let s := s.setCmos rtcRegA (s.cmosData rtcRegA &&& ~~~regAUip)
  let s := { s with nextSecondTime := s.nextSecondTime + getTicksPerSec }
  s.emit (.secondTimer s.nextSecondTime)

/-! ## Initialisation -/

/-- `rtc_set_date` -/
def rtcSetDate (T : FieldTypes) (s : RTCState) (tm : RtcTimeDate) : RTCState :=
  rtcCopyDate T { s with currentTm := tm }

/-- `rtc_set_date_from_host`, with the date the host's clock gives. -/
def rtcSetDateFromHost (T : FieldTypes) (s : RTCState) (tm : RtcTimeDate) : RTCState :=
  let s := rtcSetDate T s tm
  let val := rtcToBcd s.isBinary (tm.year.tdiv 100 + 19)
  (s.setCmos regIbmCenturyByte val).setCmos regIbmPs2CenturyByte val

/-- `rtc_reset` -/
def rtcReset (s : RTCState) : RTCState :=
  let s := s.setCmos rtcRegB (s.cmosData rtcRegB &&& ~~~(regBPie ||| regBAie ||| regBSqwe))
  let s := s.setCmos rtcRegC (s.cmosData rtcRegC &&& ~~~(regCUf ||| regCIrqf ||| regCPf ||| regCAf))
  s.emit (.setIrqLevel 0)

/-- `rtc_initfn`, at time `now`. -/
def rtcInitfn (T : FieldTypes) (s : RTCState) (tm : RtcTimeDate) (now : ℤ) : RTCState :=
  let s := (((s.setCmos rtcRegA 0x26).setCmos rtcRegB 0x02).setCmos rtcRegC 0x00).setCmos
    rtcRegD 0x80
  let s := rtcSetDateFromHost T s tm
  let s := { s with nextSecondTime := now + getTicksPerSec * 99 / 100 }
  s.emit (.secondTimer2 s.nextSecondTime)

/-- The `static` state before `rtc_pre_init`: all zero. -/
def zeroState : RTCState where
  cmosData _ := 0
  currentTm := { second := 0, minute := 0, hour := 0, day := 0, month := 0, year := 0 }
  baseYear := 0
  nextSecondTime := 0
  log := []

/-- `rtc_pre_init` -/
def rtcPreInit (T : FieldTypes) (tm : RtcTimeDate) (now : ℤ) : RTCState :=
  rtcReset (rtcInitfn T { zeroState with baseYear := 1900 } tm now)

end Rtc
end CamkesVm
