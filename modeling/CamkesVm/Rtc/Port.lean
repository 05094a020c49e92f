import CamkesVm.Rtc.State

/-!
# The RTC: ports and the periodic interrupt

What the device has beside the time of day: the two ports, of which the first selects the register
the second gives access to, and the periodic interrupt with its timer.  The core, the registers and
the time of day, is `RTCState`.

Interrupts that the guest was too slow for were to be counted (`irq_coalesced`) and sent again
later, by a timer of their own or as soon as the guest acknowledges one.  The code that would count
them is commented out, so there never are any; what depends on the count is modelled all the same.

The times of the periodic interrupt are 64-bit words, and its divisions round down.

## What is here

* `RTCDevice` — the core with the rest of the state, and `PeriodicEffect`, what it asks of the
  timers of the periodic interrupt, in a log of its own.
* `periodOf`, `nextPeriod`, `scaled`, `rtcTimerUpdate` — the period that register A selects, and the
  deadline.
* `raisePeriodic`, `rtcPeriodicTimer`, `rtcCoalescedTimer` — the handlers.
* `writeRegB`, `cmosIoportWrite`, `cmosIoportRead`, `rtcDevicePreInit` — the ports and the
  initialisation.

The first port keeps seven bits of what is written to it, so a register number is one of 128.
-/

set_option autoImplicit false

namespace CamkesVm
namespace Rtc

/-! ## Constants -/

/-- `RTC_DAY_OF_WEEK` -/
def rtcDayOfWeek : Fin 128 := 6

/-- `RTC_REINJECT_ON_ACK_COUNT` -/
def rtcReinjectOnAckCount : ℕ := 20

/-- `rtc_td_hack`, which nothing sets. -/
def rtcTdHack : Bool := false

/-- `muldiv64(a, b, c)`: the product, of 96 bits, over the divisor. -/
def muldiv64 (a : BitVec 64) (b c : ℕ) : BitVec 64 := BitVec.ofNat 64 (a.toNat * b / c)

/-! ## State -/

/-- What the device asks of the timers of the periodic interrupt. -/
inductive PeriodicEffect
  /-- `init_timer_oneshot_absolute(TIMER_PERIODIC_TIMER, time)` -/
  | periodicTimer (time : BitVec 64)
  /-- `init_timer_stop(TIMER_PERIODIC_TIMER)` -/
  | stopPeriodicTimer
  /-- `init_timer_oneshot_absolute(TIMER_COALESCED_TIMER, time)` -/
  | coalescedTimer (time : BitVec 64)
  /-- `init_timer_stop(TIMER_COALESCED_TIMER)` -/
  | stopCoalescedTimer
  deriving DecidableEq

/-- The whole device.  What it asks of the timers of the periodic interrupt has a log of its own;
these are other timers than those in the log of the core, so the order between the two does not
matter. -/
structure RTCDevice extends RTCState where
  /-- The register selected. -/
  cmosIndex : Fin 128
  /-- The time of the next periodic interrupt. -/
  nextPeriodicTime : BitVec 64
  /-- How often an interrupt was sent again on acknowledgement. -/
  irqReinjectOnAckCount : BitVec 16
  /-- The interrupts the guest was too slow for. -/
  irqCoalesced : BitVec 32
  /-- The period, in cycles of 32 kHz. -/
  period : BitVec 32
  /-- What has been asked of the timers of the periodic interrupt, oldest first. -/
  periodicLog : List PeriodicEffect

/-- The core changes. -/
def RTCDevice.core (s : RTCDevice) (f : RTCState → RTCState) : RTCDevice :=
  { s with toRTCState := f s.toRTCState }

/-- A request for one of the timers of the periodic interrupt. -/
def RTCDevice.request (s : RTCDevice) (e : PeriodicEffect) : RTCDevice :=
  { s with periodicLog := s.periodicLog ++ [e] }

/-- The register that a byte written to the first port selects. -/
def selected (data : BitVec 8) : Fin 128 := ⟨data.toNat % 128, Nat.mod_lt _ (by decide)⟩

/-! ## The periodic interrupt -/

/-- `rtc_coalesced_timer_update`, at time `now`. -/
def rtcCoalescedTimerUpdate (s : RTCDevice) (now : BitVec 64) : RTCDevice :=
  if s.irqCoalesced = 0 then s.request .stopCoalescedTimer
  else
    let c := min s.irqCoalesced.toNat 7 + 1
    s.request (.coalescedTimer
      (now + muldiv64 (BitVec.ofNat 64 (s.period.toNat / c)) getTicksPerSec.toNat 32768))

/-- `rtc_coalesced_timer` -/
def rtcCoalescedTimer (s : RTCDevice) (now : BitVec 64) : RTCDevice :=
  let s := if s.irqCoalesced ≠ 0
    then s.core fun s ↦ (s.setCmos rtcRegC (s.cmosData rtcRegC ||| 0xc0)).emit (.setIrqLevel 1)
    else s
  rtcCoalescedTimerUpdate s now

/-- The period that register A selects, in cycles of 32 kHz; 0 if it selects none. -/
def periodOf (regA : BitVec 8) : ℕ :=
  let periodCode := regA.toNat % 16
  if periodCode = 0 then 0
  else if periodCode ≤ 2 then 2 ^ (periodCode + 6) else 2 ^ (periodCode - 1)

/-- The first multiple of the period after a time. -/
def nextPeriod (period : ℕ) (currentTime : BitVec 64) : BitVec 64 :=
  let curClock := muldiv64 currentTime 32768 getTicksPerSec.toNat
  let nextIrqClock := (curClock &&& ~~~BitVec.ofNat 64 (period - 1)) + BitVec.ofNat 64 period
  muldiv64 nextIrqClock getTicksPerSec.toNat 32768 + 1

/-- The interrupts the guest was too slow for, in terms of another period. -/
def scaled (s : RTCDevice) (period : BitVec 32) : BitVec 32 :=
  if period ≠ s.period then s.irqCoalesced * s.period / period else s.irqCoalesced

/-- `rtc_timer_update`.  The square wave alone does not start the timer. -/
def rtcTimerUpdate (s : RTCDevice) (currentTime : BitVec 64) : RTCDevice :=
  let period := periodOf (s.cmosData rtcRegA)
  if period ≠ 0 ∧ s.anyBit rtcRegB regBPie then
    { s with
      irqCoalesced := scaled s (BitVec.ofNat 32 period)
      period := BitVec.ofNat 32 period
      nextPeriodicTime := nextPeriod period currentTime }.request
        (.periodicTimer (nextPeriod period currentTime))
  else { s with irqCoalesced := 0 }.request .stopPeriodicTimer

/-- The periodic interrupt of `rtc_periodic_timer`. -/
def raisePeriodic (s : RTCDevice) : RTCDevice :=
  let s := s.core fun s ↦ s.setCmos rtcRegC (s.cmosData rtcRegC ||| 0xc0)
  let s := if rtcTdHack = true ∧ rtcReinjectOnAckCount ≤ s.irqReinjectOnAckCount.toNat
    then { s with irqReinjectOnAckCount := 0 } else s
  s.core fun s ↦ s.emit (.setIrqLevel 1)

/-- `rtc_periodic_timer` -/
def rtcPeriodicTimer (s : RTCDevice) : RTCDevice :=
  let s := rtcTimerUpdate s s.nextPeriodicTime
  let s := if s.anyBit rtcRegB regBPie then raisePeriodic s else s
  -- not a square wave at all: it must be seen as a pulse
  if s.anyBit rtcRegB regBSqwe then s.core fun s ↦ s.emit (.setIrqLevel 1) else s

/-! ## Ports -/

/-- A write to register B, up to the periodic interrupt. -/
def writeRegB (T : FieldTypes) (data : BitVec 8) (s : RTCState) : RTCState :=
  let set := data &&& regBSet != 0
  let s' := if set
    -- set mode: reset UIP mode
    then s.setCmos rtcRegA (s.cmosData rtcRegA &&& ~~~regAUip)
    -- if disabling set mode, update the time
    else if s.anyBit rtcRegB regBSet then rtcSetTime T s else s
  let data' := if set then data &&& ~~~regBUie else data
  let s'' := s'.setCmos rtcRegB data'
  if (s'.cmosData rtcRegB ^^^ data') &&& (regBDm ||| regB24h) != 0 && !set
    -- the time format has changed: update the registers immediately
    then rtcCopyDate T s'' else s''

/-- `cmos_ioport_write`, at time `now`. -/
def cmosIoportWrite (T : FieldTypes) (s : RTCDevice) (now : BitVec 64) (addr : ℕ)
    (data : BitVec 8) : RTCDevice :=
  let i := s.cmosIndex
  if addr % 2 = 0 then { s with cmosIndex := selected data }
  else if i = rtcSecondsAlarm ∨ i = rtcMinutesAlarm ∨ i = rtcHoursAlarm then
    s.core fun s ↦ s.setCmos i data
  else if i = rtcSeconds ∨ i = rtcMinutes ∨ i = rtcHours ∨ i = rtcDayOfWeek ∨ i = rtcDayOfMonth ∨
      i = rtcMonth ∨ i = rtcYear then
    let s := s.core fun s ↦ s.setCmos i data
    -- if in set mode, do not update the time
    if !s.anyBit rtcRegB regBSet then s.core (rtcSetTime T) else s
  else if i = rtcRegA then
    -- the UIP bit is read only
    rtcTimerUpdate (s.core fun s ↦ s.setCmos rtcRegA
      (data &&& ~~~regAUip ||| s.cmosData rtcRegA &&& regAUip)) now
  else if i = rtcRegB then rtcTimerUpdate (s.core (writeRegB T data)) now
  else if i = rtcRegC ∨ i = rtcRegD then s
  else s.core fun s ↦ s.setCmos i data

/-- `cmos_ioport_read` -/
def cmosIoportRead (s : RTCDevice) (addr : ℕ) : BitVec 8 × RTCDevice :=
  if addr % 2 = 0 then (0xff, s)
  else
    let ret := s.cmosData s.cmosIndex
    if s.cmosIndex = rtcRegC then
      let s := s.core fun s ↦ s.emit (.setIrqLevel 0)
      if s.irqCoalesced ≠ 0 ∧ s.irqReinjectOnAckCount.toNat < rtcReinjectOnAckCount then
        let s := { s with irqReinjectOnAckCount := s.irqReinjectOnAckCount + 1 }
        (ret, s.core fun s ↦ s.emit (.setIrqLevel 1))
      else (ret, s.core fun s ↦ s.setCmos rtcRegC 0)
    else (ret, s)

/-! ## Initialisation -/

/-- The whole device after `rtc_pre_init`. -/
def rtcDevicePreInit (T : FieldTypes) (tm : RtcTimeDate) (now : ℤ) : RTCDevice where
  toRTCState := rtcPreInit T tm now
  cmosIndex := 0
  nextPeriodicTime := 0
  irqReinjectOnAckCount := 0
  irqCoalesced := 0
  period := 0
  periodicLog := []

end Rtc
end CamkesVm
