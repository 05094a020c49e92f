import Mathlib.Data.BitVec
import Mathlib.Logic.Function.Basic

/-!
# The PIT: channels, port accesses and the interrupt timer

The emulated 8254 of `components/Init/src/i8254.c`.  It has three channels; only the first is
connected to an interrupt line, and its output is worked out at two kinds of moments: when the guest
loads a count, and when `TIMER_PIT` completes.  At each of them `pit_irq_timer_update` sets the line
to the output of the channel at that time and arms the timer for the next change of the output.

Times are 64-bit words.  Nanoseconds become ticks of the PIT and back by `muldivu64`, which rounds
down.  The clock may be read several times in one access; `clock i` is the value of the reading that
belongs to channel `i`, and `clock' i` that of the second one.  The channel fields that only code
compiled out by `#if 0` uses are left out.

`none` stands for a time of -1 where the source uses that for *never*. Counts are natural numbers
here, from 1 to 65536 once they are loaded, and `CamkesVm.Pit.Checked` has the divisions by them as
C has them. What is written to the ports is a byte, and so is what is read; the conversion of the
latter is checked there too.

The functions stand in the order of the source and call each other as they do there. Those that act
on one channel of the device return the device, since they also emit effects; those that only touch
the channel return the channel.
-/

set_option autoImplicit false

namespace CamkesVm
namespace Pit

/-! ## Constants -/

/-- `PIT_FREQ` -/
def pitFreq : ℕ := 1193182

/-- `NS_IN_S` -/
def nsInS : ℕ := 1000000000

/-- `RW_STATE_LSB` -/
def rwStateLsb : ℕ := 1

/-- `RW_STATE_MSB` -/
def rwStateMsb : ℕ := 2

/-- `RW_STATE_WORD0` -/
def rwStateWord0 : ℕ := 3

/-- `RW_STATE_WORD1` -/
def rwStateWord1 : ℕ := 4

/-- `muldivu64(a, b, c)`: the product over the divisor, rounded down. -/
def muldivu64 (a b c : ℕ) : ℕ := a * b / c

/-- `ROUND_DOWN(n, b)`: the largest multiple of `b` that is not more than `n`. -/
def roundDown (n b : ℕ) : ℕ := n - n % b

/-! ## State -/

/-- `PITChannelState` -/
structure PITChannelState where
  /-- The count loaded; it can be 65536. -/
  count : ℕ
  /-- The count latched for reading. -/
  latchedCount : BitVec 16
  /-- How much of the latched count is still to be read; 0 if none is latched. -/
  countLatched : ℕ
  /-- The status is latched for reading. -/
  statusLatched : Bool
  /-- The latched status. -/
  status : BitVec 8
  /-- Which byte is read next. -/
  readState : ℕ
  /-- Which byte is written next. -/
  writeState : ℕ
  /-- The low byte of a count whose high byte is still to be written. -/
  writeLatch : BitVec 8
  /-- The access mode. -/
  rwMode : ℕ
  /-- The counting mode. -/
  mode : ℕ
  /-- Counting in decimal, which is not supported. -/
  bcd : ℕ
  /-- The gate. -/
  gate : Bool
  /-- When the count was loaded. -/
  countLoadTime : BitVec 64
  /-- When the output changes next, `-1` if it does not. -/
  nextTransitionTime : BitVec 64
  /-- The channel has an interrupt timer. -/
  irqTimer : Bool
  /-- The interrupt is suppressed. -/
  irqDisabled : Bool

/-- What the PIT does to the world outside. -/
inductive Effect
  /-- `vm_set_irq_level(TIMER_IRQ, level)` -/
  | setIrqLevel (level : ℕ)
  /-- `init_timer_oneshot_absolute(TIMER_PIT, time)` -/
  | oneshotAbsolute (time : BitVec 64)
  /-- `init_timer_stop(TIMER_PIT)` -/
  | stop
  deriving DecidableEq

/-- There are channels: a numeral names one. -/
scoped instance instNeZeroChannels : NeZero 3 := ⟨by decide⟩

/-- `PITCommonState`, with what it has done so far. -/
structure PITCommonState where
  /-- The channels. -/
  channels : Fin 3 → PITChannelState
  /-- What has been done to the world outside, oldest first. -/
  log : List Effect

/-- The effect of one call on the world outside. -/
def PITCommonState.emit (s : PITCommonState) (e : Effect) : PITCommonState :=
  { s with log := s.log ++ [e] }

/-- One channel changes. -/
def PITCommonState.setChannel (s : PITCommonState) (i : Fin 3) (c : PITChannelState) :
    PITCommonState :=
  { s with channels := Function.update s.channels i c }

section

variable (s : PITCommonState) (i : Fin 3) (c : PITChannelState)

@[simp] theorem channels_emit (e : Effect) : (s.emit e).channels = s.channels := rfl

@[simp] theorem log_emit (e : Effect) : (s.emit e).log = s.log ++ [e] := rfl

@[simp] theorem log_setChannel : (s.setChannel i c).log = s.log := rfl

@[simp] theorem channels_setChannel_self : (s.setChannel i c).channels i = c := by
  simp [PITCommonState.setChannel]

theorem channels_setChannel_of_ne {j : Fin 3} (h : j ≠ i) :
    (s.setChannel i c).channels j = s.channels j := by
  simp [PITCommonState.setChannel, Function.update_of_ne h]

end

/-! ## Counting -/

/-- The ticks since the count was loaded. -/
def ticks (s : PITChannelState) (time : BitVec 64) : ℕ :=
  muldivu64 (time - s.countLoadTime).toNat pitFreq nsInS

/-- `pit_get_count` -/
def pitGetCount (s : PITChannelState) (now : BitVec 64) : ℕ :=
  let d := ticks s now
  match s.mode with
  | 0 | 1 | 4 | 5 => (((s.count : ℤ) - d) % 65536).toNat
  | 3 => s.count - (2 * d % 2 ^ 64) % s.count
  | _ => s.count - d % s.count

/-- `pit_get_out`: the output of a channel. -/
def pitGetOut (s : PITChannelState) (currentTime : BitVec 64) : ℕ :=
  let d := ticks s currentTime
  match s.mode with
  | 1 => if d < s.count then 1 else 0
  | 2 => if d % s.count = 0 ∧ d ≠ 0 then 1 else 0
  | 3 => if d % s.count < (s.count + 1) / 2 then 1 else 0
  | 4 | 5 => if d = s.count then 1 else 0
  | _ => if s.count ≤ d then 1 else 0

/-- The tick at which the output changes next, `none` if it does not. -/
def nextTransition (s : PITChannelState) (currentTime : BitVec 64) : Option ℕ :=
  let d := ticks s currentTime
  match s.mode with
  | 2 =>
    let base := roundDown d s.count
    some (if d - base = 0 ∧ d ≠ 0 then base + s.count else base + s.count + 1)
  | 3 =>
    let base := roundDown d s.count
    let period2 := (s.count + 1) / 2
    some (if d - base < period2 then base + period2 else base + s.count)
  | 4 | 5 =>
    if d < s.count then some s.count else if d = s.count then some (s.count + 1) else none
  | _ => if d < s.count then some s.count else none

/-- `pit_get_next_transition_time` -/
def pitGetNextTransitionTime (s : PITChannelState) (currentTime : BitVec 64) : BitVec 64 :=
  match nextTransition s currentTime with
  | none => -1
  | some next =>
    let nextTime := s.countLoadTime + BitVec.ofNat 64 (muldivu64 next nsInS pitFreq)
    -- fix potential rounding problems
    if nextTime ≤ currentTime then currentTime + 1 else nextTime

/-! ## The interrupt timer -/

/-- `pit_irq_timer_update`, of channel `i`. -/
def pitIrqTimerUpdate (pit : PITCommonState) (i : Fin 3) (currentTime : BitVec 64) :
    PITCommonState :=
  let s := pit.channels i
  if !s.irqTimer || s.irqDisabled then pit
  else
    let expireTime := pitGetNextTransitionTime s currentTime
    let irqLevel := pitGetOut s currentTime
    let pit := (pit.emit (.setIrqLevel irqLevel)).setChannel i
      { s with nextTransitionTime := expireTime }
    pit.emit (if expireTime ≠ -1 then .oneshotAbsolute expireTime else .stop)

/-- `pit_irq_timer` -/
def pitIrqTimer (pit : PITCommonState) : PITCommonState :=
  pitIrqTimerUpdate pit 0 (pit.channels 0).nextTransitionTime

/-- `pit_timer_interrupt` -/
def pitTimerInterrupt (pit : PITCommonState) : PITCommonState := pitIrqTimer pit

/-- `pit_irq_control` -/
def pitIrqControl (pit : PITCommonState) (enable : Bool) (now : BitVec 64) : PITCommonState :=
  let s := pit.channels 0
  if enable then pitIrqTimerUpdate (pit.setChannel 0 { s with irqDisabled := false }) 0 now
  else (pit.setChannel 0 { s with irqDisabled := true }).emit .stop

/-! ## Port accesses -/

/-- `pit_load_count`, of channel `i`. -/
def pitLoadCount (pit : PITCommonState) (i : Fin 3) (val : ℕ) (now : BitVec 64) :
    PITCommonState :=
  let val := if val = 0 then 0x10000 else val
  let s := { pit.channels i with countLoadTime := now, count := val }
  pitIrqTimerUpdate (pit.setChannel i s) i now

/-- `pit_latch_count`: if already latched, do not latch again. -/
def pitLatchCount (s : PITChannelState) (now : BitVec 64) : PITChannelState :=
  if s.countLatched = 0 then
    { s with latchedCount := BitVec.ofNat 16 (pitGetCount s now), countLatched := s.rwMode }
  else s

/-- The read back command on channel `i`. -/
def readBack (s : PITChannelState) (i : Fin 3) (val : BitVec 8) (now now' : BitVec 64) :
    PITChannelState :=
  if val &&& (2 <<< i.val) ≠ 0 then
    let s := if val &&& 0x20 = 0 then pitLatchCount s now else s
    if val &&& 0x10 = 0 ∧ s.statusLatched = false then
      { s with
        status := BitVec.ofNat 8 (pitGetOut s now') <<< 7 ||| BitVec.ofNat 8 s.rwMode <<< 4 |||
          BitVec.ofNat 8 s.mode <<< 1 ||| BitVec.ofNat 8 s.bcd
        statusLatched := true }
    else s
  else s

/-- A command for one channel. -/
def command (s : PITChannelState) (val : BitVec 8) (now : BitVec 64) : PITChannelState :=
  let access := val.toNat / 16 % 4
  if access = 0 then pitLatchCount s now
  else
    { s with
      rwMode := access
      readState := access
      writeState := access
      mode := val.toNat / 2 % 8
      bcd := val.toNat % 2 }

/-- `pit_ioport_write` -/
def pitIoportWrite (pit : PITCommonState) (clock clock' : Fin 3 → BitVec 64) (addr : ℕ)
    (val : BitVec 8) : PITCommonState :=
  match addr % 4 with
  | 0 => writeCount 0
  | 1 => writeCount 1
  | 2 => writeCount 2
  | _ =>
    match val.toNat / 64 with
    | 0 => one 0
    | 1 => one 1
    | 2 => one 2
    | _ => { pit with channels := fun i ↦ readBack (pit.channels i) i val (clock i) (clock' i) }
where
  /-- A command for channel `i`. -/
  one (i : Fin 3) : PITCommonState :=
    pit.setChannel i (command (pit.channels i) val (clock i))
  /-- A byte of a count for channel `i`. -/
  writeCount (i : Fin 3) : PITCommonState :=
    let s := pit.channels i
    if s.writeState = rwStateMsb then pitLoadCount pit i (val.toNat * 256) (clock i)
    else if s.writeState = rwStateWord0 then
      pit.setChannel i { s with writeLatch := val, writeState := rwStateWord1 }
    else if s.writeState = rwStateWord1 then
      let pit := pitLoadCount pit i (s.writeLatch.toNat + val.toNat * 256) (clock i)
      pit.setChannel i { pit.channels i with writeState := rwStateWord0 }
    else pitLoadCount pit i val.toNat (clock i)

/-- A read of a channel, `pit_ioport_read` but for the mode register. -/
def readChannel (s : PITChannelState) (now : BitVec 64) : BitVec 8 × PITChannelState :=
  let count := BitVec.ofNat 16 (pitGetCount s now)
  if s.statusLatched then (s.status, { s with statusLatched := false })
  else if s.countLatched ≠ 0 then
    if s.countLatched = rwStateMsb then
      ((s.latchedCount >>> 8).setWidth 8, { s with countLatched := 0 })
    else if s.countLatched = rwStateWord0 then
      (s.latchedCount.setWidth 8, { s with countLatched := rwStateMsb })
    else (s.latchedCount.setWidth 8, { s with countLatched := 0 })
  else if s.readState = rwStateMsb then ((count >>> 8).setWidth 8, s)
  else if s.readState = rwStateWord0 then
    (count.setWidth 8, { s with readState := rwStateWord1 })
  else if s.readState = rwStateWord1 then
    ((count >>> 8).setWidth 8, { s with readState := rwStateWord0 })
  else (count.setWidth 8, s)

/-- `pit_ioport_read`; the mode register is write only. -/
def pitIoportRead (pit : PITCommonState) (now : BitVec 64) (addr : ℕ) :
    BitVec 8 × PITCommonState :=
  match addr % 4 with
  | 0 => read 0
  | 1 => read 1
  | 2 => read 2
  | _ => (0, pit)
where
  /-- A read of channel `i`. -/
  read (i : Fin 3) : BitVec 8 × PITCommonState :=
    let (ret, s) := readChannel (pit.channels i) now
    (ret, pit.setChannel i s)

/-! ## Initialisation -/

/-- The `static` state before `pit_pre_init`: all zero. -/
def zeroChannel : PITChannelState where
  count := 0
  latchedCount := 0
  countLatched := 0
  statusLatched := false
  status := 0
  readState := 0
  writeState := 0
  writeLatch := 0
  rwMode := 0
  mode := 0
  bcd := 0
  gate := false
  countLoadTime := 0
  nextTransitionTime := 0
  irqTimer := false
  irqDisabled := false

/-- `pit_reset_common` -/
def pitResetCommon (pit : PITCommonState) (clock : Fin 3 → BitVec 64) : PITCommonState :=
  { pit with
    channels := fun i ↦
      let s := { pit.channels i with
        mode := 3, gate := decide (i ≠ 2), countLoadTime := clock i, count := 0x10000 }
      if i = 0 ∧ s.irqDisabled = false then
        { s with nextTransitionTime := pitGetNextTransitionTime s s.countLoadTime }
      else s }

/-- `pit_reset` -/
def pitReset (pit : PITCommonState) (clock : Fin 3 → BitVec 64) : PITCommonState :=
  let pit := pitResetCommon pit clock
  let s := pit.channels 0
  if s.irqDisabled then pit else pit.emit (.oneshotAbsolute s.nextTransitionTime)

/-- `pit_pre_init` -/
def pitPreInit (now : BitVec 64) (clock : Fin 3 → BitVec 64) : PITCommonState :=
  let pit : PITCommonState := { channels := fun _ ↦ zeroChannel, log := [] }
  let pit := pit.setChannel 0 { pit.channels 0 with irqTimer := true }
  pitReset (pitIrqControl pit true now) clock

end Pit
end CamkesVm
