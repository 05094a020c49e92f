import CamkesVm.Lib.Log
import CamkesVm.Lib.TimerService
import CamkesVm.Lib.Transition
import CamkesVm.Rtc.Cycle
import CamkesVm.Rtc.Port

/-!
# The RTC among its timers and its guest

`Machine` has the device and what the time server knows of its four timers.  A completion can be
handled only once it is recorded, that is after the timer was armed and expired; between the two the
guest may do what it likes, and the device may arm the timer again or stop it.

Three histories go with it, none of which the device looks at: how many update cycles were
completed, how many seconds were begun, and what was done to the internal time.

What an event does to the registers and the time of day depends on the rest of the device only in
which register is selected (`core_next`).

## What is here

* `Timer`, `command`, `periodicCommand`, `rtcTimerInterrupt`, `handle` — the timers by name, the
  effects of the device as requests for them, and what a completion makes the device do.
* `storeCmos`, `ackRegC`, `periodicPulse`, `leaveSetMode` — what there is to know of the core: four
  things that an access or a handler can do to it. `core_next` puts every event down to them.
* `Machine`, `Event`, `Enabled`, `next`, `Machine.Step` — the machine as a transition system.
* `ClockOp` — the history of the internal time.

What an event does to the registers and the time of day is looked up in `core_next`, and not in the
definitions of the ports, so a change to the ports is dealt with in one place.
-/

set_option autoImplicit false

namespace CamkesVm
namespace Rtc

open Transition TimerService EffectLog

/-! ## Timers -/

/-- The timers of the RTC. -/
inductive Timer
  /-- `TIMER_PERIODIC_TIMER` -/
  | periodic
  /-- `TIMER_COALESCED_TIMER` -/
  | coalesced
  /-- `TIMER_SECOND_TIMER` -/
  | second
  /-- `TIMER_SECOND_TIMER2` -/
  | second2
  deriving DecidableEq

/-- What an effect of the core asks of the time server. -/
def command : Effect → Option (Command Timer)
  | .setIrqLevel _ => none
  | .secondTimer _ => some (.arm .second)
  | .secondTimer2 _ => some (.arm .second2)

/-- What a request of the periodic interrupt asks of it. -/
def periodicCommand : PeriodicEffect → Option (Command Timer)
  | .periodicTimer _ => some (.arm .periodic)
  | .stopPeriodicTimer => some (.stop .periodic)
  | .coalescedTimer _ => some (.arm .coalesced)
  | .stopCoalescedTimer => some (.stop .coalesced)

/-- `rtc_timer_interrupt`, at time `now`. -/
def rtcTimerInterrupt (T : FieldTypes) (s : RTCDevice) (now : BitVec 64)
    (completed : Timer → Bool) : RTCDevice :=
  let s := if completed .periodic then rtcPeriodicTimer s else s
  let s := if completed .coalesced then rtcCoalescedTimer s now else s
  let s := if completed .second then s.core (rtcUpdateSecond T) else s
  if completed .second2 then s.core (rtcUpdateSecond2 T) else s

/-- The completion of one timer is handled. -/
def handle (T : FieldTypes) (s : RTCDevice) (now : BitVec 64) : Timer → RTCDevice
  | .periodic => rtcPeriodicTimer s
  | .coalesced => rtcCoalescedTimer s now
  | .second => s.core (rtcUpdateSecond T)
  | .second2 => s.core (rtcUpdateSecond2 T)

/-- Several completions are handled one after the other. -/
theorem rtcTimerInterrupt_eq_foldl (T : FieldTypes) (s : RTCDevice) (now : BitVec 64)
    (completed : Timer → Bool) :
    rtcTimerInterrupt T s now completed =
      ([.periodic, .coalesced, .second, .second2].filter completed).foldl
        (fun s timer ↦ handle T s now timer) s := by
  rw [List.foldl_filter]
  simp only [List.foldl_cons, List.foldl_nil]
  rfl

/-! ## The core -/

/-- The registers the guest edits the time in. -/
def dateRegisters : List (Fin 128) :=
  [rtcSeconds, rtcMinutes, rtcHours, rtcDayOfWeek, rtcDayOfMonth, rtcMonth, rtcYear]

/-- What the core does when a byte is written to register `i`. -/
def storeCmos (T : FieldTypes) (i : Fin 128) (data : BitVec 8) (s : RTCState) : RTCState :=
  if i ∈ dateRegisters then
    if setMode s then s.setCmos i data else rtcSetTime T (s.setCmos i data)
  else if i = rtcRegA then
    s.setCmos rtcRegA (data &&& ~~~regAUip ||| s.cmosData rtcRegA &&& regAUip)
  else if i = rtcRegB then writeRegB T data s
  else if i = rtcRegC ∨ i = rtcRegD then s
  else s.setCmos i data

/-- What the core does when register C is read. -/
def ackRegC (s : RTCState) : RTCState := (s.emit (.setIrqLevel 0)).setCmos rtcRegC 0

/-- What the core does when the periodic timer completes. -/
def periodicPulse (s : RTCState) : RTCState :=
  let s := if s.anyBit rtcRegB regBPie
    then (s.setCmos rtcRegC (s.cmosData rtcRegC ||| 0xc0)).emit (.setIrqLevel 1) else s
  if s.anyBit rtcRegB regBSqwe then s.emit (.setIrqLevel 1) else s

theorem onlyFlags_ackRegC (s : RTCState) : OnlyFlags s (ackRegC s) :=
  (OnlyFlags.refl.emit 0).setCmos 0

theorem onlyFlags_periodicPulse (s : RTCState) : OnlyFlags s (periodicPulse s) := by
  have hraise := OnlyFlags.ite ((OnlyFlags.refl.setCmos (s.cmosData rtcRegC ||| 0xc0)).emit 1)
    (OnlyFlags.refl (s := s)) (s.anyBit rtcRegB regBPie)
  exact OnlyFlags.ite (hraise.emit 1) hraise _

/-- A write to register B that enters set mode, or stays in it. -/
theorem writeRegB_of_set (T : FieldTypes) {data : BitVec 8} (h : data &&& regBSet ≠ 0)
    (s : RTCState) : writeRegB T data s =
      (s.setCmos rtcRegA (s.cmosData rtcRegA &&& ~~~regAUip)).setCmos rtcRegB
        (data &&& ~~~regBUie) := by
  have hset : (data &&& regBSet != 0) = true := bne_iff_ne.mpr h
  simp only [writeRegB, hset, if_true, Bool.not_true, Bool.and_false, Bool.false_eq_true, if_false]

/-- The time of day when set mode is left, if this is what happens. -/
def leaveSetMode (T : FieldTypes) (s : RTCState) : RTCState :=
  if setMode s then rtcSetTime T s else s

/-- A write to register B that leaves set mode, or is made outside. -/
theorem writeRegB_of_clear (T : FieldTypes) {data : BitVec 8} (h : data &&& regBSet = 0)
    (s : RTCState) : writeRegB T data s =
      if ((leaveSetMode T s).cmosData rtcRegB ^^^ data) &&& (regBDm ||| regB24h) != 0
      then rtcCopyDate T ((leaveSetMode T s).setCmos rtcRegB data)
      else (leaveSetMode T s).setCmos rtcRegB data := by
  have hclear : (data &&& regBSet != 0) = false := by rw [h, bne_self_eq_false]
  simp only [writeRegB, hclear, Bool.false_eq_true, if_false, Bool.not_false, Bool.and_true]
  rfl

/-- A write does nothing to the world outside, and puts off no update. -/
theorem log_storeCmos (T : FieldTypes) (i : Fin 128) (data : BitVec 8) (s : RTCState) :
    (storeCmos T i data s).log = s.log ∧
      (storeCmos T i data s).nextSecondTime = s.nextSecondTime := by
  have hregB : (writeRegB T data s).log = s.log ∧
      (writeRegB T data s).nextSecondTime = s.nextSecondTime := by
    by_cases h : data &&& regBSet = 0
    · rw [writeRegB_of_clear T h, leaveSetMode]
      split <;> split <;> exact ⟨rfl, rfl⟩
    · rw [writeRegB_of_set T h]
      exact ⟨rfl, rfl⟩
  rw [storeCmos]
  repeat' split
  all_goals first | exact ⟨rfl, rfl⟩ | exact hregB

section

variable (T : FieldTypes) (s : RTCDevice)

@[simp] theorem toRTCState_core (f : RTCState → RTCState) :
    (s.core f).toRTCState = f s.toRTCState := rfl

@[simp] theorem toRTCState_request (e : PeriodicEffect) :
    (s.request e).toRTCState = s.toRTCState := rfl

/-- The timer of the periodic interrupt is no business of the core. -/
@[simp] theorem toRTCState_rtcTimerUpdate (time : BitVec 64) :
    (rtcTimerUpdate s time).toRTCState = s.toRTCState := by
  -- taken apart, so that the other fields are not compared
  cases s
  rw [rtcTimerUpdate]
  dsimp only
  split <;> rfl

theorem toRTCState_rtcCoalescedTimerUpdate (now : BitVec 64) :
    (rtcCoalescedTimerUpdate s now).toRTCState = s.toRTCState := by
  rw [rtcCoalescedTimerUpdate]
  split <;> rfl

theorem toRTCState_raisePeriodic : (raisePeriodic s).toRTCState =
    (s.setCmos rtcRegC (s.cmosData rtcRegC ||| 0xc0)).emit (.setIrqLevel 1) := by
  rw [raisePeriodic]
  split <;> rfl

theorem toRTCState_ite (c : Bool) (s s' : RTCDevice) :
    (if c then s else s').toRTCState = if c then s.toRTCState else s'.toRTCState := by
  cases c <;> rfl

theorem toRTCState_rtcPeriodicTimer :
    (rtcPeriodicTimer s).toRTCState = periodicPulse s.toRTCState := by
  rw [rtcPeriodicTimer, periodicPulse]
  simp only [toRTCState_ite, toRTCState_core, toRTCState_raisePeriodic, toRTCState_rtcTimerUpdate]

theorem mem_dateRegisters {i : Fin 128} : i ∈ dateRegisters ↔
    i = rtcSeconds ∨ i = rtcMinutes ∨ i = rtcHours ∨ i = rtcDayOfWeek ∨ i = rtcDayOfMonth ∨
      i = rtcMonth ∨ i = rtcYear := by
  simp [dateRegisters]

/-- A write to a register other than B does not touch the set mode. -/
theorem setMode_setCmos {s : RTCState} {i : Fin 128} (h : i ≠ rtcRegB) (v : BitVec 8) :
    setMode (s.setCmos i v) = setMode s := by
  rw [setMode, setMode, RTCState.anyBit, RTCState.anyBit, setCmos_of_ne _ h.symm]

theorem toRTCState_cmosIoportWrite (now : BitVec 64) (addr : ℕ) (data : BitVec 8) :
    (cmosIoportWrite T s now addr data).toRTCState =
      if addr % 2 = 0 then s.toRTCState else storeCmos T s.cmosIndex data s.toRTCState := by
  rw [cmosIoportWrite]
  generalize hi : s.cmosIndex = i
  dsimp only
  split
  · rfl
  · split
    · rename_i halarm
      rcases halarm with rfl | rfl | rfl <;> rfl
    · rw [storeCmos]
      simp only [mem_dateRegisters]
      split
      · rename_i hdate
        have hne : i ≠ rtcRegB := by
          rintro rfl
          revert hdate
          decide
        have hset : (s.core fun s ↦ s.setCmos i data).anyBit rtcRegB regBSet =
            setMode s.toRTCState := setMode_setCmos hne data
        rw [hset]
        cases setMode s.toRTCState <;> rfl
      · split
        · exact toRTCState_rtcTimerUpdate _ _
        · split
          · exact toRTCState_rtcTimerUpdate _ _
          · split <;> rfl

/-! ### The register selected -/

theorem cmosIndex_rtcTimerUpdate (time : BitVec 64) :
    (rtcTimerUpdate s time).cmosIndex = s.cmosIndex := by
  -- taken apart, so that the other fields are not compared
  cases s
  rw [rtcTimerUpdate]
  dsimp only
  split <;> rfl

theorem cmosIndex_handle (now : BitVec 64) (timer : Timer) :
    (handle T s now timer).cmosIndex = s.cmosIndex := by
  cases timer with
  | periodic =>
    have hupdate := cmosIndex_rtcTimerUpdate s s.nextPeriodicTime
    have hraise : ∀ s : RTCDevice, (raisePeriodic s).cmosIndex = s.cmosIndex := by
      intro s
      rw [raisePeriodic]
      split <;> rfl
    change (rtcPeriodicTimer s).cmosIndex = s.cmosIndex
    rw [rtcPeriodicTimer]
    split <;> split
    · exact (hraise _).trans hupdate
    · exact (hraise _).trans hupdate
    · exact hupdate
    · exact hupdate
  | coalesced =>
    change (rtcCoalescedTimer s now).cmosIndex = s.cmosIndex
    rw [rtcCoalescedTimer, rtcCoalescedTimerUpdate]
    split <;> split <;> rfl
  | second => rfl
  | second2 => rfl

theorem cmosIndex_cmosIoportWrite (now : BitVec 64) (addr : ℕ) (data : BitVec 8) :
    (cmosIoportWrite T s now addr data).cmosIndex =
      if addr % 2 = 0 then selected data else s.cmosIndex := by
  have hupdate : ∀ f, (rtcTimerUpdate (s.core f) now).cmosIndex = s.cmosIndex := fun f ↦
    cmosIndex_rtcTimerUpdate (s.core f) now
  rw [cmosIoportWrite]
  dsimp only
  split
  · rfl
  · repeat' split
    all_goals first | rfl | exact hupdate _

/-! ### No interrupt is ever coalesced -/

theorem scaled_of_none (h : s.irqCoalesced = 0) (period : BitVec 32) : scaled s period = 0 := by
  rw [scaled, h]
  split
  · simp
  · rfl

theorem irqCoalesced_rtcTimerUpdate (h : s.irqCoalesced = 0) (time : BitVec 64) :
    (rtcTimerUpdate s time).irqCoalesced = 0 := by
  rw [rtcTimerUpdate]
  split
  · exact scaled_of_none s h _
  · rfl

theorem irqCoalesced_handle (h : s.irqCoalesced = 0) (now : BitVec 64) (timer : Timer) :
    (handle T s now timer).irqCoalesced = 0 := by
  cases timer with
  | periodic =>
    have hupdate := irqCoalesced_rtcTimerUpdate s h s.nextPeriodicTime
    have hraise : ∀ s : RTCDevice, (raisePeriodic s).irqCoalesced = s.irqCoalesced := by
      intro s
      rw [raisePeriodic]
      split <;> rfl
    change (rtcPeriodicTimer s).irqCoalesced = 0
    rw [rtcPeriodicTimer]
    split <;> split
    · exact (hraise _).trans hupdate
    · exact (hraise _).trans hupdate
    · exact hupdate
    · exact hupdate
  | coalesced =>
    change (rtcCoalescedTimer s now).irqCoalesced = 0
    rw [rtcCoalescedTimer, if_neg (not_not_intro h), rtcCoalescedTimerUpdate, if_pos h]
    exact h
  | second => exact h
  | second2 => exact h

theorem irqCoalesced_cmosIoportWrite (h : s.irqCoalesced = 0) (now : BitVec 64) (addr : ℕ)
    (data : BitVec 8) : (cmosIoportWrite T s now addr data).irqCoalesced = 0 := by
  have hupdate : ∀ f, (rtcTimerUpdate (s.core f) now).irqCoalesced = 0 := fun f ↦
    irqCoalesced_rtcTimerUpdate (s.core f) h now
  rw [cmosIoportWrite]
  dsimp only
  repeat' split
  all_goals first | exact h | exact hupdate _

/-- A read acknowledges the interrupt if it is of register C. -/
theorem cmosIoportRead_snd (h : s.irqCoalesced = 0) (addr : ℕ) :
    (cmosIoportRead s addr).2 =
      if addr % 2 ≠ 0 ∧ s.cmosIndex = rtcRegC then s.core ackRegC else s := by
  rw [cmosIoportRead]
  by_cases heven : addr % 2 = 0
  · rw [if_pos heven, if_neg fun hboth ↦ hboth.1 heven]
  · by_cases hindex : s.cmosIndex = rtcRegC
    · have hnone : ¬((s.core fun s ↦ s.emit (.setIrqLevel 0)).irqCoalesced ≠ 0 ∧
          (s.core fun s ↦ s.emit (.setIrqLevel 0)).irqReinjectOnAckCount.toNat <
            rtcReinjectOnAckCount) := fun hno ↦ hno.1 h
      dsimp only
      rw [if_neg heven, if_pos hindex, if_neg hnone, if_pos ⟨heven, hindex⟩]
      rfl
    · dsimp only
      rw [if_neg heven, if_neg hindex, if_neg fun hboth ↦ hindex hboth.2]

/-- The core after a completion is handled. -/
theorem toRTCState_handle (h : s.irqCoalesced = 0) (now : BitVec 64) (timer : Timer) :
    (handle T s now timer).toRTCState =
      match timer with
      | .periodic => periodicPulse s.toRTCState
      | .coalesced => s.toRTCState
      | .second => rtcUpdateSecond T s.toRTCState
      | .second2 => rtcUpdateSecond2 T s.toRTCState := by
  cases timer with
  | periodic => exact toRTCState_rtcPeriodicTimer s
  | coalesced =>
    change (rtcCoalescedTimer s now).toRTCState = s.toRTCState
    rw [rtcCoalescedTimer, if_neg (not_not_intro h)]
    exact toRTCState_rtcCoalescedTimerUpdate s now
  | second => rfl
  | second2 => rfl

end

/-! ## The machine -/

/-- What is done to the internal time. -/
inductive ClockOp
  /-- It advances by a second. -/
  | tick
  /-- It is set. -/
  | set (tm : RtcTimeDate)
  deriving DecidableEq

/-- What can happen. -/
inductive Event
  /-- The guest reads a byte from a port. -/
  | portIn (addr : ℕ)
  /-- The guest writes a byte to a port. -/
  | portOut (addr : ℕ) (data : BitVec 8) (now : BitVec 64)
  /-- The deadline of a timer passes. -/
  | expire (timer : Timer)
  /-- A timer completion is collected and handled. -/
  | timer (timer : Timer) (now : BitVec 64)

/-- The device and what is around it. -/
structure Machine where
  /-- The device. -/
  rtc : RTCDevice
  /-- What the time server knows. -/
  timers : Timers Timer
  /-- How many update cycles were completed, or skipped because the oscillator was stopped. -/
  cycles : ℕ
  /-- How many seconds were begun, with the oscillator in normal operation. -/
  seconds : ℕ
  /-- What was done to the internal time, oldest first. -/
  clock : List ClockOp

/-- A write to register `i` sets the internal time: to a date register outside set mode, or to
register B to leave it. -/
def setsTime (s : RTCState) (i : Fin 128) (data : BitVec 8) : Prop :=
  (i ∈ dateRegisters ∧ setMode s = false) ∨
    (i = rtcRegB ∧ setMode s = true ∧ data &&& regBSet = 0)

instance (s : RTCState) (i : Fin 128) (data : BitVec 8) : Decidable (setsTime s i data) :=
  inferInstanceAs (Decidable (_ ∨ _))

/-- The registers a write to register `i` sets the time from. -/
def edited (s : RTCState) (i : Fin 128) (data : BitVec 8) : RTCState :=
  if i = rtcRegB then s else s.setCmos i data

namespace Machine

variable (T : FieldTypes)

/-- The device has done something: what it asked of the time server takes effect. -/
def withRtc (y : Machine) (s : RTCDevice) : Machine :=
  { y with
    rtc := s
    timers := (y.timers.obeyAll command (news y.rtc.log s.log)).obeyAll periodicCommand
      (news y.rtc.periodicLog s.periodicLog) }

/-- One event. -/
def next (y : Machine) : Event → Machine
  | .portIn addr => y.withRtc (cmosIoportRead y.rtc addr).2
  | .portOut addr data now =>
    { y.withRtc (cmosIoportWrite T y.rtc now addr data) with
      clock := y.clock ++
        if addr % 2 ≠ 0 ∧ setsTime y.rtc.toRTCState y.rtc.cmosIndex data
        then [.set (rtcSetTime T (edited y.rtc.toRTCState y.rtc.cmosIndex data)).currentTm]
        else [] }
  | .expire timer => { y with timers := y.timers.expire timer }
  | .timer timer now =>
    let begins := timer = .second ∧ oscillating y.rtc.toRTCState
    let completes := timer = .second2 ∨ timer = .second ∧ !oscillating y.rtc.toRTCState
    { { y with timers := y.timers.collect (· == timer) }.withRtc (handle T y.rtc now timer) with
      cycles := if completes then y.cycles + 1 else y.cycles
      seconds := if begins then y.seconds + 1 else y.seconds
      clock := if begins then y.clock ++ [.tick] else y.clock }

/-- When an event can happen. -/
def Enabled (y : Machine) : Event → Prop
  | .expire timer => y.timers.armed timer = true
  | .timer timer _ => y.timers.recorded timer = true
  | _ => True

instance (y : Machine) : (e : Event) → Decidable (y.Enabled e)
  | .expire _ | .timer _ _ => inferInstanceAs (Decidable (_ = _))
  | .portIn _ | .portOut _ _ _ => inferInstanceAs (Decidable True)

/-- The step relation of the machine. -/
abbrev Step : Machine → Event → Machine → Prop := Does Enabled (next T)

/-- The machine after `rtc_pre_init`. -/
def init (tm : RtcTimeDate) (now : ℤ) : Machine where
  rtc := rtcDevicePreInit T tm now
  timers := Timers.idle.obeyAll command (rtcPreInit T tm now).log
  cycles := 0
  seconds := 0
  clock := []

/-- **What an event does to the core**: register writes, the acknowledgement, and the three
handlers that have something to do. -/
theorem core_next {y : Machine} (h : y.rtc.irqCoalesced = 0) (e : Event) :
    (y.next T e).rtc.toRTCState =
      match e with
      | .portIn addr =>
        if addr % 2 ≠ 0 ∧ y.rtc.cmosIndex = rtcRegC then ackRegC y.rtc.toRTCState
        else y.rtc.toRTCState
      | .portOut addr data _ =>
        if addr % 2 = 0 then y.rtc.toRTCState
        else storeCmos T y.rtc.cmosIndex data y.rtc.toRTCState
      | .timer .periodic _ => periodicPulse y.rtc.toRTCState
      | .timer .second _ => rtcUpdateSecond T y.rtc.toRTCState
      | .timer .second2 _ => rtcUpdateSecond2 T y.rtc.toRTCState
      | .timer .coalesced _ => y.rtc.toRTCState
      | .expire _ => y.rtc.toRTCState := by
  cases e with
  | portIn addr =>
    change (cmosIoportRead y.rtc addr).2.toRTCState = _
    rw [cmosIoportRead_snd _ h]
    dsimp only
    split <;> rfl
  | portOut addr data now => exact toRTCState_cmosIoportWrite T y.rtc now addr data
  | expire timer => rfl
  | timer timer now =>
    have hcore := toRTCState_handle T y.rtc h now timer
    cases timer <;> exact hcore

/-- Only the guest selects a register. -/
theorem cmosIndex_next {y : Machine} (h : y.rtc.irqCoalesced = 0) (e : Event) :
    (y.next T e).rtc.cmosIndex =
      match e with
      | .portOut addr data _ => if addr % 2 = 0 then selected data else y.rtc.cmosIndex
      | _ => y.rtc.cmosIndex := by
  cases e with
  | portIn addr =>
    change (cmosIoportRead y.rtc addr).2.cmosIndex = y.rtc.cmosIndex
    rw [cmosIoportRead_snd _ h]
    split <;> rfl
  | portOut addr data now => exact cmosIndex_cmosIoportWrite T y.rtc now addr data
  | expire timer => rfl
  | timer timer now => exact cmosIndex_handle T y.rtc now timer

/-- Whatever happens, no interrupt is coalesced. -/
theorem irqCoalesced_next {y : Machine} (h : y.rtc.irqCoalesced = 0) (e : Event) :
    (y.next T e).rtc.irqCoalesced = 0 := by
  cases e with
  | portIn addr =>
    change (cmosIoportRead y.rtc addr).2.irqCoalesced = 0
    rw [cmosIoportRead_snd _ h]
    split <;> exact h
  | portOut addr data now => exact irqCoalesced_cmosIoportWrite T y.rtc h now addr data
  | expire timer => exact h
  | timer timer now => exact irqCoalesced_handle T y.rtc h now timer

theorem run_irqCoalesced {tm : RtcTimeDate} {now : ℤ} {es : List Event} {y : Machine}
    (h : Run (Step T) (init T tm now) es y) : y.rtc.irqCoalesced = 0 :=
  h.invariant (I := fun y ↦ y.rtc.irqCoalesced = 0) rfl
    fun _ e _ hnone hstep ↦ hstep.2 ▸ irqCoalesced_next T hnone e

end Machine

end Rtc
end CamkesVm
