import CamkesVm.Hpet.State
import CamkesVm.Lib.FuelLoop

/-!
# The HPET: what a timer does

`update_irq`, which turns the state of a timer into a level on its interrupt line; `hpet_set_timer`
and `hpet_del_timer`, which start and stop the one-shot of the timer server behind a timer; and
`hpet_timer`, which runs when that one-shot expires.  The last has two `while` loops, which is why
it takes fuel and may fail to return.

The simp set says what these functions leave alone: the general registers, the offset and the number
of timers.  Nothing later unfolds them for that.

* `updateIrq` — one call for one timer, with the cases of the source: not enabled or not set, the
  FSB, level and edge.
* `hpetSetTimer`, `hpetDelTimer`, `armToComparator` — the calls of the two callbacks.
* `catchUp32`, `catchUp64`, `hpetTimer` — the expiry.
* `updateIrq_frame`, `hpetSetTimer_frame`, `hpetTimer_frame` — everything that can be different
  afterwards.
-/

set_option autoImplicit false

namespace CamkesVm
namespace Hpet

open FuelLoop

/-! ## The functions -/

/-- The interrupt line timer `t` drives. -/
def irqRoute (s : HPETState) (t : HPETTimer) : ℕ :=
  if t.tn ≤ 1 && hpetInLegacyMode s then
    -- the legacy replacement route: timer 0 is IRQ0 and timer 1 is IRQ8
    if t.tn = 0 then 0 else rtcIsaIrq
  else timerIntRoute t

/-- `update_irq` -/
def updateIrq (s : HPETState) (i : Fin hpetMaxTimers) (set : Bool) : HPETState :=
  let t := s.timer i
  let route := irqRoute s t
  let mask : BitVec 64 := 1 <<< t.tn
  if !set || !timerEnabled t || !hpetEnabled s then
    let s := { s with isr := s.isr &&& ~~~mask }
    if timerFsbRoute t then s else s.emit (.setIrqLevel route 0)
  else if timerFsbRoute t then s
  else if anyBit t.config hpetTnTypeLevel then
    { s with isr := s.isr ||| mask }.emit (.setIrqLevel route 1)
  else
    ({ s with isr := s.isr &&& ~~~mask }.emit (.setIrqLevel route 1)).emit (.setIrqLevel route 0)

/-- `hpet_set_timer`: starts the one-shot for the distance to the comparator, or to the wrap of the
counter where a 32-bit one-shot comes to that first. -/
def hpetSetTimer (s : HPETState) (i : Fin hpetMaxTimers) (now : BitVec 64) : HPETState :=
  let t := { s.timer i with wrapFlag := false }
  let curTick := hpetGetTicks s now
  let diff := hpetCalculateDiff t curTick
  let wrapDiff : BitVec 32 := 0xffffffff - curTick.setWidth 32
  if timerIs32bit t && !timerIsPeriodic t && decide (wrapDiff.toNat < (diff.setWidth 32).toNat) then
    (s.setTimer i { t with wrapFlag := true }).emit
      (.oneshot t.tid (ticksToNs (wrapDiff.setWidth 64)))
  else
    (s.setTimer i t).emit (.oneshot t.tid (ticksToNs diff))

/-- `hpet_del_timer` -/
def hpetDelTimer (s : HPETState) (i : Fin hpetMaxTimers) : HPETState :=
  updateIrq (s.emit (.stop (s.timer i).tid)) i false

/-- The catch-up loop of `hpet_timer` over the comparator in 32-bit periodic mode. -/
def catchUp32 (fuel : ℕ) (curTick period cmp : BitVec 64) : Option (BitVec 64) :=
  whileFuel (hpetTimeAfter curTick) (fun cmp ↦ ((cmp + period).setWidth 32).setWidth 64) fuel cmp

/-- The catch-up loop of `hpet_timer` over the comparator in 64-bit periodic mode. -/
def catchUp64 (fuel : ℕ) (curTick period cmp : BitVec 64) : Option (BitVec 64) :=
  whileFuel (hpetTimeAfter64 curTick) (fun cmp ↦ cmp + period) fuel cmp

/-- Starts the one-shot of timer `i` for the distance to its comparator. -/
def armToComparator (s : HPETState) (i : Fin hpetMaxTimers) (curTick : BitVec 64) : HPETState :=
  s.emit (.oneshot (s.timer i).tid (ticksToNs (hpetCalculateDiff (s.timer i) curTick)))

/-- `hpet_timer`, the expiry of timer `i`; `none` if a loop is still running after `fuel` rounds. -/
def hpetTimer (fuel : ℕ) (s : HPETState) (i : Fin hpetMaxTimers) (now : BitVec 64) :
    Option HPETState :=
  let t := s.timer i
  let curTick := hpetGetTicks s now
  if timerIsPeriodic t && t.period != 0 then
    let caught := if timerIs32bit t then catchUp32 fuel curTick t.period t.cmp
      else catchUp64 fuel curTick t.period t.cmp
    caught.map fun cmp ↦
      updateIrq (armToComparator (s.setTimer i { t with cmp := cmp }) i curTick) i true
  else if timerIs32bit t && !timerIsPeriodic t && t.wrapFlag then
    let s := armToComparator s i curTick
    some (updateIrq (s.setTimer i { t with wrapFlag := false }) i true)
  else some (updateIrq s i true)

/-- Timer `i` handles its expiry at time `now` in finitely many steps. -/
def HpetTimerEnds (s : HPETState) (i : Fin hpetMaxTimers) (now : BitVec 64) : Prop :=
  ∃ fuel, (hpetTimer fuel s i now).isSome

/-! ## What they leave alone -/

section

variable (s : HPETState) (i j : Fin hpetMaxTimers) (set : Bool) (now : BitVec 64) (e : Effect)
  (t : HPETTimer)

@[simp] theorem emit_timer : (s.emit e).timer = s.timer := rfl
@[simp] theorem emit_config : (s.emit e).config = s.config := rfl
@[simp] theorem emit_hpetOffset : (s.emit e).hpetOffset = s.hpetOffset := rfl
@[simp] theorem emit_hpetCounter : (s.emit e).hpetCounter = s.hpetCounter := rfl
@[simp] theorem emit_numTimers : (s.emit e).numTimers = s.numTimers := rfl

@[simp] theorem setTimer_timer : (s.setTimer i t).timer = Function.update s.timer i t := rfl
@[simp] theorem setTimer_config : (s.setTimer i t).config = s.config := rfl
@[simp] theorem setTimer_hpetOffset : (s.setTimer i t).hpetOffset = s.hpetOffset := rfl
@[simp] theorem setTimer_hpetCounter : (s.setTimer i t).hpetCounter = s.hpetCounter := rfl
@[simp] theorem setTimer_numTimers : (s.setTimer i t).numTimers = s.numTimers := rfl

/-- `update_irq` changes the status register and the interrupt lines, and nothing else. -/
theorem updateIrq_frame : ∃ isr log, updateIrq s i set = { s with isr := isr, log := log } := by
  simp only [updateIrq]
  split <;> split <;> first | exact ⟨_, _, rfl⟩ | (split <;> exact ⟨_, _, rfl⟩)

@[simp] theorem updateIrq_timer : (updateIrq s i set).timer = s.timer := by
  obtain ⟨_, _, h⟩ := updateIrq_frame s i set; rw [h]

@[simp] theorem updateIrq_config : (updateIrq s i set).config = s.config := by
  obtain ⟨_, _, h⟩ := updateIrq_frame s i set; rw [h]

@[simp] theorem updateIrq_hpetOffset : (updateIrq s i set).hpetOffset = s.hpetOffset := by
  obtain ⟨_, _, h⟩ := updateIrq_frame s i set; rw [h]

@[simp] theorem updateIrq_numTimers : (updateIrq s i set).numTimers = s.numTimers := by
  obtain ⟨_, _, h⟩ := updateIrq_frame s i set; rw [h]

/-- `hpet_set_timer` changes the wrap flag of its timer and starts a one-shot, and nothing else. -/
theorem hpetSetTimer_frame : ∃ w log, hpetSetTimer s i now =
    { s.setTimer i { s.timer i with wrapFlag := w } with log := log } := by
  simp only [hpetSetTimer]
  split <;> exact ⟨_, _, rfl⟩

@[simp] theorem hpetSetTimer_config : (hpetSetTimer s i now).config = s.config := by
  obtain ⟨_, _, h⟩ := hpetSetTimer_frame s i now; rw [h]; rfl

@[simp] theorem hpetSetTimer_hpetOffset : (hpetSetTimer s i now).hpetOffset = s.hpetOffset := by
  obtain ⟨_, _, h⟩ := hpetSetTimer_frame s i now; rw [h]; rfl

@[simp] theorem hpetSetTimer_numTimers : (hpetSetTimer s i now).numTimers = s.numTimers := by
  obtain ⟨_, _, h⟩ := hpetSetTimer_frame s i now; rw [h]; rfl

/-- Starting a timer leaves every timer's registers alone. -/
theorem hpetSetTimer_timer :
    ∃ w, (hpetSetTimer s i now).timer j = { s.timer j with wrapFlag := w } := by
  obtain ⟨w, _, h⟩ := hpetSetTimer_frame s i now
  rw [h]
  by_cases hj : j = i
  · subst hj
    exact ⟨w, by simp⟩
  · exact ⟨(s.timer j).wrapFlag, by simp [hj]⟩

@[simp] theorem hpetDelTimer_timer : (hpetDelTimer s i).timer = s.timer := by simp [hpetDelTimer]
@[simp] theorem hpetDelTimer_config : (hpetDelTimer s i).config = s.config := by
  simp [hpetDelTimer]
@[simp] theorem hpetDelTimer_numTimers : (hpetDelTimer s i).numTimers = s.numTimers := by
  simp [hpetDelTimer]

@[simp] theorem armToComparator_timer (cur : BitVec 64) :
    (armToComparator s i cur).timer = s.timer := rfl
@[simp] theorem armToComparator_config (cur : BitVec 64) :
    (armToComparator s i cur).config = s.config := rfl
@[simp] theorem armToComparator_hpetOffset (cur : BitVec 64) :
    (armToComparator s i cur).hpetOffset = s.hpetOffset := rfl
@[simp] theorem armToComparator_numTimers (cur : BitVec 64) :
    (armToComparator s i cur).numTimers = s.numTimers := rfl

end

/-- **All an expiry can do** to the registers: it moves its own timer's comparator and clears that
timer's wrap flag. -/
theorem hpetTimer_frame {fuel : ℕ} {s s' : HPETState} {i : Fin hpetMaxTimers} {now : BitVec 64}
    (h : hpetTimer fuel s i now = some s') :
    ∃ c w, s'.timer = Function.update s.timer i { s.timer i with cmp := c, wrapFlag := w } ∧
      s'.config = s.config ∧ s'.hpetOffset = s.hpetOffset ∧ s'.numTimers = s.numTimers := by
  simp only [hpetTimer] at h
  split at h
  · obtain ⟨c, -, rfl⟩ := Option.map_eq_some_iff.mp h
    exact ⟨c, (s.timer i).wrapFlag, by simp, by simp, by simp, by simp⟩
  · split at h
    · cases h
      exact ⟨(s.timer i).cmp, false, by simp, by simp, by simp, by simp⟩
    · cases h
      exact ⟨(s.timer i).cmp, (s.timer i).wrapFlag, by simp, by simp, by simp, by simp⟩

end Hpet
end CamkesVm
