import Mathlib.Data.BitVec
import Mathlib.Logic.Function.Basic

/-!
# The HPET: registers, helpers and outputs

The state of the emulated High Precision Event Timer of `components/Init/src/hpet.c`, with the small
functions that read it.  Registers are 64-bit words, as in the source; `seL4_Word` is 64 bits wide.

Two things the source does to the world outside its state are collected in `log`, in the order they
happen: the calls of `vm_set_irq_level`, and the calls of the two timer callbacks handed to
`hpet_pre_init`.  The time `current_time_ns()` is an argument, `now`, read once in a call of a
handler.

The fields `hpet_offset_saved` and `hpet_id` and the `hpet_pre_save`/`hpet_post_load` family serve a
migration feature nothing here calls, and are left out.

A timer has the fields of the source but for `state`, which points back to the device: a function
that takes a timer there takes the device and a position in the array here. The array has
`HPET_MAX_TIMERS` entries and is indexed by `Fin`, so an index that is out of range is not a state
of the model; `CamkesVm.Hpet.Mmio` returns `none` where the source computes one.
-/

set_option autoImplicit false

namespace CamkesVm
namespace Hpet

/-! ## Constants of `hpet.h` -/

/-- `HPET_BASE` -/
def hpetBase : ℕ := 0xfed00000

/-- `HPET_LEN` -/
def hpetLen : ℕ := 0x500

/-- `HPET_CLK_PERIOD`: one tick of the main counter is 10 ns. -/
def hpetClkPeriod : ℕ := 10

/-- `FS_PER_NS` -/
def fsPerNs : ℕ := 1000000

/-- `HPET_MIN_TIMERS` -/
def hpetMinTimers : ℕ := 3

/-- `HPET_MAX_TIMERS`: the length of the timer array. -/
abbrev hpetMaxTimers : ℕ := 3

/-- There are timers: a numeral names one. -/
scoped instance instNeZeroTimers : NeZero hpetMaxTimers := ⟨by decide⟩

/-- `HPET_CFG_ENABLE` -/
def hpetCfgEnable : BitVec 64 := 0x001

/-- `HPET_CFG_LEGACY` -/
def hpetCfgLegacy : BitVec 64 := 0x002

/-- `HPET_CFG_WRITE_MASK` -/
def hpetCfgWriteMask : BitVec 64 := 0x3

/-- `HPET_TN_TYPE_LEVEL` -/
def hpetTnTypeLevel : BitVec 64 := 0x002

/-- `HPET_TN_ENABLE` -/
def hpetTnEnable : BitVec 64 := 0x004

/-- `HPET_TN_PERIODIC` -/
def hpetTnPeriodic : BitVec 64 := 0x008

/-- `HPET_TN_PERIODIC_CAP` -/
def hpetTnPeriodicCap : BitVec 64 := 0x010

/-- `HPET_TN_SIZE_CAP` -/
def hpetTnSizeCap : BitVec 64 := 0x020

/-- `HPET_TN_SETVAL` -/
def hpetTnSetval : BitVec 64 := 0x040

/-- `HPET_TN_32BIT` -/
def hpetTn32bit : BitVec 64 := 0x100

/-- `HPET_TN_INT_ROUTE_MASK` -/
def hpetTnIntRouteMask : BitVec 64 := 0x3e00

/-- `HPET_TN_INT_ROUTE_SHIFT` -/
def hpetTnIntRouteShift : ℕ := 9

/-- `HPET_TN_FSB_ENABLE` -/
def hpetTnFsbEnable : BitVec 64 := 0x4000

/-- `HPET_TN_FSB_CAP` -/
def hpetTnFsbCap : BitVec 64 := 0x8000

/-- `HPET_TN_CFG_WRITE_MASK` -/
def hpetTnCfgWriteMask : BitVec 64 := 0x7f4e

/-- `HPET_ID_NUM_TIM_SHIFT` -/
def hpetIdNumTimShift : ℕ := 8

/-- `RTC_ISA_IRQ` -/
def rtcIsaIrq : ℕ := 8

/-- The bit of `flags` that says MSI is supported, `HPET_MSI_SUPPORT`. -/
def hpetMsiSupport : ℕ := 0

/-- The high half of a register, `0xffffffff00000000ULL`. -/
def highHalf : BitVec 64 := 0xffffffff00000000

/-- The low half of a register, `0xffffffffULL`. -/
def lowHalf : BitVec 64 := 0x00000000ffffffff

/-! ## State -/

/-- A comparator block, `HPETTimer`. -/
structure HPETTimer where
  /-- The timer's number. -/
  tn : ℕ
  /-- Configuration and capabilities. -/
  config : BitVec 64
  /-- The comparator. -/
  cmp : BitVec 64
  /-- The FSB route. -/
  fsb : BitVec 64
  /-- The last value written to the comparator. -/
  period : BitVec 64
  /-- Whether the next expiry of a 32-bit one-shot timer is only the counter wrapping. -/
  wrapFlag : Bool
  /-- The id of the timer server's timer behind this one. -/
  tid : ℕ
  deriving DecidableEq

/-- What the HPET does to the world outside. -/
inductive Effect
  /-- `vm_set_irq_level(route, level)` -/
  | setIrqLevel (route level : ℕ)
  /-- `timer_oneshot_callback(tid, ns)` -/
  | oneshot (tid : ℕ) (ns : BitVec 64)
  /-- `timer_stop_callback(tid)` -/
  | stop (tid : ℕ)
  deriving DecidableEq

/-- The device, `HPETState`, with what it has done so far. -/
structure HPETState where
  /-- What is added to the clock while the main counter runs, in nanoseconds. -/
  hpetOffset : BitVec 64
  /-- The feature flags. -/
  flags : BitVec 32
  /-- The level of the RTC's line that legacy mode hides. -/
  rtcIrqLevel : ℕ
  /-- How many of the timers exist. -/
  numTimers : ℕ
  /-- The interrupts a timer may be routed to. -/
  intcap : BitVec 32
  /-- The comparator blocks. -/
  timer : Fin hpetMaxTimers → HPETTimer
  /-- The capability register. -/
  capability : BitVec 64
  /-- The general configuration register. -/
  config : BitVec 64
  /-- The interrupt status register. -/
  isr : BitVec 64
  /-- The main counter, while it is halted. -/
  hpetCounter : BitVec 64
  /-- What has been done to the world outside, oldest first. -/
  log : List Effect
  deriving DecidableEq

/-- The effect of one call on the world outside. -/
def HPETState.emit (s : HPETState) (e : Effect) : HPETState := { s with log := s.log ++ [e] }

/-- Replaces timer `i`. -/
def HPETState.setTimer (s : HPETState) (i : Fin hpetMaxTimers) (t : HPETTimer) : HPETState :=
  { s with timer := Function.update s.timer i t }

/-! ## Tests on registers -/

/-- A C condition `x & mask`. -/
def anyBit (x mask : BitVec 64) : Bool := x &&& mask != 0

/-- `hpet_in_legacy_mode` -/
def hpetInLegacyMode (s : HPETState) : Bool := anyBit s.config hpetCfgLegacy

/-- `timer_int_route` -/
def timerIntRoute (t : HPETTimer) : ℕ :=
  ((t.config &&& hpetTnIntRouteMask) >>> hpetTnIntRouteShift).toNat

/-- `timer_fsb_route` -/
def timerFsbRoute (t : HPETTimer) : Bool := anyBit t.config hpetTnFsbEnable

/-- `hpet_enabled` -/
def hpetEnabled (s : HPETState) : Bool := anyBit s.config hpetCfgEnable

/-- `timer_is_periodic` -/
def timerIsPeriodic (t : HPETTimer) : Bool := anyBit t.config hpetTnPeriodic

/-- `timer_enabled` -/
def timerEnabled (t : HPETTimer) : Bool := anyBit t.config hpetTnEnable

/-- `t->config & HPET_TN_32BIT` -/
def timerIs32bit (t : HPETTimer) : Bool := anyBit t.config hpetTn32bit

/-- `hpet_time_after`: the sign of the 32-bit difference. -/
def hpetTimeAfter (a b : BitVec 64) : Bool := ((b - a).setWidth 32).msb

/-- `hpet_time_after64`: the sign of the 64-bit difference. -/
def hpetTimeAfter64 (a b : BitVec 64) : Bool := (b - a).msb

/-- `ticks_to_ns` -/
def ticksToNs (value : BitVec 64) : BitVec 64 := value * BitVec.ofNat 64 hpetClkPeriod

/-- `ns_to_ticks` -/
def nsToTicks (value : BitVec 64) : BitVec 64 := value / BitVec.ofNat 64 hpetClkPeriod

/-- `hpet_fixup_reg`: the bits of `new` that `mask` makes writable, the others from `old`. -/
def hpetFixupReg (new old mask : BitVec 64) : BitVec 64 := (new &&& mask) ||| (old &&& ~~~mask)

/-- `activating_bit` -/
def activatingBit (old new mask : BitVec 64) : Bool := !anyBit old mask && anyBit new mask

/-- `deactivating_bit` -/
def deactivatingBit (old new mask : BitVec 64) : Bool := anyBit old mask && !anyBit new mask

/-- `hpet_get_ticks`: the main counter while it runs. -/
def hpetGetTicks (s : HPETState) (now : BitVec 64) : BitVec 64 := nsToTicks (now + s.hpetOffset)

/-- `hpet_calculate_diff`: the ticks from `current` to the comparator, at least 1. -/
def hpetCalculateDiff (t : HPETTimer) (current : BitVec 64) : BitVec 64 :=
  if timerIs32bit t then
    let diff : BitVec 32 := t.cmp.setWidth 32 - current.setWidth 32
    (if 0 < diff.toInt then diff else 1).setWidth 64
  else
    let diff := t.cmp - current
    if 0 < diff.toInt then diff else 1

/-! ## Single bits

A test against a mask with one bit in it asks for that bit.  The masks are numerals, so which bit it
is has to be worked out once for each. -/

theorem anyBit_eq_getLsbD (x : BitVec 64) {mask : BitVec 64} {k : ℕ} (hk : k < 64)
    (hm : mask = BitVec.twoPow 64 k) : anyBit x mask = x.getLsbD k := by
  rw [anyBit, hm, BitVec.and_twoPow]
  cases hx : x.getLsbD k with
  | false => simp
  | true =>
    have hne : BitVec.twoPow 64 k ≠ 0 := by
      intro h
      have hbit := congrArg (fun y : BitVec 64 ↦ y.getLsbD k) h
      simp [hk] at hbit
    simpa using hne

theorem anyBit_cfgEnable (x : BitVec 64) : anyBit x hpetCfgEnable = x.getLsbD 0 :=
  anyBit_eq_getLsbD x (by decide) (by decide)

theorem anyBit_periodic (x : BitVec 64) : anyBit x hpetTnPeriodic = x.getLsbD 3 :=
  anyBit_eq_getLsbD x (by decide) (by decide)

theorem anyBit_32bit (x : BitVec 64) : anyBit x hpetTn32bit = x.getLsbD 8 :=
  anyBit_eq_getLsbD x (by decide) (by decide)

/-- A register whose low half was replaced by a fixed-up value: writable bits are as written. -/
theorem anyBit_fixup {mask bits : BitVec 64} (hmask : mask &&& bits = bits)
    (hlow : highHalf &&& bits = 0) (config new old : BitVec 64) :
    anyBit ((config &&& highHalf) ||| hpetFixupReg new old mask) bits = anyBit new bits := by
  have hold : ~~~mask &&& bits = 0#64 := by
    rw [← hmask, ← BitVec.and_assoc, BitVec.not_and_self]
    exact BitVec.zero_and
  have hnew : ((config &&& highHalf) ||| hpetFixupReg new old mask) &&& bits = new &&& bits := by
    rw [hpetFixupReg, BitVec.and_or_distrib_right, BitVec.and_or_distrib_right, BitVec.and_assoc,
      BitVec.and_assoc, BitVec.and_assoc, hlow, hmask, hold]
    simp
  rw [anyBit, anyBit, hnew]

/-! ## Halves

A guest writes registers 32 bits at a time. -/

/-- The low half of a register. -/
def loHalf (x : BitVec 64) : BitVec 32 := x.setWidth 32

/-- The high half of a register. -/
def hiHalf (x : BitVec 64) : BitVec 32 := (x >>> 32).setWidth 32

theorem eq_zero_iff_halves (x : BitVec 64) : x = 0 ↔ loHalf x = 0 ∧ hiHalf x = 0 := by
  have hx := x.isLt
  simp only [BitVec.toNat_eq, loHalf, hiHalf, BitVec.toNat_setWidth, BitVec.toNat_ushiftRight,
    BitVec.ofNat_eq_ofNat, BitVec.toNat_ofNat, Nat.shiftRight_eq_div_pow]
  omega

section

variable (x y : BitVec 64)

theorem loHalf_and : loHalf (x &&& y) = loHalf x &&& loHalf y := BitVec.setWidth_and

theorem hiHalf_and : hiHalf (x &&& y) = hiHalf x &&& hiHalf y := by
  rw [hiHalf, BitVec.ushiftRight_and_distrib, BitVec.setWidth_and]
  rfl

@[simp] theorem loHalf_or : loHalf (x ||| y) = loHalf x ||| loHalf y := BitVec.setWidth_or

@[simp] theorem hiHalf_or : hiHalf (x ||| y) = hiHalf x ||| hiHalf y := by
  rw [hiHalf, BitVec.ushiftRight_or_distrib, BitVec.setWidth_or]
  rfl

@[simp] theorem loHalf_and_highHalf : loHalf (x &&& highHalf) = 0 := by
  rw [loHalf_and, show loHalf highHalf = 0 by decide, BitVec.ofNat_eq_ofNat, BitVec.and_zero]

@[simp] theorem hiHalf_and_highHalf : hiHalf (x &&& highHalf) = hiHalf x := by
  rw [hiHalf_and, show hiHalf highHalf = BitVec.allOnes 32 by decide, BitVec.and_allOnes]

@[simp] theorem loHalf_and_lowHalf : loHalf (x &&& lowHalf) = loHalf x := by
  rw [loHalf_and, show loHalf lowHalf = BitVec.allOnes 32 by decide, BitVec.and_allOnes]

@[simp] theorem hiHalf_and_lowHalf : hiHalf (x &&& lowHalf) = 0 := by
  rw [hiHalf_and, show hiHalf lowHalf = 0 by decide, BitVec.ofNat_eq_ofNat, BitVec.and_zero]

@[simp] theorem loHalf_shiftLeft : loHalf (x <<< 32) = 0 := by
  ext i hi
  simp [loHalf]

@[simp] theorem hiHalf_shiftLeft : hiHalf (x <<< 32) = loHalf x := by
  ext i hi
  have hin : 32 + i < 64 := by omega
  simp [loHalf, hiHalf, hin, BitVec.getLsbD_eq_getElem (show i < 64 by omega)]

@[simp] theorem loHalf_setWidth : loHalf (((x.setWidth 32).setWidth 64)) = loHalf x := by
  simp [loHalf]

@[simp] theorem hiHalf_setWidth : hiHalf (((x.setWidth 32).setWidth 64)) = 0 := by
  ext i hi
  simp [hiHalf]

end

end Hpet
end CamkesVm
