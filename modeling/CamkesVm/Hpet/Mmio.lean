import CamkesVm.Hpet.Timer
import CamkesVm.Lib.Transition

/-!
# The HPET: guest accesses and the runs of the device

`vm_hpet_mmio_read` and `vm_hpet_mmio_write`, the initialisation in `hpet_pre_init`, and the system
they make with the expiries of `hpet_timer_interrupt`: `Label` is what can happen, `Step` one such
event, and a state is `Reachable` when a run of them leads to it.

Both access functions pick the comparator block a guest address belongs to by arithmetic on the
address and compare the number with `num_timers` before they use it; `selectTimer` is that choice.
Whether the number is an index of the array is another matter, and using one that is not makes the
access function return `none`: what the source does then depends on the bytes behind the array.

## What is here

* `vmHpetMmioRead`, `vmHpetMmioWrite` — the two functions as the source has them. A write reads the
  register first, to find out which bits change, so it fails where the read does.
* `writeTimerReg`, `writeGeneralReg` — the two `switch` statements, by the register, and
  `forTimers`, the loops over the timers in them.
* `hpetRealize`, `hpetReset`, `hpetPreInit` — the initialisation.
* `writeTimerReg_frame`, `writeCfg_frame`, `writeStatus_frame`, `vmHpetMmioWrite_cases` — what a
  write can change. Everything that is proved about runs goes by these, and not by the definitions.
-/

set_option autoImplicit false

namespace CamkesVm
namespace Hpet

open Transition

/-! ## Addressing -/

/-- `timer_id`: the number of the comparator block of an offset, an 8-bit value. -/
def timerId (offset : ℕ) : ℕ := (hpetBase + offset - 0x100) / 0x20 % 256

/-- The register of the block, `(addr - 0x100) % 0x20`. -/
def timerReg (offset : ℕ) : ℕ := (hpetBase + offset - 0x100) % 0x20

/-- Whether an offset lies in the address range of all timer registers. -/
def inTimerRange (offset : ℕ) : Bool := decide (0x100 ≤ offset) && decide (offset ≤ 0x3ff)

/-- The number of the timer an access at `offset` uses: the one of the addressed block, unless it is
rejected as out of range. -/
def selectTimer (s : HPETState) (offset : ℕ) : Option ℕ :=
  if timerId offset > s.numTimers then none else some (timerId offset)

/-- The timer array at an index that has passed that test. -/
def timerIndex (k : ℕ) : Option (Fin hpetMaxTimers) :=
  if h : k < hpetMaxTimers then some ⟨k, h⟩ else none

/-! ## Reads -/

/-- The registers of a comparator block. -/
def readTimerReg (t : HPETTimer) : ℕ → BitVec 64
  | 0x000 => t.config
  | 0x004 => t.config >>> 32
  | 0x008 => t.cmp
  | 0x00c => t.cmp >>> 32
  | 0x010 => t.fsb
  | 0x014 => t.fsb >>> 32
  | _ => 0

/-- The main counter as a guest reads it. -/
def readCounter (s : HPETState) (now : BitVec 64) : BitVec 64 :=
  if hpetEnabled s then hpetGetTicks s now else s.hpetCounter

/-- The general registers. -/
def readGeneralReg (s : HPETState) (now : BitVec 64) : ℕ → BitVec 64
  | 0x000 => s.capability
  | 0x004 => s.capability >>> 32
  | 0x010 => s.config
  | 0x020 => s.isr
  | 0x0f0 => readCounter s now
  | 0x0f4 => readCounter s now >>> 32
  | _ => 0

/-- Whether the register of a comparator block is one that `vm_hpet_mmio_read` and `_write` look the
block up for. -/
def isTimerReg (reg : ℕ) : Bool :=
  reg ∈ [0x000, 0x004, 0x008, 0x00c, 0x010, 0x014]

/-- `vm_hpet_mmio_read`; `none` if it reads behind the timer array. -/
def vmHpetMmioRead (s : HPETState) (now : BitVec 64) (offset : ℕ) : Option (BitVec 64) :=
  if inTimerRange offset then
    match selectTimer s offset with
    | none => some 0
    | some k =>
      if isTimerReg (timerReg offset) then
        (timerIndex k).map fun i ↦ readTimerReg (s.timer i) (timerReg offset)
      else some 0
  else some (readGeneralReg s now offset)

/-! ## Writes -/

/-- `HPET_TN_CFG` of `vm_hpet_mmio_write`, up to starting or stopping the timer: its new
registers. -/
def writeCfgRegs (t : HPETTimer) (oldVal newVal : BitVec 64) : HPETTimer :=
  let t := { t with
    config := (t.config &&& highHalf) ||| hpetFixupReg newVal oldVal hpetTnCfgWriteMask }
  if anyBit newVal hpetTn32bit then
    { t with cmp := (t.cmp.setWidth 32).setWidth 64, period := (t.period.setWidth 32).setWidth 64 }
  else t

theorem writeCfgRegs_config (t : HPETTimer) (oldVal newVal : BitVec 64) :
    (writeCfgRegs t oldVal newVal).config =
      (t.config &&& highHalf) ||| hpetFixupReg newVal oldVal hpetTnCfgWriteMask := by
  simp only [writeCfgRegs]
  split <;> rfl

/-- `HPET_TN_CFG` of `vm_hpet_mmio_write`. -/
def writeTimerCfg (s : HPETState) (now : BitVec 64) (i : Fin hpetMaxTimers)
    (oldVal newVal : BitVec 64) : HPETState :=
  let s := if activatingBit oldVal newVal hpetTnFsbEnable then updateIrq s i false else s
  let s := s.setTimer i (writeCfgRegs (s.timer i) oldVal newVal)
  if activatingBit oldVal newVal hpetTnEnable && hpetEnabled s then hpetSetTimer s i now
  else if deactivatingBit oldVal newVal hpetTnEnable then hpetDelTimer s i
  else s

/-- `(timer->config & HPET_TN_32BIT ? ~0u : ~0ull) >> 1` -/
def periodClamp (t : HPETTimer) : BitVec 64 :=
  if timerIs32bit t then 0x7fffffff else 0x7fffffffffffffff

/-- `HPET_TN_CMP` of `vm_hpet_mmio_write`, up to restarting the timer: its new registers. -/
def writeCmpLow (t : HPETTimer) (newVal : BitVec 64) : HPETTimer :=
  let newVal := if timerIs32bit t then (newVal.setWidth 32).setWidth 64 else newVal
  let cmp := if !timerIsPeriodic t || anyBit t.config hpetTnSetval
    then (t.cmp &&& highHalf) ||| newVal else t.cmp
  let period := if timerIsPeriodic t
    then (t.period &&& highHalf) ||| (newVal &&& periodClamp t) else t.period
  { t with cmp := cmp, period := period, config := t.config &&& ~~~hpetTnSetval }

/-- `HPET_TN_CMP + 4` of `vm_hpet_mmio_write`, up to restarting the timer: its new registers. -/
def writeCmpHigh (t : HPETTimer) (newVal : BitVec 64) : HPETTimer :=
  let t' := if !timerIsPeriodic t || anyBit t.config hpetTnSetval
    then { t with cmp := (t.cmp &&& lowHalf) ||| (newVal <<< 32) }
    else { t with period := (t.period &&& lowHalf) ||| ((newVal &&& periodClamp t) <<< 32) }
  { t' with config := t'.config &&& ~~~hpetTnSetval }

/-- Gives timer `i` new comparator registers and restarts it if the HPET is running. -/
def storeCmp (s : HPETState) (now : BitVec 64) (i : Fin hpetMaxTimers) (t : HPETTimer) :
    HPETState :=
  let s := s.setTimer i t
  if hpetEnabled s then hpetSetTimer s i now else s

/-- The registers of comparator block `i`. -/
def writeTimerReg (s : HPETState) (now : BitVec 64) (i : Fin hpetMaxTimers)
    (oldVal newVal : BitVec 64) : ℕ → HPETState
  | 0x000 => writeTimerCfg s now i oldVal newVal
  | 0x008 => storeCmp s now i (writeCmpLow (s.timer i) newVal)
  | 0x00c => storeCmp s now i (writeCmpHigh (s.timer i) newVal)
  | 0x010 => s.setTimer i { s.timer i with fsb := ((s.timer i).fsb &&& highHalf) ||| newVal }
  | 0x014 => s.setTimer i
      { s.timer i with fsb := (newVal <<< 32) ||| ((s.timer i).fsb &&& lowHalf) }
  | _ => s

/-- A `for` loop over the existing timers. -/
def forTimers (s : HPETState) (f : HPETState → Fin hpetMaxTimers → HPETState) : HPETState :=
  ((List.finRange hpetMaxTimers).filter fun i ↦ i.val < s.numTimers).foldl f s

/-- The main counter starts: `hpet_offset` becomes the distance from the clock to the counter. -/
def startOffset (s : HPETState) (now : BitVec 64) : BitVec 64 :=
  let ticks := ticksToNs s.hpetCounter
  if ticks < now then 0 else ticks - now

/-- `HPET_CFG` of `vm_hpet_mmio_write`. -/
def writeCfg (s : HPETState) (now : BitVec 64) (oldVal newVal : BitVec 64) : HPETState :=
  let val := hpetFixupReg newVal oldVal hpetCfgWriteMask
  let s := { s with config := (s.config &&& highHalf) ||| val }
  let s :=
    if activatingBit oldVal newVal hpetCfgEnable then
      -- enable the main counter and interrupt generation
      forTimers { s with hpetOffset := startOffset s now } fun s i ↦
        if (s.timer i).cmp != BitVec.allOnes 64 then hpetSetTimer s i now else s
    else if deactivatingBit oldVal newVal hpetCfgEnable then
      -- halt the main counter and disable interrupt generation
      forTimers { s with hpetCounter := hpetGetTicks s now } hpetDelTimer
    else s
  -- i8254 and RTC output pins are disabled when the HPET is in legacy mode
  if activatingBit oldVal newVal hpetCfgLegacy then
    (s.emit (.setIrqLevel 0 0)).emit (.setIrqLevel rtcIsaIrq 0)
  else if deactivatingBit oldVal newVal hpetCfgLegacy then
    (s.emit (.setIrqLevel 0 0)).emit (.setIrqLevel rtcIsaIrq s.rtcIrqLevel)
  else s

/-- `HPET_STATUS` of `vm_hpet_mmio_write`: acknowledges the timers whose bit is written. -/
def writeStatus (s : HPETState) (newVal : BitVec 64) : HPETState :=
  let val := newVal &&& s.isr
  forTimers s fun s i ↦ if val.getLsbD i then updateIrq s i false else s

/-- The general registers. -/
def writeGeneralReg (s : HPETState) (now : BitVec 64) (oldVal newVal : BitVec 64) : ℕ → HPETState
  | 0x010 => writeCfg s now oldVal newVal
  | 0x020 => writeStatus s newVal
  | 0x0f0 => { s with hpetCounter := (s.hpetCounter &&& highHalf) ||| newVal }
  | 0x0f4 => { s with hpetCounter := (s.hpetCounter &&& lowHalf) ||| (newVal <<< 32) }
  | _ => s

/-- `vm_hpet_mmio_write`; `none` if it uses memory behind the timer array.  It reads the register
first, to see which bits change. -/
def vmHpetMmioWrite (s : HPETState) (now : BitVec 64) (offset : ℕ) (value : BitVec 64) :
    Option HPETState :=
  (vmHpetMmioRead s now offset).bind fun oldVal ↦
    if inTimerRange offset then
      match selectTimer s offset with
      | none => some s
      | some k =>
        if isTimerReg (timerReg offset) then
          (timerIndex k).map fun i ↦ writeTimerReg s now i oldVal value (timerReg offset)
        else some s
    else some (writeGeneralReg s now oldVal value offset)

/-! ## Initialisation -/

/-- The `static` state before `hpet_pre_init`: all zero. -/
def zeroState : HPETState where
  hpetOffset := 0
  flags := 0
  rtcIrqLevel := 0
  numTimers := 0
  intcap := 0
  timer _ := { tn := 0, config := 0, cmp := 0, fsb := 0, period := 0, wrapFlag := false, tid := 0 }
  capability := 0
  config := 0
  isr := 0
  hpetCounter := 0
  log := []

/-- `hpet_realize` -/
def hpetRealize (s : HPETState) (hpetIdBase : ℕ) : HPETState :=
  { s with
    timer := fun i ↦ { s.timer i with tid := hpetIdBase + i, tn := i }
    numTimers := hpetMinTimers
    capability := 0x8086a001 ||| (BitVec.ofNat 64 (hpetMinTimers - 1) <<< hpetIdNumTimShift) |||
      (BitVec.ofNat 64 (hpetClkPeriod * fsPerNs) <<< 32) }

/-- The loop body of `hpet_reset`. -/
def hpetResetTimer (s : HPETState) (i : Fin hpetMaxTimers) : HPETState :=
  let s := hpetDelTimer s i
  let cap := hpetTnPeriodicCap ||| hpetTnSizeCap
  let cap := if s.flags.getLsbD hpetMsiSupport then cap ||| hpetTnFsbCap else cap
  s.setTimer i { s.timer i with
    cmp := BitVec.allOnes 64
    config := cap ||| (s.intcap.setWidth 64 <<< 32)
    period := 0
    wrapFlag := false }

/-- `hpet_reset` -/
def hpetReset (s : HPETState) : HPETState :=
  { forTimers s hpetResetTimer with
    hpetCounter := 0, hpetOffset := 0, config := 0, rtcIrqLevel := 0 }

/-- `hpet_pre_init` -/
def hpetPreInit (hpetIdBase : ℕ) : HPETState := hpetReset (hpetRealize zeroState hpetIdBase)

/-! ## Runs -/

/-- What can happen to the device: a guest access at an offset below `HPET_LEN`, or the expiry of a
timer's one-shot.  Each happens at some time. -/
inductive Label
  /-- A guest read. -/
  | read (offset : ℕ) (now : BitVec 64)
  /-- A guest write. -/
  | write (offset : ℕ) (value now : BitVec 64)
  /-- `hpet_timer_interrupt` for timer `i`. -/
  | expire (i : Fin hpetMaxTimers) (now : BitVec 64)

/-- One event.  There is no step for an access that uses memory behind the timer array, and none for
an expiry that never returns. -/
inductive Step : HPETState → Label → HPETState → Prop
  | read {s : HPETState} {offset : ℕ} {now r : BitVec 64} (ho : offset < hpetLen)
      (h : vmHpetMmioRead s now offset = some r) : Step s (.read offset now) s
  | write {s s' : HPETState} {offset : ℕ} {value now : BitVec 64} (ho : offset < hpetLen)
      (h : vmHpetMmioWrite s now offset value = some s') : Step s (.write offset value now) s'
  | expire {s s' : HPETState} {i : Fin hpetMaxTimers} {now : BitVec 64} {fuel : ℕ}
      (h : hpetTimer fuel s i now = some s') : Step s (.expire i now) s'

/-- The states the device comes to from `hpet_pre_init`. -/
def Reachable (s : HPETState) : Prop :=
  ∃ hpetIdBase as, Run Step (hpetPreInit hpetIdBase) as s

/-! ## What a write leaves alone -/

/-- A loop over the timers keeps what each round keeps. -/
theorem forTimers_induct {P : HPETState → Prop} {f : HPETState → Fin hpetMaxTimers → HPETState}
    (hf : ∀ s i, P s → P (f s i)) {s : HPETState} (h : P s) : P (forTimers s f) := by
  rw [forTimers]
  generalize (List.finRange hpetMaxTimers).filter _ = l
  induction l generalizing s with
  | nil => exact h
  | cons i l ih => exact ih (hf s i h)

theorem forTimers_frame {β : Type} (g : HPETState → β)
    {f : HPETState → Fin hpetMaxTimers → HPETState}
    (hf : ∀ s i, g (f s i) = g s) (s : HPETState) : g (forTimers s f) = g s :=
  forTimers_induct (P := fun s' ↦ g s' = g s) (fun s' i h ↦ (hf s' i).trans h) rfl

/-- The registers of a timer after a write to one of them. -/
def writeRegs (t : HPETTimer) (oldVal newVal : BitVec 64) : ℕ → HPETTimer
  | 0x000 => writeCfgRegs t oldVal newVal
  | 0x008 => writeCmpLow t newVal
  | 0x00c => writeCmpHigh t newVal
  | 0x010 => { t with fsb := (t.fsb &&& highHalf) ||| newVal }
  | 0x014 => { t with fsb := (newVal <<< 32) ||| (t.fsb &&& lowHalf) }
  | _ => t

/-- **All a write to a comparator block can do** to the registers: new values for its own timer,
whose wrap flag a restart may change. -/
theorem writeTimerReg_frame (s : HPETState) (now : BitVec 64) (i : Fin hpetMaxTimers)
    (oldVal newVal : BitVec 64) (reg : ℕ) :
    let s' := writeTimerReg s now i oldVal newVal reg
    (∀ j, ∃ w, s'.timer j =
      { Function.update s.timer i (writeRegs (s.timer i) oldVal newVal reg) j with
        wrapFlag := w }) ∧
      s'.config = s.config ∧ s'.hpetOffset = s.hpetOffset ∧ s'.numTimers = s.numTimers := by
  -- a timer that is given new registers and then perhaps restarted or stopped
  have hset : ∀ (s₁ : HPETState) (t : HPETTimer), s₁.timer = s.timer → s₁.config = s.config →
      s₁.hpetOffset = s.hpetOffset → s₁.numTimers = s.numTimers →
      ∀ s', (s' = s₁.setTimer i t ∨ s' = hpetSetTimer (s₁.setTimer i t) i now ∨
        s' = hpetDelTimer (s₁.setTimer i t) i) →
      (∀ j, ∃ w, s'.timer j = { Function.update s.timer i t j with wrapFlag := w }) ∧
        s'.config = s.config ∧ s'.hpetOffset = s.hpetOffset ∧ s'.numTimers = s.numTimers := by
    rintro s₁ t ht hc ho hn s' (rfl | rfl | rfl)
    · exact ⟨fun j ↦ ⟨_, by rw [setTimer_timer, ht]⟩, hc, ho, hn⟩
    · refine ⟨fun j ↦ ?_, by simpa, by simpa, by simpa⟩
      obtain ⟨w, hw⟩ := hpetSetTimer_timer (s₁.setTimer i t) i j now
      exact ⟨w, by rw [hw, setTimer_timer, ht]⟩
    · refine ⟨fun j ↦ ⟨_, by rw [hpetDelTimer_timer, setTimer_timer, ht]⟩, by simpa, ?_, by simpa⟩
      simpa [hpetDelTimer] using ho
  intro s'
  simp only [s', writeTimerReg.eq_def, writeRegs.eq_def]
  split
  · rw [writeTimerCfg]
    split
    · refine hset (updateIrq s i false) (writeCfgRegs (s.timer i) oldVal newVal)
        (by simp) (by simp) (by simp) (by simp) _ ?_
      rw [updateIrq_timer]
      split
      · exact .inr (.inl rfl)
      · split
        · exact .inr (.inr rfl)
        · exact .inl rfl
    · refine hset s (writeCfgRegs (s.timer i) oldVal newVal) rfl rfl rfl rfl _ ?_
      split
      · exact .inr (.inl rfl)
      · split
        · exact .inr (.inr rfl)
        · exact .inl rfl
  · refine hset s (writeCmpLow (s.timer i) newVal) rfl rfl rfl rfl _ ?_
    rw [storeCmp]
    split
    · exact .inr (.inl rfl)
    · exact .inl rfl
  · refine hset s (writeCmpHigh (s.timer i) newVal) rfl rfl rfl rfl _ ?_
    rw [storeCmp]
    split
    · exact .inr (.inl rfl)
    · exact .inl rfl
  · exact hset s _ rfl rfl rfl rfl _ (.inl rfl)
  · exact hset s _ rfl rfl rfl rfl _ (.inl rfl)
  · exact hset s _ rfl rfl rfl rfl _ (.inl (by simp [HPETState.setTimer]))

/-- **All a write to the configuration register can do**, as seen by anything that neither the
timers nor the interrupt lines change: a new configuration, and the offset or the halted counter. -/
theorem writeCfg_frame {β : Type} (g : HPETState → β) (hemit : ∀ s e, g (s.emit e) = g s)
    (hset : ∀ s i now, g (hpetSetTimer s i now) = g s) (hdel : ∀ s i, g (hpetDelTimer s i) = g s)
    (s : HPETState) (now oldVal newVal : BitVec 64) :
    g (writeCfg s now oldVal newVal) =
      let s' := { s with
        config := (s.config &&& highHalf) ||| hpetFixupReg newVal oldVal hpetCfgWriteMask }
      g (if activatingBit oldVal newVal hpetCfgEnable then
          { s' with hpetOffset := startOffset s' now }
        else if deactivatingBit oldVal newVal hpetCfgEnable then
          { s' with hpetCounter := hpetGetTicks s' now }
        else s') := by
  -- the legacy interrupt lines come last, and only emit
  have hlegacy : ∀ s₁ s₂ : HPETState, g s₁ = g s₂ →
      g (if activatingBit oldVal newVal hpetCfgLegacy then
        (s₁.emit (.setIrqLevel 0 0)).emit (.setIrqLevel rtcIsaIrq 0)
      else if deactivatingBit oldVal newVal hpetCfgLegacy then
        (s₁.emit (.setIrqLevel 0 0)).emit (.setIrqLevel rtcIsaIrq s₁.rtcIrqLevel)
      else s₁) = g s₂ := by
    intro s₁ s₂ h
    split
    · rw [hemit, hemit, h]
    · split
      · rw [hemit, hemit, h]
      · exact h
  refine hlegacy _ _ ?_
  split
  · refine forTimers_frame g (fun s i ↦ ?_) _
    split
    · exact hset s i now
    · rfl
  · split
    · exact forTimers_frame g hdel _
    · rfl

theorem writeCfg_numTimers (s : HPETState) (now oldVal newVal : BitVec 64) :
    (writeCfg s now oldVal newVal).numTimers = s.numTimers := by
  rw [writeCfg_frame HPETState.numTimers (by simp) (by simp) (by simp)]
  dsimp only
  split
  · rfl
  · split <;> rfl

theorem writeStatus_frame {β : Type} (g : HPETState → β)
    (hirq : ∀ s i set, g (updateIrq s i set) = g s) (s : HPETState) (newVal : BitVec 64) :
    g (writeStatus s newVal) = g s := by
  refine forTimers_frame g (fun s' i ↦ ?_) s
  split
  · exact hirq s' i false
  · rfl

theorem writeGeneralReg_numTimers (s : HPETState) (now oldVal newVal : BitVec 64) (index : ℕ) :
    (writeGeneralReg s now oldVal newVal index).numTimers = s.numTimers := by
  rw [writeGeneralReg.eq_def]
  split
  · exact writeCfg_numTimers s now oldVal newVal
  · exact writeStatus_frame HPETState.numTimers (by simp) s newVal
  all_goals rfl

/-- **What a write can do**: nothing, or what the addressed register's own write does. -/
theorem vmHpetMmioWrite_cases {s s' : HPETState} {now value : BitVec 64} {offset : ℕ}
    (h : vmHpetMmioWrite s now offset value = some s') :
    (s' = s ∧ inTimerRange offset = true ∧
      (selectTimer s offset = none ∨ isTimerReg (timerReg offset) = false)) ∨
    (∃ i, inTimerRange offset = true ∧ selectTimer s offset = some i.val ∧
      s' = writeTimerReg s now i (readTimerReg (s.timer i) (timerReg offset)) value
        (timerReg offset)) ∨
    (inTimerRange offset = false ∧
      s' = writeGeneralReg s now (readGeneralReg s now offset) value offset) := by
  simp only [vmHpetMmioWrite, vmHpetMmioRead] at h
  cases hr : inTimerRange offset with
  | false =>
    simp only [hr, Bool.false_eq_true, if_false, Option.bind_some, Option.some_inj] at h
    exact .inr (.inr ⟨rfl, h.symm⟩)
  | true =>
    simp only [hr, if_true] at h
    cases hsel : selectTimer s offset with
    | none =>
      simp only [hsel, Option.bind_some, Option.some_inj] at h
      exact .inl ⟨h.symm, rfl, .inl rfl⟩
    | some k =>
      simp only [hsel] at h
      cases hreg : isTimerReg (timerReg offset) with
      | false =>
        simp only [hreg, Bool.false_eq_true, if_false, Option.bind_some, Option.some_inj] at h
        exact .inl ⟨h.symm, rfl, .inr rfl⟩
      | true =>
        simp only [hreg, if_true, timerIndex] at h
        split at h
        · rename_i hk
          simp only [Option.map_some, Option.bind_some, Option.some_inj] at h
          exact .inr (.inl ⟨⟨k, hk⟩, rfl, rfl, h.symm⟩)
        · simp at h

theorem vmHpetMmioWrite_numTimers {s s' : HPETState} {now value : BitVec 64} {offset : ℕ}
    (h : vmHpetMmioWrite s now offset value = some s') : s'.numTimers = s.numTimers := by
  rcases vmHpetMmioWrite_cases h with ⟨hw, -⟩ | ⟨i, -, -, hw⟩ | ⟨-, hw⟩
  · rw [hw]
  · rw [hw, (writeTimerReg_frame ..).2.2.2]
  · rw [hw, writeGeneralReg_numTimers]

theorem hpetPreInit_numTimers (hpetIdBase : ℕ) :
    (hpetPreInit hpetIdBase).numTimers = hpetMaxTimers :=
  forTimers_frame HPETState.numTimers (fun s i ↦ by simp [hpetResetTimer]) _

/-- There are always `HPET_MAX_TIMERS` timers. -/
theorem Reachable.numTimers {s : HPETState} (h : Reachable s) : s.numTimers = hpetMaxTimers := by
  obtain ⟨b, as, hrun⟩ := h
  refine hrun.invariant (I := fun s ↦ s.numTimers = hpetMaxTimers) (hpetPreInit_numTimers b)
    fun s a t hs hstep ↦ ?_
  cases hstep with
  | read => exact hs
  | write _ hw => exact (vmHpetMmioWrite_numTimers hw).trans hs
  | expire he =>
    obtain ⟨_, _, -, -, -, hn⟩ := hpetTimer_frame he
    exact hn.trans hs

end Hpet
end CamkesVm
