import CamkesVm.Lib.Flags
import CamkesVm.Rtc.Machine

/-!
# The interrupt line of the RTC

Register C says why there is an interrupt, and its top bit, IRQF, that there is one.  The line
should be high exactly while IRQF is set (`LineAgrees`).

Every function of the device that raises the line sets IRQF with it, and a flag that says why; there
is one exception.  `rtc_periodic_timer` raises the line for the square wave whether or not periodic
interrupts are enabled, and sets no flag for it.  The timer runs only while they are, but a
completion may be handled after the guest has disabled them.  The line agrees with IRQF throughout a
run exactly if no such completion finds IRQF clear (`run_lineAgrees_iff`).

## What is here

* `irqLevel`, `irqf`, `caused`, `LineAgrees` — the line, from the log, and register C.
* One lemma for each function of the device that touches either, of which `LineAgrees.raise` and
  `LineAgrees.periodicPulse_iff` are the ones with content: the first raises the line as it should,
  the second says when the periodic handler does.
* `LateFlagged`, `LineAgrees.next_iff`, `run_lineAgrees_iff` — the condition on an event and the
  state before it, one event, and runs.
* `not_lineAgrees_late` — a short run that goes wrong.
-/

set_option autoImplicit false

namespace CamkesVm
namespace Rtc

open Transition EffectLog

/-! ## The line and the flags -/

/-- The level an effect sets the line to, if it does. -/
def Effect.level : Effect → Option ℕ
  | .setIrqLevel level => some level
  | _ => none

/-- The level `vm_set_irq_level` was last called with. -/
def irqLevel (s : RTCState) : ℕ := latest Effect.level 0 s.log

/-- There is an interrupt. -/
def irqf (s : RTCState) : Bool := s.anyBit rtcRegC regCIrqf

/-- There is a reason for one. -/
def caused (s : RTCState) : Bool := s.anyBit rtcRegC (regCPf ||| regCAf ||| regCUf)

/-- The line is high exactly if IRQF is set, and IRQF is set for a reason. -/
structure LineAgrees (s : RTCState) : Prop where
  /-- The line. -/
  level : irqLevel s = 1 ↔ irqf s = true
  /-- The reason. -/
  cause : irqf s = true → caused s = true

/-- What this is about: register C and the line. -/
def line (s : RTCState) : BitVec 8 × ℕ := (s.cmosData rtcRegC, irqLevel s)

section

variable {s t : RTCState}

theorem LineAgrees.of_line (h : LineAgrees s) (hl : line t = line s) : LineAgrees t := by
  rw [line, line, Prod.mk.injEq] at hl
  obtain ⟨hreg, hlevel⟩ := hl
  have hirqf : irqf t = irqf s := by rw [irqf, irqf, RTCState.anyBit, RTCState.anyBit, hreg]
  have hcaused : caused t = caused s := by
    rw [caused, caused, RTCState.anyBit, RTCState.anyBit, hreg]
  refine ⟨?_, ?_⟩
  · rw [hlevel, hirqf]
    exact h.level
  · rw [hirqf, hcaused]
    exact h.cause

theorem irqLevel_emit (s : RTCState) (e : Effect) :
    irqLevel (s.emit e) = e.level.getD (irqLevel s) := latest_concat _ _

theorem line_setCmos {i : Fin 128} (h : i ≠ rtcRegC) (v : BitVec 8) :
    line (s.setCmos i v) = line s := by
  rw [line, setCmos_of_ne _ h.symm]
  rfl

theorem line_rtcCopyDate (T : FieldTypes) (s : RTCState) : line (rtcCopyDate T s) = line s := by
  rw [line, rtcCopyDate_cmosData_of_notMem T s (by decide)]
  rfl

/-- **The line is raised for a reason.** -/
theorem LineAgrees.raise {m : BitVec 8} (hirqf : m &&& regCIrqf = regCIrqf)
    (hcause : (s.cmosData rtcRegC ||| m) &&& (regCPf ||| regCAf ||| regCUf) ≠ 0) :
    LineAgrees ((s.setCmos rtcRegC (s.cmosData rtcRegC ||| m)).emit (.setIrqLevel 1)) := by
  have hreg : ((s.setCmos rtcRegC (s.cmosData rtcRegC ||| m)).emit (.setIrqLevel 1)).cmosData
      rtcRegC = s.cmosData rtcRegC ||| m := setCmos_self s rtcRegC _
  refine ⟨?_, fun _ ↦ ?_⟩
  · rw [irqLevel_emit, irqf, RTCState.anyBit, hreg, Flags.or_and_of_subset _ hirqf]
    exact iff_of_true rfl rfl
  · rw [caused, RTCState.anyBit, hreg]
    exact bne_iff_ne.mpr hcause

/-- A reason that comes with the interrupt. -/
theorem cause_of_subset (x : BitVec 8) {m k : BitVec 8} (h : m &&& k ≠ 0) :
    (x ||| m) &&& k ≠ 0 := by
  intro hzero
  refine h ?_
  rw [BitVec.and_or_distrib_right] at hzero
  exact (BitVec.or_eq_zero_iff.mp hzero).2

/-- A reason without an interrupt. -/
theorem LineAgrees.updateEnded (h : LineAgrees s) :
    LineAgrees (s.setCmos rtcRegC (s.cmosData rtcRegC ||| regCUf)) := by
  have hreg := setCmos_self s rtcRegC (s.cmosData rtcRegC ||| regCUf)
  refine ⟨?_, fun _ ↦ ?_⟩
  · rw [irqf, RTCState.anyBit, hreg, Flags.or_and_of_disjoint _ (by decide)]
    exact h.level
  · rw [caused, RTCState.anyBit, hreg]
    exact bne_iff_ne.mpr (cause_of_subset _ (by decide))

/-! ## The functions of the device -/

theorem LineAgrees.rtcUpdateSecond (h : LineAgrees s) (T : FieldTypes) :
    LineAgrees (rtcUpdateSecond T s) := by
  rw [Rtc.rtcUpdateSecond]
  split
  · exact h.of_line (by rw [line, irqLevel_emit]; rfl)
  · dsimp only
    split
    · refine h.of_line ?_
      rw [line, irqLevel_emit, emit_cmosData, setCmos_of_ne _ (by decide)]
      rfl
    · exact h.of_line (by rw [line, irqLevel_emit]; rfl)

theorem LineAgrees.rtcUpdateSecond2 (h : LineAgrees s) (T : FieldTypes) :
    LineAgrees (rtcUpdateSecond2 T s) := by
  have hcopy : LineAgrees (if !s.anyBit rtcRegB regBSet then rtcCopyDate T s else s) := by
    split
    · exact h.of_line (line_rtcCopyDate T s)
    · exact h
  rw [Rtc.rtcUpdateSecond2]
  dsimp only
  generalize (if !s.anyBit rtcRegB regBSet then rtcCopyDate T s else s) = s₁ at hcopy ⊢
  have halarm : LineAgrees (if s₁.anyBit rtcRegB regBAie &&
      alarmMatches s₁ rtcSecondsAlarm s₁.currentTm.second &&
      alarmMatches s₁ rtcMinutesAlarm s₁.currentTm.minute &&
      alarmMatches s₁ rtcHoursAlarm s₁.currentTm.hour
    then (s₁.setCmos rtcRegC (s₁.cmosData rtcRegC ||| 0xa0)).emit (.setIrqLevel 1) else s₁) := by
    split
    · exact LineAgrees.raise (by decide) (cause_of_subset _ (by decide))
    · exact hcopy
  generalize (if s₁.anyBit rtcRegB regBAie &&
      alarmMatches s₁ rtcSecondsAlarm s₁.currentTm.second &&
      alarmMatches s₁ rtcMinutesAlarm s₁.currentTm.minute &&
      alarmMatches s₁ rtcHoursAlarm s₁.currentTm.hour
    then (s₁.setCmos rtcRegC (s₁.cmosData rtcRegC ||| 0xa0)).emit (.setIrqLevel 1) else s₁) = s₂
    at halarm ⊢
  have huf := halarm.updateEnded
  have hreg := setCmos_self s₂ rtcRegC (s₂.cmosData rtcRegC ||| regCUf)
  generalize s₂.setCmos rtcRegC (s₂.cmosData rtcRegC ||| regCUf) = s₃ at huf hreg ⊢
  have hended : LineAgrees (if s₃.anyBit rtcRegB regBUie
      then (s₃.setCmos rtcRegC (s₃.cmosData rtcRegC ||| regCIrqf)).emit (.setIrqLevel 1)
      else s₃) := by
    split
    · refine LineAgrees.raise (by decide) ?_
      rw [hreg, BitVec.or_assoc]
      exact cause_of_subset _ (by decide)
    · exact huf
  generalize (if s₃.anyBit rtcRegB regBUie
    then (s₃.setCmos rtcRegC (s₃.cmosData rtcRegC ||| regCIrqf)).emit (.setIrqLevel 1) else s₃) = s₄
    at hended ⊢
  refine hended.of_line ?_
  rw [line, irqLevel_emit, emit_cmosData]
  exact line_setCmos (i := rtcRegA) (by decide) (s₄.cmosData rtcRegA &&& ~~~regAUip)

theorem lineAgrees_ackRegC (s : RTCState) : LineAgrees (ackRegC s) := by
  have hreg : (ackRegC s).cmosData rtcRegC = 0 := setCmos_self _ _ _
  have hlevel : irqLevel (ackRegC s) = 0 := irqLevel_emit s (.setIrqLevel 0)
  have hirqf : irqf (ackRegC s) = false := by
    rw [irqf, RTCState.anyBit, hreg]
    decide
  refine ⟨?_, ?_⟩
  · rw [hlevel, hirqf]
    decide
  · rw [hirqf]
    exact fun h ↦ absurd h Bool.false_ne_true

theorem line_writeRegB (T : FieldTypes) (data : BitVec 8) (s : RTCState) :
    line (writeRegB T data s) = line s := by
  by_cases h : data &&& regBSet = 0
  · have hleave : line (leaveSetMode T s) = line s := by
      rw [leaveSetMode]
      split <;> rfl
    rw [writeRegB_of_clear T h]
    split
    · rw [line_rtcCopyDate, line_setCmos (by decide), hleave]
    · rw [line_setCmos (by decide), hleave]
  · rw [writeRegB_of_set T h, line_setCmos (by decide), line_setCmos (by decide)]

theorem line_storeCmos (T : FieldTypes) (i : Fin 128) (data : BitVec 8) (s : RTCState) :
    line (storeCmos T i data s) = line s := by
  rw [storeCmos]
  split
  · rename_i hdate
    have hne : i ≠ rtcRegC := by
      rintro rfl
      revert hdate
      decide
    split <;> exact line_setCmos hne data
  · split
    · exact line_setCmos (by decide) _
    · split
      · exact line_writeRegB T data s
      · split
        · rfl
        · rename_i hother
          exact line_setCmos (fun hc ↦ hother (.inl hc)) data

/-- **A periodic completion** does what it should exactly if periodic interrupts are enabled, or
there is no square wave, or there is an interrupt already. -/
theorem LineAgrees.periodicPulse_iff (h : LineAgrees s) :
    LineAgrees (periodicPulse s) ↔
      (s.anyBit rtcRegB regBPie = false → s.anyBit rtcRegB regBSqwe = true → irqf s = true) := by
  rw [periodicPulse]
  cases hpie : s.anyBit rtcRegB regBPie
  · cases hsqwe : s.anyBit rtcRegB regBSqwe
    · simp only [hsqwe, Bool.false_eq_true, if_false, false_implies, implies_true, iff_true]
      exact h
    · simp only [hsqwe, Bool.false_eq_true, if_false, if_true, true_implies]
      refine ⟨fun hpulse ↦ hpulse.level.mp (irqLevel_emit s _), fun hirqf ↦ ⟨?_, h.cause⟩⟩
      exact iff_of_true (irqLevel_emit s _) hirqf
  · simp only [if_true, Bool.true_eq_false, false_implies, iff_true]
    have hraise : LineAgrees ((s.setCmos rtcRegC (s.cmosData rtcRegC ||| 0xc0)).emit
        (.setIrqLevel 1)) := .raise (by decide) (cause_of_subset _ (by decide))
    split
    · refine hraise.of_line ?_
      rw [line, line, irqLevel_emit, irqLevel_emit]
      rfl
    · exact hraise

end

/-! ## Runs -/

/-- A periodic completion that is handled while periodic interrupts are disabled and the square wave
is enabled finds IRQF set. -/
def LateFlagged (y : Machine) : Event → Prop
  | .timer .periodic _ => y.rtc.anyBit rtcRegB regBPie = false →
      y.rtc.anyBit rtcRegB regBSqwe = true → irqf y.rtc.toRTCState = true
  | _ => True

theorem lineAgrees_init (T : FieldTypes) (tm : RtcTimeDate) (now : ℤ) :
    LineAgrees (Machine.init T tm now).rtc.toRTCState := by
  have hinit : (Machine.init T tm now).rtc.toRTCState = rtcReset
      (rtcInitfn T { zeroState with baseYear := 1900 } tm now) := rfl
  have hclear : ∀ s, (rtcReset s).cmosData rtcRegC =
      s.cmosData rtcRegC &&& ~~~(regCUf ||| regCIrqf ||| regCPf ||| regCAf) := by
    intro s
    rw [rtcReset, emit_cmosData, setCmos_self, setCmos_of_ne _ (by decide)]
  have hlevel : ∀ s, irqLevel (rtcReset s) = 0 := fun s ↦ irqLevel_emit _ _
  have hirqf : irqf (Machine.init T tm now).rtc.toRTCState = false := by
    rw [irqf, RTCState.anyBit, hinit, hclear, Flags.and_and_of_disjoint _ (by decide)]
    rfl
  refine ⟨?_, ?_⟩
  · rw [hirqf, hinit, hlevel]
    decide
  · rw [hirqf]
    exact fun h ↦ absurd h Bool.false_ne_true

/-- **Which events leave the line right.** -/
theorem LineAgrees.next_iff (T : FieldTypes) {y : Machine} (hnone : y.rtc.irqCoalesced = 0)
    (h : LineAgrees y.rtc.toRTCState) (e : Event) :
    LateFlagged y e ↔ LineAgrees (y.next T e).rtc.toRTCState := by
  have hcore := Machine.core_next T hnone e
  cases e with
  | portIn addr =>
    refine iff_of_true trivial ?_
    rw [hcore]
    dsimp only
    split
    · exact lineAgrees_ackRegC _
    · exact h
  | portOut addr data now =>
    refine iff_of_true trivial ?_
    rw [hcore]
    dsimp only
    split
    · exact h
    · exact h.of_line (line_storeCmos T _ data _)
  | expire timer => exact iff_of_true trivial h
  | timer timer now =>
    rw [hcore]
    cases timer with
    | periodic => exact h.periodicPulse_iff.symm
    | coalesced => exact iff_of_true trivial h
    | second => exact iff_of_true trivial (h.rtcUpdateSecond T)
    | second2 => exact iff_of_true trivial (h.rtcUpdateSecond2 T)

/-- **When the line follows IRQF**: in the runs in which no late completion of the periodic timer
finds the square wave enabled and IRQF clear, and in those only, the line agrees in every state. -/
theorem run_lineAgrees_iff (T : FieldTypes) (tm : RtcTimeDate) (now : ℤ) (es : List Event)
    (y : Machine) :
    Run (Guarded LateFlagged (Machine.Step T)) (Machine.init T tm now) es y ↔
      Run (Guarded (fun y _ ↦ LineAgrees y.rtc.toRTCState) (Machine.Step T))
        (Machine.init T tm now) es y ∧ LineAgrees y.rtc.toRTCState :=
  Run.guarded_iff_of_invariant (J := fun y ↦ y.rtc.irqCoalesced = 0) (lineAgrees_init T tm now) rfl
    (fun _ e _ hnone _ hstep ↦ hstep.2 ▸ Machine.irqCoalesced_next T hnone e)
    (fun _ e _ hnone h hstep ↦ hstep.2 ▸ h.next_iff T hnone e)

set_option maxRecDepth 4000 in
/-- **An interrupt without a reason.**  The guest enables periodic interrupts and the square wave;
when the timer has completed, and before that is handled, it disables the interrupts. -/
theorem not_lineAgrees_late :
    ¬∀ T tm now es y, Run (Machine.Step T) (Machine.init T tm now) es y →
      LineAgrees y.rtc.toRTCState := by
  intro h
  let es : List Event := [.portOut 0x70 11 0, .portOut 0x71 0x4a 0, .expire .periodic,
    .portOut 0x71 0x0a 0, .timer .periodic 0]
  have hline := h intFields exampleDate 0 es _ (run_foldl (by decide))
  exact absurd hline.level (by decide)

end Rtc
end CamkesVm
