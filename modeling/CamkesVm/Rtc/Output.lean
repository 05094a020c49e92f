import CamkesVm.Rtc.Line

/-!
# When the RTC sets its line

Reading register C lowers the line.  Handling a completion of the periodic timer, and the end of an
update cycle, raise it, if an interrupt that is enabled in register B is due; each may do so twice.
So in one event all settings are to one level, and `sets` says which from the state before
(`sets_next`).

* `alarmDue`, `sets` — the table, on the state before the event; it can be evaluated without running
  the device.
* `SetsIf` — what a handler does to the line: one level, any number of times, or nothing.

The table is what `CamkesVm.Platform.Legacy` asks about the RTC, whose line another device may have
taken over.
-/

set_option autoImplicit false

namespace CamkesVm
namespace Rtc

open EffectLog

/-- The alarm is enabled and due. -/
def alarmDue (s : RTCState) : Bool :=
  s.anyBit rtcRegB regBAie && alarmMatches s rtcSecondsAlarm s.currentTm.second &&
    alarmMatches s rtcMinutesAlarm s.currentTm.minute &&
    alarmMatches s rtcHoursAlarm s.currentTm.hour

/-- The level an event sets the line to, if it does. -/
def sets (s : RTCDevice) : Event → Option ℕ
  | .portIn addr => if addr % 2 ≠ 0 ∧ s.cmosIndex = rtcRegC then some 0 else none
  | .timer .periodic _ =>
    if s.anyBit rtcRegB regBPie || s.anyBit rtcRegB regBSqwe then some 1 else none
  | .timer .second2 _ =>
    if alarmDue s.toRTCState || s.anyBit rtcRegB regBUie then some 1 else none
  | _ => none

/-! ## The handlers -/

/-- The line is set to `level`, perhaps more than once, if `b`, and not at all otherwise. -/
def SetsIf (b : Bool) (level : ℕ) (s t : RTCState) : Prop :=
  Sets Effect.level s.log t.log fun l ↦ b = true ∧ level = l

namespace SetsIf

variable {b b' : Bool} {level : ℕ} {s t u : RTCState}

theorem of_log (h : t.log = s.log) (level : ℕ) : SetsIf false level s t := by
  rw [SetsIf, h]
  exact (Sets.refl _).congr fun _ ↦ iff_of_false id fun h ↦ Bool.false_ne_true h.1

theorem trans (h : SetsIf b level s t) (h' : SetsIf b' level t u) :
    SetsIf (b || b') level s u :=
  (Sets.trans h h').congr fun l ↦ by rw [Bool.or_eq_true, or_and_right]

theorem trans_of_log (h : SetsIf b level s t) (hlog : u.log = t.log) : SetsIf b level s u := by
  rw [SetsIf, hlog]
  exact h

/-- A setting under a condition. -/
theorem raise (b : Bool) (hlog : t.log = s.log ++ [.setIrqLevel level]) :
    SetsIf b level s (if b then t else s) := by
  cases b with
  | false => exact .of_log rfl level
  | true =>
    rw [SetsIf, if_pos rfl, hlog]
    refine (Sets.concat s.log (Effect.setIrqLevel level)).congr fun l ↦ ?_
    simp [Effect.level]

/-- Arming a timer afterwards. -/
theorem emit (h : SetsIf b level s t) {e : Effect} (he : e.level = none) :
    SetsIf b level s (t.emit e) := Sets.concat_of_none h he

theorem sets (h : SetsIf b level s t) :
    Sets Effect.level s.log t.log fun l ↦ (if b then some level else none) = some l :=
  Sets.congr h fun l ↦ by cases b <;> simp

end SetsIf

theorem setsIf_periodicPulse (s : RTCState) :
    SetsIf (s.anyBit rtcRegB regBPie || s.anyBit rtcRegB regBSqwe) 1 s (periodicPulse s) := by
  have hsqwe : (if s.anyBit rtcRegB regBPie
      then (s.setCmos rtcRegC (s.cmosData rtcRegC ||| 0xc0)).emit (.setIrqLevel 1)
      else s).anyBit rtcRegB regBSqwe = s.anyBit rtcRegB regBSqwe := by
    split
    · rw [RTCState.anyBit, emit_cmosData, setCmos_of_ne _ (by decide)]
      rfl
    · rfl
  have hpie : SetsIf (s.anyBit rtcRegB regBPie) 1 s _ :=
    .raise (t := (s.setCmos rtcRegC (s.cmosData rtcRegC ||| 0xc0)).emit (.setIrqLevel 1)) _ rfl
  rw [periodicPulse]
  refine hpie.trans ?_
  rw [hsqwe]
  exact .raise _ rfl

/-- What the end of an update cycle depends on is not changed by copying the date. -/
theorem due_copied (T : FieldTypes) (s : RTCState) (b : Bool) :
    alarmDue (if b then rtcCopyDate T s else s) = alarmDue s ∧
      (if b then rtcCopyDate T s else s).anyBit rtcRegB regBUie = s.anyBit rtcRegB regBUie := by
  cases b with
  | false => exact ⟨rfl, rfl⟩
  | true =>
    have hreg : ∀ i ∉ timeRegisters, (rtcCopyDate T s).cmosData i = s.cmosData i := fun i hi ↦
      rtcCopyDate_cmosData_of_notMem T s hi
    have htm : (rtcCopyDate T s).currentTm = s.currentTm := rfl
    have hmatch : ∀ i ∉ timeRegisters, ∀ value,
        alarmMatches (rtcCopyDate T s) i value = alarmMatches s i value := by
      intro i hi value
      have hbinary : (rtcCopyDate T s).isBinary = s.isBinary := by
        rw [RTCState.isBinary, RTCState.anyBit, hreg rtcRegB (by decide)]
        rfl
      rw [alarmMatches, alarmMatches, hreg i hi, hbinary]
    simp only [if_true, alarmDue, RTCState.anyBit, hreg rtcRegB (by decide), htm,
      hmatch rtcSecondsAlarm (by decide), hmatch rtcMinutesAlarm (by decide),
      hmatch rtcHoursAlarm (by decide), and_self]

theorem setsIf_rtcUpdateSecond2 (T : FieldTypes) (s : RTCState) :
    SetsIf (alarmDue s || s.anyBit rtcRegB regBUie) 1 s (rtcUpdateSecond2 T s) := by
  obtain ⟨halarm, huie⟩ := due_copied T s (!s.anyBit rtcRegB regBSet)
  have hcopy : (if !s.anyBit rtcRegB regBSet then rtcCopyDate T s else s).log = s.log := by
    split <;> rfl
  rw [← halarm, ← huie, rtcUpdateSecond2]
  generalize (if !s.anyBit rtcRegB regBSet then rtcCopyDate T s else s) = s₁ at hcopy ⊢
  have hdue : SetsIf (alarmDue s₁) 1 s₁ (if alarmDue s₁
      then (s₁.setCmos rtcRegC (s₁.cmosData rtcRegC ||| 0xa0)).emit (.setIrqLevel 1) else s₁) :=
    .raise _ rfl
  have hregB : (if alarmDue s₁
      then (s₁.setCmos rtcRegC (s₁.cmosData rtcRegC ||| 0xa0)).emit (.setIrqLevel 1)
      else s₁).cmosData rtcRegB = s₁.cmosData rtcRegB := by
    split
    · rw [emit_cmosData, setCmos_of_ne _ (by decide)]
    · rfl
  dsimp only
  rw [← alarmDue]
  generalize (if alarmDue s₁
    then (s₁.setCmos rtcRegC (s₁.cmosData rtcRegC ||| 0xa0)).emit (.setIrqLevel 1) else s₁) = s₂
    at hdue hregB ⊢
  have hend : (s₂.setCmos rtcRegC (s₂.cmosData rtcRegC ||| regCUf)).anyBit rtcRegB regBUie =
      s₁.anyBit rtcRegB regBUie := by
    rw [RTCState.anyBit, setCmos_of_ne _ (by decide), hregB]
    rfl
  rw [hend]
  have hended := (hdue.trans_of_log (u := s₂.setCmos rtcRegC (s₂.cmosData rtcRegC ||| regCUf))
    rfl).trans (.raise (t := ((s₂.setCmos rtcRegC (s₂.cmosData rtcRegC ||| regCUf)).setCmos rtcRegC
      ((s₂.setCmos rtcRegC (s₂.cmosData rtcRegC ||| regCUf)).cmosData rtcRegC ||| regCIrqf)).emit
        (.setIrqLevel 1)) (s₁.anyBit rtcRegB regBUie) rfl)
  rw [SetsIf, hcopy] at hended
  exact SetsIf.emit (SetsIf.trans_of_log hended rfl) rfl

/-! ## The events -/

/-- **What an event sets the line to.** -/
theorem sets_next (T : FieldTypes) {y : Machine} (hnone : y.rtc.irqCoalesced = 0) (e : Event) :
    Sets Effect.level y.rtc.log (y.next T e).rtc.log fun level ↦ sets y.rtc e = some level := by
  have hcore := Machine.core_next T hnone e
  have hnothing : ∀ {t : RTCState}, t.log = y.rtc.log → sets y.rtc e = none →
      Sets Effect.level y.rtc.log t.log fun level ↦ sets y.rtc e = some level := by
    intro t hlog he
    rw [hlog, he]
    exact (Sets.refl _).congr fun _ ↦ iff_of_false id nofun
  rw [hcore]
  cases e with
  | portIn addr =>
    by_cases hack : addr % 2 ≠ 0 ∧ y.rtc.cmosIndex = rtcRegC
    · simp only [if_pos hack, sets]
      refine (Sets.concat y.rtc.log (Effect.setIrqLevel 0)).congr fun level ↦ ?_
      rw [Effect.level]
    · simp only [if_neg hack]
      exact hnothing rfl (if_neg hack)
  | portOut addr data now =>
    dsimp only
    split
    · exact hnothing rfl rfl
    · exact hnothing (log_storeCmos T _ _ _).1 rfl
  | expire timer => exact hnothing rfl rfl
  | timer timer now =>
    cases timer with
    | periodic => exact (setsIf_periodicPulse _).sets
    | coalesced => exact hnothing rfl rfl
    | second =>
      have hlog : ∀ s, (Sets Effect.level s.log (rtcUpdateSecond T s).log fun _ ↦ False) := by
        intro s
        cases hosc : oscillating s
        · rw [rtcUpdateSecond_of_stopped T hosc]
          exact (Sets.refl _).concat_of_none rfl
        · rw [rtcUpdateSecond_of_oscillating T hosc]
          refine Sets.concat_of_none ?_ rfl
          split <;> exact .refl _
      exact (hlog _).congr fun _ ↦ iff_of_false id nofun
    | second2 => exact (setsIf_rtcUpdateSecond2 T _).sets

end Rtc
end CamkesVm
