import CamkesVm.Rtc.Codec

/-!
# What an update cycle changes

An update cycle has two phases.  `rtc_update_second` advances the internal time and announces the
update; `rtc_update_second2` copies the internal time to the registers, reports the alarm and the
end of the update in register C, and takes the announcement back.  What they report is no concern of
the time of day, so the second phase is split: it does something to the flags alone (`OnlyFlags`),
and then ends the cycle (`rtcUpdateSecond2_eq`).

`oscillating`, `setMode` and `inProgress` are the three conditions in the terms of which the phases
are described: a stopped oscillator puts the cycle off, set mode keeps the registers from being
written, and the announcement is register A's top bit.
-/

set_option autoImplicit false

namespace CamkesVm
namespace Rtc

/-- Register A selects normal operation of the oscillator. -/
def oscillating (s : RTCState) : Bool := s.cmosData rtcRegA &&& 0x70 == 0x20

/-- The set mode: the guest is editing the time. -/
def setMode (s : RTCState) : Bool := s.anyBit rtcRegB regBSet

/-- An update was announced. -/
def inProgress (s : RTCState) : Bool := s.anyBit rtcRegA regAUip

/-! ## The flags -/

/-- Only register C and the interrupt line may be different. -/
structure OnlyFlags (s t : RTCState) : Prop where
  /-- The internal time is the same. -/
  currentTm : t.currentTm = s.currentTm
  /-- The base year is the same. -/
  baseYear : t.baseYear = s.baseYear
  /-- The next update is due at the same time. -/
  nextSecondTime : t.nextSecondTime = s.nextSecondTime
  /-- The other registers are the same. -/
  cmosData : ∀ i ≠ rtcRegC, t.cmosData i = s.cmosData i
  /-- Nothing was done but to set the line. -/
  log : ∃ levels : List ℕ, t.log = s.log ++ levels.map .setIrqLevel

namespace OnlyFlags

variable {s t u : RTCState}

theorem refl : OnlyFlags s s :=
  ⟨rfl, rfl, rfl, fun _ _ ↦ rfl, [], (List.append_nil _).symm⟩

theorem setCmos (h : OnlyFlags s t) (v : BitVec 8) : OnlyFlags s (t.setCmos rtcRegC v) :=
  ⟨h.currentTm, h.baseYear, h.nextSecondTime,
    fun i hi ↦ (setCmos_of_ne t hi v).trans (h.cmosData i hi), h.log⟩

theorem emit (h : OnlyFlags s t) (level : ℕ) : OnlyFlags s (t.emit (.setIrqLevel level)) where
  currentTm := h.currentTm
  baseYear := h.baseYear
  nextSecondTime := h.nextSecondTime
  cmosData := h.cmosData
  log := by
    obtain ⟨levels, hlog⟩ := h.log
    refine ⟨levels ++ [level], ?_⟩
    rw [RTCState.emit, hlog, List.map_append, List.append_assoc]
    rfl

theorem ite (ht : OnlyFlags s t) (hu : OnlyFlags s u) (b : Bool) :
    OnlyFlags s (if b then t else u) := by
  cases b with
  | false => exact hu
  | true => exact ht

end OnlyFlags

/-! ## The second phase -/

/-- The cycle ends: the update is no longer announced, and the next one is due a second later. -/
def endCycle (s : RTCState) : RTCState :=
  { s.setCmos rtcRegA (s.cmosData rtcRegA &&& ~~~regAUip) with
    nextSecondTime := s.nextSecondTime + getTicksPerSec }.emit
      (.secondTimer (s.nextSecondTime + getTicksPerSec))

/-- **`rtc_update_second2`** copies the internal time to the registers, outside set mode, then
changes the flags, and then ends the cycle. -/
theorem rtcUpdateSecond2_eq (T : FieldTypes) (s : RTCState) :
    ∃ t, OnlyFlags (if setMode s then s else rtcCopyDate T s) t ∧
      rtcUpdateSecond2 T s = endCycle t := by
  have hcopy : (if !s.anyBit rtcRegB regBSet then rtcCopyDate T s else s) =
      if setMode s then s else rtcCopyDate T s := by
    rw [setMode]
    cases s.anyBit rtcRegB regBSet <;> rfl
  rw [rtcUpdateSecond2, hcopy]
  generalize (if setMode s then s else rtcCopyDate T s) = s'
  refine ⟨_, ?_, rfl⟩
  have halarm := OnlyFlags.ite ((OnlyFlags.refl.setCmos (s'.cmosData rtcRegC ||| 0xa0)).emit 1)
    (OnlyFlags.refl (s := s'))
  exact OnlyFlags.ite (((((halarm _).setCmos _).setCmos _).emit _)) ((halarm _).setCmos _) _

/-! ## The first phase -/

/-- **`rtc_update_second`** puts the update off while the oscillator is not in normal operation. -/
theorem rtcUpdateSecond_of_stopped (T : FieldTypes) {s : RTCState} (h : oscillating s = false) :
    rtcUpdateSecond T s = { s with nextSecondTime := s.nextSecondTime + getTicksPerSec }.emit
      (.secondTimer (s.nextSecondTime + getTicksPerSec)) := by
  have hstopped : (s.cmosData rtcRegA &&& 0x70 != 0x20) = true := by
    rw [bne, ← oscillating, h]
    rfl
  rw [rtcUpdateSecond, if_pos hstopped]

/-- Otherwise it begins a second and announces the update, outside set mode. -/
theorem rtcUpdateSecond_of_oscillating (T : FieldTypes) {s : RTCState} (h : oscillating s = true) :
    rtcUpdateSecond T s = RTCState.emit
      (if setMode s then { s with currentTm := rtcNextSecond T s.currentTm }
        else { s with currentTm := rtcNextSecond T s.currentTm }.setCmos rtcRegA
          (s.cmosData rtcRegA ||| regAUip))
      (.secondTimer2 (s.nextSecondTime + max (getTicksPerSec / 100) 1)) := by
  have hnormal : ¬(s.cmosData rtcRegA &&& 0x70 != 0x20) = true := by
    rw [bne, ← oscillating, h]
    exact Bool.false_ne_true
  have hset : RTCState.anyBit { s with currentTm := rtcNextSecond T s.currentTm } rtcRegB regBSet =
      setMode s := rfl
  rw [rtcUpdateSecond, if_neg hnormal]
  simp only [hset]
  cases setMode s <;> rfl

end Rtc
end CamkesVm
