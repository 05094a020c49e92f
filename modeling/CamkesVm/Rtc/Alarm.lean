import CamkesVm.Rtc.Output

/-!
# What the alarm compares

An update cycle shows the time in the registers and then looks whether the alarm is due.  It does
not compare registers with registers: it decodes the alarm registers and compares the numbers with
the internal time.  The two comparisons agree on seconds and minutes, and on hours that run from 0
to 23.  In 12-hour format the alarm's top bit is decoded as a digit, so an alarm after noon never
comes, and 12 AM is taken for noon, which the hours register shows in another way.  This is when the
alarm does not do what the registers say, and only this (`alarmAgrees_iff`).

## What is here

* `dontCare`, `AsksFor`, `AlarmShown` — the alarm as a guest understands it: registers against
  registers, in the format in force.
* `RaisesAlarm`, `AlarmAgrees` — what the cycle does, and that it is the same.
* `HourMisread`, `Misread` — the alarms for which it is not, on the state before the cycle.
* `alarmMatches_iff_asksFor`, `alarmMatches_hours_iff` — one field at a time.
* `alarmAgrees_iff`, `not_forall_alarmAgrees` — the cycle, and an alarm at 1 PM.

The alarm registers must be legal: what an hour of 0x3f asks for nobody can say.
-/

set_option autoImplicit false

namespace CamkesVm
namespace Rtc

/-! ## Alarm registers -/

/-- An alarm register that asks for any value. -/
def dontCare (b : BitVec 8) : Bool := b &&& 0xc0 == 0xc0

/-- Every alarm register asks for a value it can ask for, or for any. -/
structure LegalAlarm (s : RTCState) : Prop where
  /-- The seconds. -/
  seconds : dontCare (s.cmosData rtcSecondsAlarm) = true ∨
    IsSexagesimal s.isBinary (s.cmosData rtcSecondsAlarm)
  /-- The minutes. -/
  minutes : dontCare (s.cmosData rtcMinutesAlarm) = true ∨
    IsSexagesimal s.isBinary (s.cmosData rtcMinutesAlarm)
  /-- The hours. -/
  hours : dontCare (s.cmosData rtcHoursAlarm) = true ∨
    IsHour s.isBinary s.is24h (s.cmosData rtcHoursAlarm)

/-- The byte `shown` is what an alarm register asks for. -/
def AsksFor (b shown : BitVec 8) : Prop := dontCare b = true ∨ b = shown

/-- The alarm registers ask for what the time registers show. -/
structure AlarmShown (s : RTCState) : Prop where
  /-- The seconds. -/
  seconds : AsksFor (s.cmosData rtcSecondsAlarm) (s.cmosData rtcSeconds)
  /-- The minutes. -/
  minutes : AsksFor (s.cmosData rtcMinutesAlarm) (s.cmosData rtcMinutes)
  /-- The hours. -/
  hours : AsksFor (s.cmosData rtcHoursAlarm) (s.cmosData rtcHours)

/-- The end of an update cycle sets the alarm flag, whatever the flags were. -/
def RaisesAlarm (T : FieldTypes) (s : RTCState) : Prop :=
  ∀ flags, (rtcUpdateSecond2 T (s.setCmos rtcRegC flags)).anyBit rtcRegC regCAf = true

/-- **The alarm is raised if and only if the registers say so**, once the cycle has written them. -/
def AlarmAgrees (T : FieldTypes) (s : RTCState) : Prop :=
  RaisesAlarm T s ↔ AlarmShown (rtcUpdateSecond2 T s)

/-! ## Where they disagree -/

/-- An hours alarm that is decoded as another hour than the hours register shows: one after noon, at
its own hour, or 12 AM, at noon. -/
def HourMisread (dm : Bool) (b : BitVec 8) (hour : ℤ) : Prop :=
  12 ≤ hour ∧ (b = halfDayByte dm true (hour - 12) ∨ hour = 12 ∧ b = halfDayByte dm false 12)

instance (dm : Bool) (b : BitVec 8) (hour : ℤ) : Decidable (HourMisread dm b hour) :=
  inferInstanceAs (Decidable (_ ∧ _))

/-- The alarm is misread: the hour is, while the seconds and minutes ask for the time there is. -/
structure Misread (s : RTCState) : Prop where
  /-- The hours run from 0 to 11 twice. -/
  is24h : s.is24h = false
  /-- The seconds ask for the second. -/
  seconds : AsksFor (s.cmosData rtcSecondsAlarm) (rtcToBcd s.isBinary s.currentTm.second)
  /-- The minutes ask for the minute. -/
  minutes : AsksFor (s.cmosData rtcMinutesAlarm) (rtcToBcd s.isBinary s.currentTm.minute)
  /-- The hours are misread. -/
  hours : HourMisread s.isBinary (s.cmosData rtcHoursAlarm) s.currentTm.hour

/-! ## One register -/

theorem alarmMatches_eq (s : RTCState) (i : Fin 128) (value : ℤ) : alarmMatches s i value = true ↔
    dontCare (s.cmosData i) = true ∨ rtcFromBcd s.isBinary (s.cmosData i) = value := by
  rw [alarmMatches, Bool.or_eq_true, decide_eq_true_iff, dontCare]

/-- A number is read off a byte if and only if the byte was written for it. -/
theorem rtcFromBcd_eq_iff (dm : Bool) {y : ℕ} (hy : y < 100) {value : ℤ} (h0 : 0 ≤ value)
    (h : value < 100) :
    rtcFromBcd dm (rtcToBcd dm y) = value ↔ rtcToBcd dm y = rtcToBcd dm value := by
  rw [rtcFromBcd_rtcToBcd dm (by omega) (by omega)]
  constructor
  · rintro rfl
    rfl
  · intro heq
    have hread := congrArg (rtcFromBcd dm) heq
    rwa [rtcFromBcd_rtcToBcd dm (by omega) (by omega), rtcFromBcd_rtcToBcd dm h0 h] at hread

/-- **Seconds and minutes** are decoded as they are shown. -/
theorem alarmMatches_iff_asksFor {s : RTCState} {i : Fin 128}
    (hlegal : dontCare (s.cmosData i) = true ∨ IsSexagesimal s.isBinary (s.cmosData i)) {value : ℤ}
    (h : 0 ≤ value ∧ value < 60) : alarmMatches s i value = true ↔
      AsksFor (s.cmosData i) (rtcToBcd s.isBinary value) := by
  rw [alarmMatches_eq, AsksFor]
  rcases hlegal with hany | ⟨y, hy, hbyte⟩
  · exact iff_of_true (.inl hany) (.inl hany)
  · rw [hbyte, rtcFromBcd_eq_iff _ (by omega) h.1 (by omega)]

/-- The two readings of a byte in 12-hour format, for every hour of the day. -/
theorem halfDayByte_readings (dm pm : Bool) {y : ℕ} (hy : y < 13) {hour : ℤ}
    (h : 0 ≤ hour ∧ hour < 24) :
    dontCare (halfDayByte dm pm y) = false ∧
      ((rtcFromBcd dm (halfDayByte dm pm y) = hour ↔
          halfDayByte dm pm y = hoursByte dm false hour) ↔
        ¬HourMisread dm (halfDayByte dm pm y) hour) := by
  have hall : ∀ dm pm, ∀ y < 13, ∀ hour < 24, dontCare (halfDayByte dm pm (y : ℕ)) = false ∧
      ((rtcFromBcd dm (halfDayByte dm pm (y : ℕ)) = (hour : ℕ) ↔
          halfDayByte dm pm (y : ℕ) = hoursByte dm false (hour : ℕ)) ↔
        ¬HourMisread dm (halfDayByte dm pm (y : ℕ)) (hour : ℕ)) := by decide
  obtain ⟨n, rfl⟩ := Int.eq_ofNat_of_zero_le h.1
  exact hall dm pm y hy n (by omega)

/-- What is misread is no don't-care code. -/
theorem HourMisread.dontCare {dm : Bool} {b : BitVec 8} {hour : ℤ} (h : HourMisread dm b hour)
    (hhour : hour < 24) : dontCare b = false := by
  obtain ⟨hpm, rfl | ⟨-, rfl⟩⟩ := h
  · have hread := @halfDayByte_readings dm true (hour - 12).toNat (by omega) 0 (by omega)
    rw [Int.toNat_of_nonneg (by omega)] at hread
    exact hread.1
  · exact (@halfDayByte_readings dm false 12 (by decide) 0 (by omega)).1

/-- **The hours** are decoded as they are shown, except for those misread. -/
theorem alarmMatches_hours_iff {s : RTCState}
    (hlegal : dontCare (s.cmosData rtcHoursAlarm) = true ∨
      IsHour s.isBinary s.is24h (s.cmosData rtcHoursAlarm)) {hour : ℤ} (h : 0 ≤ hour ∧ hour < 24) :
    (alarmMatches s rtcHoursAlarm hour = true ↔
        AsksFor (s.cmosData rtcHoursAlarm) (hoursByte s.isBinary s.is24h hour)) ↔
      ¬(s.is24h = false ∧ HourMisread s.isBinary (s.cmosData rtcHoursAlarm) hour) := by
  rw [alarmMatches_eq, AsksFor]
  rcases hlegal with hany | hhour
  · refine iff_of_true (iff_of_true (.inl hany) (.inl hany)) fun hmisread ↦ ?_
    rw [hmisread.2.dontCare h.2] at hany
    exact Bool.false_ne_true hany
  · rw [IsHour] at hhour
    cases h24 : s.is24h
    · rw [h24, if_neg Bool.false_ne_true] at hhour
      obtain ⟨pm, y, hy, hbyte⟩ := hhour
      obtain ⟨hcares, hread⟩ := halfDayByte_readings s.isBinary pm hy h
      rw [hbyte, hcares]
      simpa using hread
    · rw [h24, if_pos rfl] at hhour
      obtain ⟨y, hy, hbyte⟩ := hhour
      rw [hbyte, rtcFromBcd_eq_iff _ (by omega) h.1 (by omega), hoursByte, if_pos rfl]
      exact iff_of_true Iff.rfl fun hmisread ↦ Bool.false_ne_true hmisread.1.symm

/-! ## The update cycle -/

section

variable (T : FieldTypes) (s : RTCState)

/-- Flags added to register C. -/
theorem anyBit_or (mask : BitVec 8) :
    (s.setCmos rtcRegC (s.cmosData rtcRegC ||| mask)).anyBit rtcRegC regCAf =
      (mask &&& regCAf != 0 || s.anyBit rtcRegC regCAf) := by
  have hor : s.cmosData rtcRegC &&& regCAf ||| mask &&& regCAf = 0 ↔
      s.cmosData rtcRegC &&& regCAf = 0 ∧ mask &&& regCAf = 0 := BitVec.or_eq_zero_iff
  rw [Bool.eq_iff_iff, RTCState.anyBit, setCmos_self, Bool.or_eq_true, bne_iff_ne, bne_iff_ne,
    RTCState.anyBit, bne_iff_ne, BitVec.and_or_distrib_right, ne_eq, hor, not_and_or, or_comm]

/-- **The alarm flag** after an update cycle. -/
theorem anyBit_rtcUpdateSecond2 : (rtcUpdateSecond2 T s).anyBit rtcRegC regCAf =
    (alarmDue s || s.anyBit rtcRegC regCAf) := by
  obtain ⟨halarm, -⟩ := due_copied T s (!s.anyBit rtcRegB regBSet)
  have hcopy : (if !s.anyBit rtcRegB regBSet then rtcCopyDate T s else s).anyBit rtcRegC regCAf =
      s.anyBit rtcRegC regCAf := by
    split
    · rw [RTCState.anyBit, rtcCopyDate_cmosData_of_notMem T s (by decide)]
      rfl
    · rfl
  rw [rtcUpdateSecond2, ← halarm, ← hcopy]
  generalize (if !s.anyBit rtcRegB regBSet then rtcCopyDate T s else s) = s₁
  dsimp only
  rw [← alarmDue]
  have hdue : (if alarmDue s₁
      then (s₁.setCmos rtcRegC (s₁.cmosData rtcRegC ||| 0xa0)).emit (.setIrqLevel 1)
      else s₁).anyBit rtcRegC regCAf = (alarmDue s₁ || s₁.anyBit rtcRegC regCAf) := by
    cases alarmDue s₁ with
    | false => rfl
    | true => exact anyBit_or s₁ 0xa0
  generalize (if alarmDue s₁
    then (s₁.setCmos rtcRegC (s₁.cmosData rtcRegC ||| 0xa0)).emit (.setIrqLevel 1) else s₁) = s₂
    at hdue ⊢
  have huf := anyBit_or s₂ regCUf
  generalize s₂.setCmos rtcRegC (s₂.cmosData rtcRegC ||| regCUf) = s₃ at huf ⊢
  have hended : (if s₃.anyBit rtcRegB regBUie
      then (s₃.setCmos rtcRegC (s₃.cmosData rtcRegC ||| regCIrqf)).emit (.setIrqLevel 1)
      else s₃).anyBit rtcRegC regCAf = s₃.anyBit rtcRegC regCAf := by
    split
    · exact anyBit_or s₃ regCIrqf
    · rfl
  rw [← hdue]
  exact hended.trans huf

theorem alarmDue_setCmos (flags : BitVec 8) :
    alarmDue (s.setCmos rtcRegC flags) = alarmDue s := by
  have hreg : ∀ i ≠ rtcRegC, (s.setCmos rtcRegC flags).cmosData i = s.cmosData i := fun i hi ↦
    setCmos_of_ne s hi flags
  have hmatch : ∀ i ≠ rtcRegC, ∀ value,
      alarmMatches (s.setCmos rtcRegC flags) i value = alarmMatches s i value := by
    intro i hi value
    rw [alarmMatches, alarmMatches, hreg i hi, RTCState.isBinary, RTCState.anyBit,
      hreg rtcRegB (by decide)]
    rfl
  have htm : (s.setCmos rtcRegC flags).currentTm = s.currentTm := rfl
  simp only [alarmDue, RTCState.anyBit, hreg rtcRegB (by decide), htm,
    hmatch rtcSecondsAlarm (by decide), hmatch rtcMinutesAlarm (by decide),
    hmatch rtcHoursAlarm (by decide)]

/-- **The alarm is raised when it is due.** -/
theorem raisesAlarm_iff : RaisesAlarm T s ↔ alarmDue s = true := by
  constructor
  · intro h
    have hclear := h 0
    rw [anyBit_rtcUpdateSecond2, alarmDue_setCmos, RTCState.anyBit, setCmos_self] at hclear
    simpa using hclear
  · intro hdue flags
    rw [anyBit_rtcUpdateSecond2, alarmDue_setCmos, hdue, Bool.true_or]

variable {s}

/-- The registers that are neither flags nor register A are those of `rtc_copy_date`. -/
theorem cmosData_rtcUpdateSecond2 (hset : setMode s = false) {i : Fin 128}
    (hA : i ≠ rtcRegA) (hC : i ≠ rtcRegC) :
    (rtcUpdateSecond2 T s).cmosData i = (rtcCopyDate T s).cmosData i := by
  obtain ⟨t, ht, hend⟩ := rtcUpdateSecond2_eq T s
  rw [if_neg (by rw [hset]; exact Bool.false_ne_true)] at ht
  rw [hend]
  exact (setCmos_of_ne t hA _).trans (ht.cmosData i hC)

/-- What the registers say about the alarm after the cycle. -/
theorem alarmShown_iff (hset : setMode s = false) : AlarmShown (rtcUpdateSecond2 T s) ↔
    AsksFor (s.cmosData rtcSecondsAlarm) (rtcToBcd s.isBinary s.currentTm.second) ∧
    AsksFor (s.cmosData rtcMinutesAlarm) (rtcToBcd s.isBinary s.currentTm.minute) ∧
    AsksFor (s.cmosData rtcHoursAlarm) (hoursByte s.isBinary s.is24h s.currentTm.hour) := by
  have hreg : ∀ i ≠ rtcRegA, i ≠ rtcRegC →
      (rtcUpdateSecond2 T s).cmosData i = (rtcCopyDate T s).cmosData i := fun i ↦
    cmosData_rtcUpdateSecond2 T hset
  obtain ⟨e0, e1, e2, -⟩ := rtcCopyDate_cmosData T s
  have hsec := hreg rtcSeconds (by decide) (by decide)
  have hmin := hreg rtcMinutes (by decide) (by decide)
  have hhours := hreg rtcHours (by decide) (by decide)
  have hkeep : ∀ i ≠ rtcRegA, i ≠ rtcRegC → i ∉ timeRegisters →
      (rtcUpdateSecond2 T s).cmosData i = s.cmosData i := fun i hA hC hi ↦
    (hreg i hA hC).trans (rtcCopyDate_cmosData_of_notMem T s hi)
  have hsecAlarm := hkeep rtcSecondsAlarm (by decide) (by decide) (by decide)
  have hminAlarm := hkeep rtcMinutesAlarm (by decide) (by decide) (by decide)
  have hhoursAlarm := hkeep rtcHoursAlarm (by decide) (by decide) (by decide)
  rw [e0] at hsec
  rw [e1] at hmin
  rw [e2] at hhours
  constructor
  · rintro ⟨h0, h1, h2⟩
    rw [hsec, hsecAlarm] at h0
    rw [hmin, hminAlarm] at h1
    rw [hhours, hhoursAlarm] at h2
    exact ⟨h0, h1, h2⟩
  · rintro ⟨h0, h1, h2⟩
    refine ⟨?_, ?_, ?_⟩
    · rwa [hsec, hsecAlarm]
    · rwa [hmin, hminAlarm]
    · rwa [hhours, hhoursAlarm]

/-- **The alarm agrees with the registers unless it is misread.** -/
theorem alarmAgrees_iff (haie : s.anyBit rtcRegB regBAie = true) (hset : setMode s = false)
    (htime : TimeOfDay s.currentTm) (hlegal : LegalAlarm s) : AlarmAgrees T s ↔ ¬Misread s := by
  have hsec := alarmMatches_iff_asksFor hlegal.seconds htime.second
  have hmin := alarmMatches_iff_asksFor hlegal.minutes htime.minute
  have hhours := alarmMatches_hours_iff hlegal.hours htime.hour
  have hmisread : Misread s ↔
      (AsksFor (s.cmosData rtcSecondsAlarm) (rtcToBcd s.isBinary s.currentTm.second) ∧
        AsksFor (s.cmosData rtcMinutesAlarm) (rtcToBcd s.isBinary s.currentTm.minute)) ∧
      s.is24h = false ∧ HourMisread s.isBinary (s.cmosData rtcHoursAlarm) s.currentTm.hour :=
    ⟨fun h ↦ ⟨⟨h.seconds, h.minutes⟩, h.is24h, h.hours⟩, fun h ↦ ⟨h.2.1, h.1.1, h.1.2, h.2.2⟩⟩
  rw [AlarmAgrees, raisesAlarm_iff, alarmShown_iff T hset, hmisread, alarmDue, haie, Bool.true_and,
    Bool.and_eq_true, Bool.and_eq_true, hsec, hmin, ← and_assoc, and_congr_right_iff, hhours]
  exact not_and.symm

end

/-- A clock in 12-hour format, with its alarm at 1 PM, whatever the second and the minute. -/
def afternoonAlarm : RTCState where
  cmosData := Function.update (Function.update (Function.update (Function.update (fun _ ↦ 0)
    rtcRegB regBAie) rtcSecondsAlarm 0xc0) rtcMinutesAlarm 0xc0) rtcHoursAlarm 0x81
  currentTm := exampleDate
  baseYear := 1900
  nextSecondTime := 0
  log := []

/-- It is one o'clock in the afternoon. -/
theorem alarmAgrees_iff_afternoon :
    AlarmAgrees intFields afternoonAlarm ↔ ¬Misread afternoonAlarm :=
  alarmAgrees_iff intFields (by decide) (by decide) ⟨by decide, by decide, by decide⟩
    ⟨.inl (by decide), .inl (by decide), .inr ⟨true, 1, by decide, by decide⟩⟩

/-- **An alarm at 1 PM does not come**: the hours register shows what it asks for, and no flag is
set. -/
theorem not_forall_alarmAgrees : ¬ ∀ T s, s.anyBit rtcRegB regBAie = true → setMode s = false →
    TimeOfDay s.currentTm → LegalAlarm s → AlarmAgrees T s := by
  intro h
  have hagrees := h intFields afternoonAlarm (by decide) (by decide)
    ⟨by decide, by decide, by decide⟩
    ⟨.inl (by decide), .inl (by decide), .inr ⟨true, 1, by decide, by decide⟩⟩
  have hshown : AlarmShown (rtcUpdateSecond2 intFields afternoonAlarm) :=
    ⟨.inl (by decide), .inl (by decide), .inr (by decide)⟩
  exact absurd (hagrees.2 hshown 0) (by decide)

end Rtc
end CamkesVm
