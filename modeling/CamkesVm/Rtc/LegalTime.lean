import CamkesVm.Lib.Flags
import CamkesVm.Rtc.Calendar
import CamkesVm.Rtc.Chain
import CamkesVm.Rtc.SetMode

/-!
# Taking a legal time

The registers denote a date and a time of day in one of four formats.  In 12-hour format the hours
are 1 to 12, with the top bit set after noon, and 12 comes before 1: 12 AM is midnight and 12 PM is
noon.  `rtc_set_time` adds 12 to whatever number has the top bit, so it takes 12 AM for noon and
12 PM for the hour 24, of which there is none; all else it takes for what it denotes
(`currentTm_rtcSetTime_iff`).

The internal month counts from 0, as `get_days_in_month` has it, and the internal year from 1900.

So the internal time is a time of day in every state, as long as the guest writes legal bytes and
not 12 PM.  Changing the format in set mode makes other numbers of the bytes there are, and what the
guest has to answer for then is that they are legal when it leaves set mode (`run_timeOfDay`).

## What is here

* `clockByte`, `Denotes`, `currentTm_rtcSetTime_iff` — what registers denote, and the exact set of
  legal times that are taken for it.
* `LegalByte`, `LegalWrite`, `IsNoon`, `TakesNoon` — the guest's side: which bytes are legal to
  write, and which write sets the clock to 12 PM.
* `Timely`, `Timely.next`, `run_timeOfDay` — the device's side, step and run.
* `legal_time_accepted_iff` — both together; its example is a guest that sets the clock to noon.
-/

set_option autoImplicit false

namespace CamkesVm
namespace Rtc

open Transition

/-! ## What the registers denote -/

/-- The byte for an hour of the day. -/
def clockByte (dm h24 : Bool) (hour : ℤ) : BitVec 8 :=
  if h24 then rtcToBcd dm hour
  else halfDayByte dm (12 ≤ hour) (if hour % 12 = 0 then 12 else hour % 12)

/-- The registers hold the date and the time of day `tm`, in the format register B selects. -/
structure Denotes (s : RTCState) (tm : RtcTimeDate) : Prop where
  /-- The second. -/
  second : (0 ≤ tm.second ∧ tm.second < 60) ∧
    s.cmosData rtcSeconds = rtcToBcd s.isBinary tm.second
  /-- The minute. -/
  minute : (0 ≤ tm.minute ∧ tm.minute < 60) ∧
    s.cmosData rtcMinutes = rtcToBcd s.isBinary tm.minute
  /-- The hour. -/
  hour : (0 ≤ tm.hour ∧ tm.hour < 24) ∧
    s.cmosData rtcHours = clockByte s.isBinary s.is24h tm.hour
  /-- The day of the month. -/
  day : (1 ≤ tm.day ∧ tm.day ≤ 31) ∧ s.cmosData rtcDayOfMonth = rtcToBcd s.isBinary tm.day
  /-- The month, which the register counts from 1. -/
  month : (0 ≤ tm.month ∧ tm.month < 12) ∧
    s.cmosData rtcMonth = rtcToBcd s.isBinary (tm.month + 1)
  /-- The year of the century. -/
  year : (0 ≤ tm.year ∧ tm.year < 100) ∧ s.cmosData rtcYear = rtcToBcd s.isBinary tm.year

/-- The hour that is read off the byte for an hour. -/
theorem hourOfByte_clockByte (dm h24 : Bool) {hour : ℤ} (h : 0 ≤ hour ∧ hour < 24) :
    hourOfByte dm h24 (clockByte dm h24 hour) =
      if h24 = false ∧ hour % 12 = 0 then hour + 12 else hour := by
  have hall : ∀ dm h24, ∀ n < 24, hourOfByte dm h24 (clockByte dm h24 (n : ℕ)) =
      if h24 = false ∧ (n : ℤ) % 12 = 0 then (n : ℤ) + 12 else n := by decide
  obtain ⟨n, rfl⟩ := Int.eq_ofNat_of_zero_le h.1
  exact hall dm h24 n (by omega)

theorem rtcFromBcd_clockByte (dm h24 : Bool) {hour : ℤ} (h : 0 ≤ hour ∧ hour < 24) :
    0 ≤ rtcFromBcd dm (clockByte dm h24 hour &&& 0x7f) ∧
      rtcFromBcd dm (clockByte dm h24 hour &&& 0x7f) < 24 := by
  have hall : ∀ dm h24, ∀ n < 24, 0 ≤ rtcFromBcd dm (clockByte dm h24 (n : ℕ) &&& 0x7f) ∧
      rtcFromBcd dm (clockByte dm h24 (n : ℕ) &&& 0x7f) < 24 := by decide
  obtain ⟨n, rfl⟩ := Int.eq_ofNat_of_zero_le h.1
  exact hall dm h24 n (by omega)

section

variable (T : FieldTypes) {s : RTCState} {tm : RtcTimeDate}

/-- **What `rtc_set_time` takes the registers for**: what they denote, but for the hour. -/
theorem currentTm_rtcSetTime_of_denotes (hbase : s.baseYear = 1900) (h : Denotes s tm) :
    (rtcSetTime T s).currentTm =
      { tm with hour := if s.is24h = false ∧ tm.hour % 12 = 0 then tm.hour + 12 else tm.hour } := by
  obtain ⟨⟨hs, es⟩, ⟨hmin, emin⟩, ⟨hh, eh⟩, ⟨hd, ed⟩, ⟨hm, em⟩, ⟨hy, ey⟩⟩ := h
  have hread : ∀ x, 0 ≤ x → x < 100 → rtcFromBcd s.isBinary (rtcToBcd s.isBinary x) = x :=
    fun x h0 h ↦ rtcFromBcd_rtcToBcd s.isBinary h0 h
  have hfield : ∀ x, 0 ≤ x → x < 100 → T.field x = x :=
    fun x h0 h ↦ T.field_of_small x h0 (by omega)
  refine RtcTimeDate.ext ?_ ?_ ?_ ?_ ?_ ?_
  · simp only [rtcSetTime, es]
    rw [hread _ (by omega) (by omega), hfield _ (by omega) (by omega)]
  · simp only [rtcSetTime, emin]
    rw [hread _ (by omega) (by omega), hfield _ (by omega) (by omega)]
  · rw [hour_rtcSetTime, eh, hourOfByte_clockByte _ _ hh]
    rw [eh]
    exact rtcFromBcd_clockByte _ _ hh
  · simp only [rtcSetTime, ed]
    rw [hread _ (by omega) (by omega), hfield _ (by omega) (by omega)]
  · simp only [rtcSetTime, em]
    rw [hread _ (by omega) (by omega), hfield _ (by omega) (by omega)]
    omega
  · simp only [rtcSetTime, ey, hbase]
    rw [hread _ (by omega) (by omega), T.year_of_small _ (by omega) (by omega)]
    omega

/-- **Every legal time but twelve o'clock** in 12-hour format is taken for what it is. -/
theorem currentTm_rtcSetTime_iff (hbase : s.baseYear = 1900) (h : Denotes s tm) :
    (rtcSetTime T s).currentTm = tm ↔ ¬(s.is24h = false ∧ tm.hour % 12 = 0) := by
  rw [currentTm_rtcSetTime_of_denotes T hbase h]
  split
  · rename_i htwelve
    refine iff_of_false (fun heq ↦ ?_) (not_not_intro htwelve)
    have hhour := congrArg RtcTimeDate.hour heq
    dsimp only at hhour
    omega
  · rename_i htwelve
    exact iff_of_true rfl htwelve

end

/-! ## Legal bytes -/

/-- The byte `b` is legal in register `i`, as far as this is a register of the time of day. -/
structure LegalByte (s : RTCState) (i : Fin 128) (b : BitVec 8) : Prop where
  /-- In the seconds. -/
  seconds : i = rtcSeconds → IsSexagesimal s.isBinary b
  /-- In the minutes. -/
  minutes : i = rtcMinutes → IsSexagesimal s.isBinary b
  /-- In the hours. -/
  hours : i = rtcHours → IsHour s.isBinary s.is24h b

instance (s : RTCState) (i : Fin 128) (b : BitVec 8) : Decidable (LegalByte s i b) :=
  decidable_of_iff ((i = rtcSeconds → IsSexagesimal s.isBinary b) ∧
      (i = rtcMinutes → IsSexagesimal s.isBinary b) ∧ (i = rtcHours → IsHour s.isBinary s.is24h b))
    ⟨fun h ↦ ⟨h.1, h.2.1, h.2.2⟩, fun h ↦ ⟨h.seconds, h.minutes, h.hours⟩⟩

/-- The hours register says 12 PM. -/
def IsNoon (s : RTCState) : Prop :=
  s.is24h = false ∧ s.cmosData rtcHours = halfDayByte s.isBinary true 12

instance (s : RTCState) : Decidable (IsNoon s) := inferInstanceAs (Decidable (_ ∧ _))

theorem rtcFromBcd_of_isSexagesimal {dm : Bool} {b : BitVec 8} (h : IsSexagesimal dm b) :
    0 ≤ rtcFromBcd dm b ∧ rtcFromBcd dm b < 60 := by
  obtain ⟨y, hy, rfl⟩ := h
  rw [rtcFromBcd_rtcToBcd dm (by omega) (by omega)]
  omega

/-- The hour read off a legal byte is one of 24, if the byte is not 12 PM. -/
theorem hourOfByte_of_isHour {dm h24 : Bool} {b : BitVec 8} (h : IsHour dm h24 b)
    (hnoon : ¬(h24 = false ∧ b = halfDayByte dm true 12)) :
    0 ≤ hourOfByte dm h24 b ∧ hourOfByte dm h24 b < 24 := by
  cases h24 with
  | true =>
    have hall : ∀ dm, ∀ y < 24, 0 ≤ hourOfByte dm true (rtcToBcd dm (y : ℕ)) ∧
        hourOfByte dm true (rtcToBcd dm (y : ℕ)) < 24 := by decide
    obtain ⟨y, hy, rfl⟩ := h
    exact hall dm y hy
  | false =>
    have hall : ∀ dm pm, ∀ y < 13, halfDayByte dm pm (y : ℕ) ≠ halfDayByte dm true 12 →
        0 ≤ hourOfByte dm false (halfDayByte dm pm (y : ℕ)) ∧
          hourOfByte dm false (halfDayByte dm pm (y : ℕ)) < 24 := by decide
    obtain ⟨pm, y, hy, rfl⟩ := h
    exact hall dm pm y hy fun heq ↦ hnoon ⟨rfl, heq⟩

section

variable (T : FieldTypes) {s : RTCState}

/-- **A time of day in the registers is taken for one.** -/
theorem timeOfDay_rtcSetTime (h : TimeOfDay (displayed s)) :
    TimeOfDay (rtcSetTime T s).currentTm := by
  obtain ⟨hs, hmin, hh⟩ := h
  have hrange : 0 ≤ rtcFromBcd s.isBinary (s.cmosData rtcHours &&& 0x7f) ∧
      rtcFromBcd s.isBinary (s.cmosData rtcHours &&& 0x7f) < 24 := by
    have hnonneg : ∀ dm b, 0 ≤ rtcFromBcd dm b := by
      intro dm b
      rw [rtcFromBcd]
      split <;> omega
    refine ⟨hnonneg _ _, ?_⟩
    simp only [displayed, hourOfByte] at hh
    split at hh <;> omega
  refine ⟨?_, ?_, ?_⟩
  · change 0 ≤ T.field (displayed s).second ∧ T.field (displayed s).second < 60
    rw [T.field_of_small _ hs.1 (by omega)]
    exact hs
  · change 0 ≤ T.field (displayed s).minute ∧ T.field (displayed s).minute < 60
    rw [T.field_of_small _ hmin.1 (by omega)]
    exact hmin
  · rw [hour_rtcSetTime T hrange]
    exact hh

/-- **12 PM is taken for the hour 24.** -/
theorem hour_rtcSetTime_of_isNoon (h : IsNoon s) : (rtcSetTime T s).currentTm.hour = 24 := by
  have hall : ∀ dm, rtcFromBcd dm (halfDayByte dm true 12 &&& 0x7f) = 12 ∧
      hourOfByte dm false (halfDayByte dm true 12) = 24 := by decide
  obtain ⟨h24, hbyte⟩ := h
  rw [hour_rtcSetTime, hbyte, h24, (hall _).2]
  rw [hbyte, (hall _).1]
  decide

/-- **A legal byte is written** to the registers. -/
theorem timeOfDay_displayed_setCmos (h : TimeOfDay (displayed s)) {i : Fin 128} {b : BitVec 8}
    (hi : i ≠ rtcRegB) (hb : LegalByte s i b) (hnoon : ¬IsNoon (s.setCmos i b)) :
    TimeOfDay (displayed (s.setCmos i b)) := by
  have hregB : (s.setCmos i b).cmosData rtcRegB = s.cmosData rtcRegB := setCmos_of_ne s hi.symm b
  have hbin : (s.setCmos i b).isBinary = s.isBinary := by
    rw [RTCState.isBinary, RTCState.anyBit, hregB]
    rfl
  have h24 : (s.setCmos i b).is24h = s.is24h := by
    rw [RTCState.is24h, RTCState.anyBit, hregB]
    rfl
  have hread : ∀ j, (s.setCmos i b).cmosData j = if j = i then b else s.cmosData j := fun j ↦
    Function.update_apply _ _ _ _
  refine ⟨?_, ?_, ?_⟩
  · simp only [displayed, hbin, hread]
    split
    · exact rtcFromBcd_of_isSexagesimal (hb.seconds (Eq.symm ‹_›))
    · exact h.second
  · simp only [displayed, hbin, hread]
    split
    · exact rtcFromBcd_of_isSexagesimal (hb.minutes (Eq.symm ‹_›))
    · exact h.minute
  · rw [IsNoon, hbin, h24, hread] at hnoon
    simp only [displayed, hbin, h24, hread]
    split
    · rename_i heq
      rw [if_pos heq] at hnoon
      exact hourOfByte_of_isHour (hb.hours heq.symm) hnoon
    · exact h.hour

/-- Legal bytes in all registers, and not 12 PM, are a time of day. -/
theorem timeOfDay_displayed (h : ∀ i, LegalByte s i (s.cmosData i)) (hnoon : ¬IsNoon s) :
    TimeOfDay (displayed s) :=
  ⟨rtcFromBcd_of_isSexagesimal ((h _).seconds rfl), rtcFromBcd_of_isSexagesimal ((h _).minutes rfl),
    hourOfByte_of_isHour ((h _).hours rfl) hnoon⟩

/-- The device shows a time of day as one. -/
theorem timeOfDay_displayed_rtcCopyDate (h : TimeOfDay s.currentTm) :
    TimeOfDay (displayed (rtcCopyDate T s)) := by
  obtain ⟨hs, hmin, hh⟩ := h
  obtain ⟨e0, e1, e2, -⟩ := rtcCopyDate_cmosData T s
  refine ⟨?_, ?_, ?_⟩
  · simp only [displayed, isBinary_rtcCopyDate, e0]
    rwa [rtcFromBcd_rtcToBcd _ hs.1 (by omega)]
  · simp only [displayed, isBinary_rtcCopyDate, e1]
    rwa [rtcFromBcd_rtcToBcd _ hmin.1 (by omega)]
  · simp only [displayed, isBinary_rtcCopyDate, is24h_rtcCopyDate, e2]
    rwa [hourOfByte_hoursByte _ _ hh.1 hh.2]

/-- The next second is of the day too. -/
theorem timeOfDay_rtcNextSecond {tm : RtcTimeDate} (h : TimeOfDay tm) :
    TimeOfDay (rtcNextSecond T tm) := by
  have hnextDay : ∀ tm, (rtcNextDay T tm).second = tm.second ∧
      (rtcNextDay T tm).minute = tm.minute ∧ (rtcNextDay T tm).hour = tm.hour := by
    intro tm
    rw [rtcNextDay]
    dsimp only
    repeat' split
    all_goals exact ⟨rfl, rfl, rfl⟩
  obtain ⟨e0, e1, e2⟩ := hnextDay { tm with second := 0, minute := 0, hour := 0 }
  have hzero : (0 : ℤ) ≤ 0 ∧ (0 : ℤ) < 60 := by decide
  rw [rtcNextSecond_eq h]
  obtain ⟨hs, hmin, hh⟩ := h
  split
  · exact ⟨⟨by dsimp only; omega, by dsimp only; omega⟩, hmin, hh⟩
  · split
    · exact ⟨hzero, ⟨by dsimp only; omega, by dsimp only; omega⟩, hh⟩
    · split
      · exact ⟨hzero, hzero, ⟨by dsimp only; omega, by dsimp only; omega⟩⟩
      · refine ⟨?_, ?_, ?_⟩
        · rw [e0]
          exact hzero
        · rw [e1]
          exact hzero
        · rw [e2]
          exact ⟨le_rfl, show (0 : ℤ) < 24 by decide⟩

end

/-! ## The time of day along a run -/

/-- The internal time is a time of day, and outside set mode the registers show one. -/
structure Timely (s : RTCState) : Prop where
  /-- The internal time. -/
  time : TimeOfDay s.currentTm
  /-- The registers. -/
  shown : setMode s = false → TimeOfDay (displayed s)

namespace Timely

variable (T : FieldTypes) {s t : RTCState}

theorem congr (h : Timely s) (htm : t.currentTm = s.currentTm)
    (hB : t.cmosData rtcRegB = s.cmosData rtcRegB)
    (hregs : ∀ i ∈ timeRegisters, t.cmosData i = s.cmosData i) : Timely t where
  time := htm ▸ h.time
  shown hset := by
    rw [displayed_congr hB hregs]
    refine h.shown ?_
    rw [setMode, RTCState.anyBit, ← hB]
    exact hset

/-- Another register is written. -/
theorem setCmos (h : Timely s) {i : Fin 128} (hB : i ≠ rtcRegB) (hi : i ∉ timeRegisters)
    (v : BitVec 8) : Timely (s.setCmos i v) :=
  h.congr rfl (setCmos_of_ne s hB.symm v) fun _ hj ↦
    setCmos_of_ne s (fun heq ↦ hi (by rwa [← heq])) v

theorem timeRegisters_subset : timeRegisters ⊆ dateRegisters := by decide

theorem onlyFlags (h : Timely s) (hflags : OnlyFlags s t) : Timely t :=
  h.congr hflags.currentTm (hflags.cmosData _ (by decide)) fun _ hi ↦
    hflags.date (timeRegisters_subset hi)

theorem rtcCopyDate (h : TimeOfDay s.currentTm) : Timely (rtcCopyDate T s) :=
  ⟨h, fun _ ↦ timeOfDay_displayed_rtcCopyDate T h⟩

/-- **The update cycle** keeps the time of day. -/
theorem rtcUpdateSecond (h : Timely s) : Timely (rtcUpdateSecond T s) := by
  have hnext : Timely { s with currentTm := rtcNextSecond T s.currentTm } :=
    ⟨timeOfDay_rtcNextSecond T h.time, h.shown⟩
  cases hosc : oscillating s
  · rw [rtcUpdateSecond_of_stopped T hosc]
    exact ⟨h.time, h.shown⟩
  · rw [rtcUpdateSecond_of_oscillating T hosc]
    split
    · exact ⟨hnext.time, hnext.shown⟩
    · have hannounced := hnext.setCmos (i := rtcRegA) (by decide) (by decide)
        (s.cmosData rtcRegA ||| regAUip)
      exact ⟨hannounced.time, hannounced.shown⟩

theorem rtcUpdateSecond2 (h : Timely s) : Timely (rtcUpdateSecond2 T s) := by
  obtain ⟨t, ht, hend⟩ := rtcUpdateSecond2_eq T s
  have hcopied : Timely (if setMode s then s else Rtc.rtcCopyDate T s) := by
    split
    · exact h
    · exact rtcCopyDate T h.time
  have hended := (hcopied.onlyFlags ht).setCmos (i := rtcRegA) (by decide) (by decide)
    (t.cmosData rtcRegA &&& ~~~regAUip)
  rw [hend]
  exact ⟨hended.time, hended.shown⟩

/-- Register B is written, outside set mode or to leave it. -/
theorem writeRegB (hread : TimeOfDay (displayed s)) (htime : TimeOfDay (leaveSetMode T s).currentTm)
    {data : BitVec 8} (hclear : data &&& regBSet = 0) : Timely (writeRegB T data s) := by
  have hregs : (leaveSetMode T s).cmosData = s.cmosData := by
    rw [leaveSetMode]
    split <;> rfl
  rw [writeRegB_of_clear T hclear, hregs]
  split
  · exact rtcCopyDate T htime
  · rename_i hformat
    rw [bne_iff_ne, not_not] at hformat
    refine ⟨htime, fun _ ↦ ?_⟩
    have hbin : ((leaveSetMode T s).setCmos rtcRegB data).isBinary = s.isBinary := by
      rw [RTCState.isBinary, RTCState.anyBit, setCmos_self,
        ← Flags.and_eq_of_xor_and _ hformat (by decide)]
      rfl
    have h24 : ((leaveSetMode T s).setCmos rtcRegB data).is24h = s.is24h := by
      rw [RTCState.is24h, RTCState.anyBit, setCmos_self,
        ← Flags.and_eq_of_xor_and _ hformat (by decide)]
      rfl
    have hsame : displayed ((leaveSetMode T s).setCmos rtcRegB data) = displayed s := by
      rw [displayed, displayed, hbin, h24]
      simp only [setCmos_of_ne _ (show rtcSeconds ≠ rtcRegB by decide),
        setCmos_of_ne _ (show rtcMinutes ≠ rtcRegB by decide),
        setCmos_of_ne _ (show rtcHours ≠ rtcRegB by decide),
        setCmos_of_ne _ (show rtcDayOfMonth ≠ rtcRegB by decide),
        setCmos_of_ne _ (show rtcMonth ≠ rtcRegB by decide),
        setCmos_of_ne _ (show rtcYear ≠ rtcRegB by decide), hregs]
    rwa [hsame]

/-- What a write sets the time from says a time of day, unless it says 12 PM. -/
theorem displayed_edited (h : Timely s) {i : Fin 128} {data : BitVec 8} (hb : LegalByte s i data)
    (hleave : i = rtcRegB → setMode s = true → data &&& regBSet = 0 →
      ∀ j, LegalByte s j (s.cmosData j))
    (hsets : setsTime s i data) (hnoon : ¬IsNoon (edited s i data)) :
    TimeOfDay (displayed (edited s i data)) := by
  rcases hsets with ⟨hdate, hset⟩ | ⟨rfl, hset, hclear⟩
  · have hB := (ne_of_mem_dateRegisters hdate).2.1
    rw [edited, if_neg hB] at hnoon ⊢
    exact timeOfDay_displayed_setCmos (h.shown hset) hB hb hnoon
  · rw [edited, if_pos rfl] at hnoon ⊢
    exact timeOfDay_displayed (hleave rfl hset hclear) hnoon

/-- **A write keeps the time of day**, if its byte is legal and it does not set the clock to
12 PM. -/
theorem storeCmos (h : Timely s) {i : Fin 128} {data : BitVec 8} (hb : LegalByte s i data)
    (hleave : i = rtcRegB → setMode s = true → data &&& regBSet = 0 →
      ∀ j, LegalByte s j (s.cmosData j))
    (hnoon : ¬(setsTime s i data ∧ IsNoon (edited s i data))) : Timely (storeCmos T i data s) := by
  have hedited : setsTime s i data → TimeOfDay (displayed (edited s i data)) := fun hsets ↦
    h.displayed_edited hb hleave hsets fun hno ↦ hnoon ⟨hsets, hno⟩
  rw [Rtc.storeCmos]
  split
  · rename_i hdate
    have hB := (ne_of_mem_dateRegisters hdate).2.1
    split
    · rename_i hset
      exact ⟨h.time, fun hclear ↦ absurd hclear (by rw [setMode_setCmos hB, hset]; decide)⟩
    · rename_i hset
      rw [edited, if_neg hB] at hedited
      have hread := hedited (.inl ⟨hdate, by simpa using hset⟩)
      exact ⟨timeOfDay_rtcSetTime T hread, fun _ ↦ hread⟩
  · rename_i hdate
    split
    · exact h.setCmos (by decide) (by decide) _
    · split
      · rename_i hi
        subst hi
        by_cases hclear : data &&& regBSet = 0
        · rw [edited, if_pos rfl] at hedited
          cases hset : setMode s
          · refine writeRegB T (h.shown hset) ?_ hclear
            rw [leaveSetMode, hset]
            exact h.time
          · have hread := hedited (.inr ⟨rfl, hset, hclear⟩)
            refine writeRegB T hread ?_ hclear
            rw [leaveSetMode, hset]
            exact timeOfDay_rtcSetTime T hread
        · rw [writeRegB_of_set T hclear]
          refine ⟨h.time, fun hno ↦ absurd hno ?_⟩
          rw [setMode, RTCState.anyBit, setCmos_self, Flags.and_and_of_subset _ (by decide)]
          simpa using hclear
      · split
        · exact h
        · rename_i hB _
          exact h.setCmos hB (fun hmem ↦ hdate (timeRegisters_subset hmem)) data

theorem rtcPreInit {tm : RtcTimeDate} (h : TimeOfDay tm) (now : ℤ) :
    Timely (rtcPreInit T tm now) := by
  refine ⟨h, fun _ ↦ ?_⟩
  obtain ⟨s, htm, -, hcopy⟩ := displayed_rtcPreInit T tm now
  rw [hcopy]
  exact timeOfDay_displayed_rtcCopyDate T (htm ▸ h)

end Timely

/-- **A legal write** of the guest: a byte that is legal in the format in force; and where it leaves
set mode, all bytes are. -/
def LegalWrite (y : Machine) : Event → Prop
  | .portOut addr data _ => addr % 2 ≠ 0 →
    LegalByte y.rtc.toRTCState y.rtc.cmosIndex data ∧
      (y.rtc.cmosIndex = rtcRegB → setMode y.rtc.toRTCState = true → data &&& regBSet = 0 →
        ∀ i, LegalByte y.rtc.toRTCState i (y.rtc.cmosData i))
  | _ => True

instance (y : Machine) : (e : Event) → Decidable (LegalWrite y e)
  | .portOut _ _ _ => inferInstanceAs (Decidable (_ → _ ∧ _))
  | .portIn _ | .expire _ | .timer _ _ => inferInstanceAs (Decidable True)

/-- The guest sets the clock to 12 PM, in 12-hour format. -/
def TakesNoon (y : Machine) : Event → Prop
  | .portOut addr data _ => addr % 2 ≠ 0 ∧ setsTime y.rtc.toRTCState y.rtc.cmosIndex data ∧
      IsNoon (edited y.rtc.toRTCState y.rtc.cmosIndex data)
  | _ => False

section

variable (T : FieldTypes) {y : Machine} {e : Event}

/-- **Whatever happens, the time of day stays one**, unless the clock is set to 12 PM. -/
theorem Timely.next (h : Timely y.rtc.toRTCState) (hnone : y.rtc.irqCoalesced = 0)
    (hlegal : LegalWrite y e) (hnoon : ¬TakesNoon y e) :
    Timely (y.next T e).rtc.toRTCState := by
  rw [Machine.core_next T hnone]
  cases e with
  | portIn addr =>
    dsimp only
    split
    · exact h.onlyFlags (onlyFlags_ackRegC _)
    · exact h
  | portOut addr data now =>
    dsimp only
    split
    · exact h
    · rename_i hodd
      obtain ⟨hb, hleave⟩ := hlegal hodd
      exact h.storeCmos T hb hleave fun hno ↦ hnoon ⟨hodd, hno⟩
  | expire timer => exact h
  | timer timer now =>
    cases timer with
    | periodic => exact h.onlyFlags (onlyFlags_periodicPulse _)
    | coalesced => exact h
    | second => exact h.rtcUpdateSecond T
    | second2 => exact h.rtcUpdateSecond2 T

/-- **Once the clock is set to 12 PM**, it is not. -/
theorem not_timeOfDay_next (hnone : y.rtc.irqCoalesced = 0) (hnoon : TakesNoon y e) :
    ¬TimeOfDay (y.next T e).rtc.currentTm := by
  intro htime
  have hlt := htime.hour.2
  rw [Machine.core_next T hnone] at hlt
  cases e with
  | portOut addr data now =>
    obtain ⟨hodd, hsets, hno⟩ := hnoon
    dsimp only at hlt
    rw [if_neg hodd, currentTm_storeCmos, if_pos hsets, hour_rtcSetTime_of_isNoon T hno] at hlt
    omega
  | portIn addr => exact hnoon.elim
  | expire timer => exact hnoon.elim
  | timer timer now => exact hnoon.elim

/-- **The time of day along a run** in which the guest writes legal bytes: it is one in every state
reached if and only if the guest never sets the clock to 12 PM. -/
theorem run_timeOfDay {tm : RtcTimeDate} (htm : TimeOfDay tm) {now : ℤ} {es : List Event} :
    Run (Guarded (fun y e ↦ ¬TakesNoon y e) (Guarded LegalWrite (Machine.Step T)))
        (Machine.init T tm now) es y ↔
      Run (Guarded (fun y _ ↦ TimeOfDay y.rtc.currentTm) (Guarded LegalWrite (Machine.Step T)))
        (Machine.init T tm now) es y ∧ TimeOfDay y.rtc.currentTm := by
  refine Run.guarded_iff_of_invariant (I := fun y : Machine ↦ TimeOfDay y.rtc.currentTm)
    (J := fun y : Machine ↦ y.rtc.irqCoalesced = 0 ∧
      (TimeOfDay y.rtc.currentTm → Timely y.rtc.toRTCState))
    htm ⟨rfl, fun _ ↦ Timely.rtcPreInit T htm now⟩ ?_ ?_
  · rintro y e z ⟨hnone, htimely⟩ htime ⟨hlegal, -, rfl⟩
    refine ⟨Machine.irqCoalesced_next T hnone e, fun hz ↦ ?_⟩
    exact (htimely htime).next T hnone hlegal fun hnoon ↦ not_timeOfDay_next T hnone hnoon hz
  · rintro y e z ⟨hnone, htimely⟩ htime ⟨hlegal, -, rfl⟩
    exact ⟨fun hnoon ↦ ((htimely htime).next T hnone hlegal hnoon).time,
      fun hz hnoon ↦ not_timeOfDay_next T hnone hnoon hz⟩

/-- **Which legal times are accepted**: `rtc_set_time` takes legal registers for what they denote,
except twelve o'clock in 12-hour format; and a guest that writes legal bytes meets a time of day in
every state, exactly as long as it does not set the clock to 12 PM. -/
theorem legal_time_accepted_iff :
    (∀ s tm, s.baseYear = 1900 → Denotes s tm →
      ((rtcSetTime T s).currentTm = tm ↔ ¬(s.is24h = false ∧ tm.hour % 12 = 0))) ∧
    ∀ tm now es y, TimeOfDay tm →
      (Run (Guarded (fun y e ↦ ¬TakesNoon y e) (Guarded LegalWrite (Machine.Step T)))
          (Machine.init T tm now) es y ↔
        Run (Guarded (fun y _ ↦ TimeOfDay y.rtc.currentTm) (Guarded LegalWrite (Machine.Step T)))
          (Machine.init T tm now) es y ∧ TimeOfDay y.rtc.currentTm) :=
  ⟨fun _ _ hbase h ↦ currentTm_rtcSetTime_iff T hbase h, fun _ _ _ _ htm ↦ run_timeOfDay T htm⟩

end

/-- Registers in 12-hour format that say noon, of the first of March. -/
def noonRegisters : RTCState where
  cmosData := Function.update (Function.update (Function.update (Function.update (fun _ ↦ 0)
    rtcHours 0x92) rtcDayOfMonth 1) rtcMonth 3) rtcYear 0x24
  currentTm := exampleDate
  baseYear := 1900
  nextSecondTime := 0
  log := []

/-- Noon of the first of March. -/
def noon : RtcTimeDate := { second := 0, minute := 0, hour := 12, day := 1, month := 2, year := 24 }

theorem denotes_noon : Denotes noonRegisters noon :=
  ⟨by decide, by decide, by decide, by decide, by decide, by decide⟩

/-- Noon is not accepted. -/
theorem legal_time_accepted_iff_noon :
    (rtcSetTime intFields noonRegisters).currentTm = noon ↔
      ¬(noonRegisters.is24h = false ∧ noon.hour % 12 = 0) :=
  (legal_time_accepted_iff intFields).1 noonRegisters noon rfl denotes_noon

/-- The guest selects 12-hour format, and writes 12 PM to the hours. -/
def settingNoon : List Event :=
  [.portOut 0x70 11 0, .portOut 0x71 0x00 0, .portOut 0x70 4 0, .portOut 0x71 0x92 0]

/-- **Noon is taken for the hour 24**, and a guest that sets the clock to it meets that hour. -/
theorem not_legal_time_accepted :
    (¬ ∀ T s tm, s.baseYear = 1900 → Denotes s tm → (rtcSetTime T s).currentTm = tm) ∧
    ¬ ∀ T tm now es y, TimeOfDay tm →
      Run (Guarded LegalWrite (Machine.Step T)) (Machine.init T tm now) es y →
        TimeOfDay y.rtc.currentTm := by
  constructor
  · intro h
    have hnoon := h intFields noonRegisters noon rfl denotes_noon
    exact absurd (congrArg RtcTimeDate.hour hnoon) (by decide)
  · intro h
    have hrun : Run (Does (fun y e ↦ LegalWrite y e ∧ Machine.Enabled y e) (Machine.next intFields))
        (Machine.init intFields exampleDate 0) settingNoon _ := run_foldl (by decide)
    have htime := h intFields exampleDate 0 settingNoon _ ⟨by decide, by decide, by decide⟩
      (hrun.mono fun _ _ _ hs ↦ ⟨hs.1.1, hs.1.2, hs.2⟩)
    exact absurd htime.hour.2 (by decide)

end Rtc
end CamkesVm
