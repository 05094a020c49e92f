import CamkesVm.Rtc.Machine

/-!
# Setting the RTC

To set the time of day the guest enters set mode, writes the date registers, in any order and as
often as it likes, and leaves set mode.  Meanwhile the update cycle goes on.

Nothing of it shows: for as long as set mode lasts, the date registers are what they would be if the
device were plain memory (`Editing`), and the write that leaves set mode sets the internal time to
what the guest has written, in the format in force before it (`run_setMode_atomic`).  What the guest
has written depends on its own port writes alone.

## What is here

* `Editing`, `portWrites`, `edits`, `decode` — the guest's side: plain memory behind the two ports,
  and what it has written.
* `Edited` — the device and the memory agree on the date registers and on the register selected.
* `date_rtcUpdateSecond`, `date_storeCmos`, `Edited.next` — one event: a handler, a write, and
  either.
* `currentTm_leave`, `run_setMode_atomic` — the end of set mode, and all of it.

The example is a guest that sets the hour while the timer that ends an update completes, which is
when the cycle would write.
-/

set_option autoImplicit false

namespace CamkesVm
namespace Rtc

open Transition

/-! ## What the guest writes -/

/-- The registers as plain memory behind the two ports. -/
structure Editing where
  /-- The register selected. -/
  index : Fin 128
  /-- The registers. -/
  regs : Fin 128 → BitVec 8

/-- A byte is written to a port. -/
def Editing.write (w : Editing) (p : ℕ × BitVec 8) : Editing :=
  if p.1 % 2 = 0 then { w with index := selected p.2 }
  else { w with regs := Function.update w.regs w.index p.2 }

/-- The port writes of the guest. -/
def portWrites : List Event → List (ℕ × BitVec 8) :=
  List.filterMap fun | .portOut addr data _ => some (addr, data) | _ => none

/-- What the guest has written since the state `y`. -/
def edits (y : Machine) (es : List Event) : Editing :=
  (portWrites es).foldl Editing.write { index := y.rtc.cmosIndex, regs := y.rtc.cmosData }

/-- The decoding of `rtc_set_time`: the time some registers hold, in the format given. -/
def decode (T : FieldTypes) (dm h24 : Bool) (baseYear : ℤ) (regs : Fin 128 → BitVec 8) :
    RtcTimeDate :=
  let hour := T.field (rtcFromBcd dm (regs rtcHours &&& 0x7f))
  { second := T.field (rtcFromBcd dm (regs rtcSeconds))
    minute := T.field (rtcFromBcd dm (regs rtcMinutes))
    hour := if !h24 && regs rtcHours &&& 0x80 != 0 then T.field (hour + 12) else hour
    day := T.field (rtcFromBcd dm (regs rtcDayOfMonth))
    month := T.field (rtcFromBcd dm (regs rtcMonth) - 1)
    year := T.year (rtcFromBcd dm (regs rtcYear) + baseYear - 1900) }

theorem currentTm_rtcSetTime (T : FieldTypes) (s : RTCState) :
    (rtcSetTime T s).currentTm = decode T s.isBinary s.is24h s.baseYear s.cmosData := rfl

/-- Only the date registers are decoded. -/
theorem decode_congr (T : FieldTypes) (dm h24 : Bool) (baseYear : ℤ) {r r' : Fin 128 → BitVec 8}
    (h : ∀ i ∈ dateRegisters, r i = r' i) :
    decode T dm h24 baseYear r = decode T dm h24 baseYear r' := by
  rw [decode, decode, h _ (by decide : rtcSeconds ∈ dateRegisters),
    h _ (by decide : rtcMinutes ∈ dateRegisters), h _ (by decide : rtcHours ∈ dateRegisters),
    h _ (by decide : rtcDayOfMonth ∈ dateRegisters), h _ (by decide : rtcMonth ∈ dateRegisters),
    h _ (by decide : rtcYear ∈ dateRegisters)]

theorem edits_snoc (y : Machine) (es : List Event) (e : Event) :
    edits y (es ++ [e]) = (portWrites [e]).foldl Editing.write (edits y es) := by
  rw [edits, portWrites, List.filterMap_append, List.foldl_append]
  rfl

/-! ## Set mode -/

/-- The device agrees with the plain memory `w`, as far as the date goes. -/
structure Edited (y : Machine) (w : Editing) : Prop where
  /-- No interrupt is coalesced. -/
  none : y.rtc.irqCoalesced = 0
  /-- The register selected. -/
  index : y.rtc.cmosIndex = w.index
  /-- The date registers. -/
  regs : ∀ i ∈ dateRegisters, y.rtc.cmosData i = w.regs i

section

variable (T : FieldTypes) {y : Machine} {w : Editing}

theorem ne_of_mem_dateRegisters {i : Fin 128} (h : i ∈ dateRegisters) :
    i ≠ rtcRegA ∧ i ≠ rtcRegB ∧ i ≠ rtcRegC ∧ i ≠ rtcRegD := by
  rw [mem_dateRegisters] at h
  rcases h with rfl | rfl | rfl | rfl | rfl | rfl | rfl <;> decide

/-- The flags are no date. -/
theorem OnlyFlags.date {s t : RTCState} (h : OnlyFlags s t) {i : Fin 128} (hi : i ∈ dateRegisters) :
    t.cmosData i = s.cmosData i := h.cmosData i (ne_of_mem_dateRegisters hi).2.2.1

/-- **In set mode the update cycle leaves the date registers alone.** -/
theorem date_rtcUpdateSecond {s : RTCState} (h : setMode s = true) (i : Fin 128) :
    (rtcUpdateSecond T s).cmosData i = s.cmosData i := by
  cases hosc : oscillating s
  · rw [rtcUpdateSecond_of_stopped T hosc]
    rfl
  · rw [rtcUpdateSecond_of_oscillating T hosc, if_pos h]
    rfl

theorem date_rtcUpdateSecond2 {s : RTCState} (h : setMode s = true) {i : Fin 128}
    (hi : i ∈ dateRegisters) : (rtcUpdateSecond2 T s).cmosData i = s.cmosData i := by
  obtain ⟨t, ht, hend⟩ := rtcUpdateSecond2_eq T s
  rw [if_pos h] at ht
  rw [hend]
  exact (setCmos_of_ne t (ne_of_mem_dateRegisters hi).1 _).trans (ht.date hi)

/-- Leaving set mode leaves it. -/
theorem setMode_writeRegB {s : RTCState} {data : BitVec 8} (h : data &&& regBSet = 0) :
    setMode (writeRegB T data s) = false := by
  have hstore : ∀ t : RTCState, setMode (t.setCmos rtcRegB data) = false := by
    intro t
    rw [setMode, RTCState.anyBit, setCmos_self, h, bne_self_eq_false]
  rw [writeRegB_of_clear T h]
  split
  · rw [setMode, RTCState.anyBit, rtcCopyDate_cmosData_of_notMem _ _ (by decide)]
    exact hstore _
  · exact hstore _

/-- **A write in set mode** that does not leave it stores the byte, if it is to a date register, and
otherwise leaves the date registers alone. -/
theorem date_storeCmos {s : RTCState} (h : setMode s = true) {i j : Fin 128} {data : BitVec 8}
    (hstay : setMode (storeCmos T i data s) = true) (hj : j ∈ dateRegisters) :
    (storeCmos T i data s).cmosData j = Function.update s.cmosData i data j := by
  obtain ⟨hA, hB, hC, hD⟩ := ne_of_mem_dateRegisters hj
  rw [storeCmos] at hstay ⊢
  simp only [h, if_true] at hstay ⊢
  split
  · rfl
  · rename_i hdate
    have hne : j ≠ i := fun heq ↦ hdate (heq ▸ hj)
    rw [if_neg hdate] at hstay
    rw [Function.update_of_ne hne]
    split
    · exact setCmos_of_ne s hA _
    · rename_i hi
      rw [if_neg hi] at hstay
      split
      · rename_i hi
        rw [if_pos hi] at hstay
        have hset : data &&& regBSet ≠ 0 := by
          intro hclear
          rw [setMode_writeRegB T hclear] at hstay
          exact Bool.false_ne_true hstay
        rw [writeRegB_of_set T hset, setCmos_of_ne _ hB, setCmos_of_ne _ hA]
      · split
        · rfl
        · exact setCmos_of_ne s hne _

/-- **What an event does to the date in set mode**: it is a write of the guest, or it leaves the
date registers alone. -/
theorem Edited.next (h : Edited y w) (hset : setMode y.rtc.toRTCState = true) (e : Event)
    (hstay : setMode (y.next T e).rtc.toRTCState = true) :
    Edited (y.next T e) ((portWrites [e]).foldl Editing.write w) := by
  have hcore := Machine.core_next T h.none e
  have hindex := Machine.cmosIndex_next T h.none e
  refine ⟨Machine.irqCoalesced_next T h.none e, ?_, fun i hi ↦ ?_⟩
  · rw [hindex, h.index]
    cases e with
    | portOut addr data now =>
      change _ = (w.write (addr, data)).index
      rw [Editing.write]
      dsimp only
      split <;> rfl
    | portIn addr => rfl
    | expire timer => rfl
    | timer timer now => rfl
  · cases e with
    | portIn addr =>
      rw [hcore]
      dsimp only
      split
      · exact ((onlyFlags_ackRegC _).date hi).trans (h.regs i hi)
      · exact h.regs i hi
    | portOut addr data now =>
      rw [hcore] at hstay ⊢
      dsimp only at hstay ⊢
      change _ = (w.write (addr, data)).regs i
      rw [Editing.write]
      split
      · exact h.regs i hi
      · rename_i hodd
        rw [if_neg hodd] at hstay
        rw [date_storeCmos T hset hstay hi, h.index]
        change _ = Function.update w.regs w.index data i
        rw [Function.update_apply, Function.update_apply, h.regs i hi]
    | expire timer => exact h.regs i hi
    | timer timer now =>
      rw [hcore]
      refine Eq.trans ?_ (h.regs i hi)
      cases timer with
      | periodic => exact (onlyFlags_periodicPulse _).date hi
      | coalesced => rfl
      | second => exact date_rtcUpdateSecond T hset i
      | second2 => exact date_rtcUpdateSecond2 T hset hi

/-- In a run that stays in set mode the device agrees with plain memory. -/
theorem run_edited (hnone : y.rtc.irqCoalesced = 0) {es : List Event} {z : Machine}
    (h : Run (Guarded (fun y _ ↦ setMode y.rtc.toRTCState = true) (Machine.Step T)) y es z)
    (hz : setMode z.rtc.toRTCState = true) : Edited z (edits y es) := by
  induction h with
  | nil => exact ⟨hnone, rfl, fun _ _ ↦ rfl⟩
  | snoc h hs ih =>
    obtain ⟨hset, -, rfl⟩ := hs
    rw [edits_snoc]
    exact (ih hset).next T hset _ hz

/-- **The write that leaves set mode** sets the internal time from the registers. -/
theorem currentTm_leave (hset : setMode y.rtc.toRTCState = true) (hnone : y.rtc.irqCoalesced = 0)
    {addr : ℕ} (haddr : addr % 2 = 1) (hindex : y.rtc.cmosIndex = rtcRegB) {data : BitVec 8}
    (hclear : data &&& regBSet = 0) (now : BitVec 64) :
    (y.next T (.portOut addr data now)).rtc.currentTm =
      decode T y.rtc.isBinary y.rtc.is24h y.rtc.baseYear y.rtc.cmosData := by
  have hodd : ¬addr % 2 = 0 := by omega
  have hstore : storeCmos T rtcRegB data y.rtc.toRTCState = writeRegB T data y.rtc.toRTCState := rfl
  rw [Machine.core_next T hnone]
  dsimp only
  rw [if_neg hodd, hindex, hstore, writeRegB_of_clear T hclear, leaveSetMode, if_pos hset,
    ← currentTm_rtcSetTime]
  split <;> rfl

end

/-- **Setting the RTC is atomic**: while set mode lasts the date registers change by the guest's
writes alone, and the write that ends it sets the internal time to what the guest has written, in
the format in force before that write. -/
theorem run_setMode_atomic (T : FieldTypes) {tm : RtcTimeDate} {now : ℤ} {es₀ es : List Event}
    {y z : Machine} (h₀ : Run (Machine.Step T) (Machine.init T tm now) es₀ y)
    (h : Run (Guarded (fun y _ ↦ setMode y.rtc.toRTCState = true) (Machine.Step T)) y es z)
    (hz : setMode z.rtc.toRTCState = true) :
    (∀ i ∈ dateRegisters, z.rtc.cmosData i = (edits y es).regs i) ∧
      ∀ addr data time, addr % 2 = 1 → z.rtc.cmosIndex = rtcRegB → data &&& regBSet = 0 →
        (z.next T (.portOut addr data time)).rtc.currentTm =
          decode T z.rtc.isBinary z.rtc.is24h z.rtc.baseYear (edits y es).regs := by
  have hedited := run_edited T (Machine.run_irqCoalesced T h₀) h hz
  refine ⟨hedited.regs, fun addr data time haddr hindex hclear ↦ ?_⟩
  rw [currentTm_leave T hz hedited.none haddr hindex hclear]
  exact decode_congr T _ _ _ hedited.regs

/-- The guest enters set mode. -/
def entering : List Event := [.portOut 0x70 11 0, .portOut 0x71 0x82 0]

/-- It sets the hour, in the middle of an update, and is about to leave set mode. -/
def editing : List Event :=
  [.portOut 0x70 4 0, .expire .second2, .portOut 0x71 0x12 0, .timer .second2 0, .portOut 0x70 11 0]

/-- The machine in set mode, before the guest sets the hour. -/
def entered : Machine :=
  entering.foldl (Machine.next intFields) (Machine.init intFields exampleDate 0)

/-- And after. -/
def finished : Machine := editing.foldl (Machine.next intFields) entered

set_option maxRecDepth 4000 in
/-- Twelve o'clock, set in the middle of an update. -/
theorem run_setMode_atomic_noon :
    (∀ i ∈ dateRegisters, finished.rtc.cmosData i = (edits entered editing).regs i) ∧
      ∀ addr data time, addr % 2 = 1 → finished.rtc.cmosIndex = rtcRegB → data &&& regBSet = 0 →
        (finished.next intFields (.portOut addr data time)).rtc.currentTm =
          decode intFields finished.rtc.isBinary finished.rtc.is24h finished.rtc.baseYear
            (edits entered editing).regs := by
  have hentered : Run (Machine.Step intFields) (Machine.init intFields exampleDate 0) entering
      entered := run_foldl (by decide)
  have hedited : Run (Does (fun y e ↦ setMode y.rtc.toRTCState = true ∧ Machine.Enabled y e)
      (Machine.next intFields)) entered editing finished := run_foldl (by decide)
  exact run_setMode_atomic intFields hentered
    (hedited.mono fun _ _ _ h ↦ ⟨h.1.1, h.1.2, h.2⟩) (by decide)

end Rtc
end CamkesVm
