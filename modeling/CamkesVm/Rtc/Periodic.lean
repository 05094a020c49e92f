import CamkesVm.Lib.Flags
import CamkesVm.Lib.Resample
import CamkesVm.Rtc.Codec
import CamkesVm.Rtc.Machine

/-!
# The periodic interrupt does not drift

The periodic interrupt counts a clock of 32768 Hz, its timer nanoseconds.  A deadline is computed
from a tick of the clock by converting and adding one, and the tick is found again from the deadline
by converting back, which is exact (`clockIndex_deadline`).  So the next deadline, the first
multiple of the period after the last one, is exactly one period later, and rounding never adds up.

`periodic_onSchedule` says so of every run in which the guest changes no register: the deadlines
asked for are those of successive multiples of the period, one for each completion handled.

## What is here

* `clockIndex`, `deadline`, `clockIndex_deadline`, `toNat_nextPeriod` — the arithmetic: ticks,
  nanoseconds, and the way back, as long as the words do not overflow.
* `periodicRequests`, `Undisturbed`, `undisturbed_next` — what was asked of the timer, and the
  events that do not add to it.
* `Quiet`, `served`, `scheduled`, `OnSchedule` — the guest that changes no register, and where the
  timer should be after so many completions.
* `OnSchedule.periodic`, `periodic_onSchedule` — one completion, and a run.

How late a completion is handled does not matter, nor how many update cycles go by; they are events
of the run like any other.
-/

set_option autoImplicit false

namespace CamkesVm
namespace Rtc

open Transition TimerService EffectLog Flags

/-! ## Ticks and deadlines -/

/-- The tick of the 32768 Hz clock at a time in nanoseconds. -/
def clockIndex (time : ℕ) : ℕ := Resample.slow 1000000000 32768 time

/-- The time `rtc_timer_update` computes for a tick. -/
def deadline (index : ℕ) : ℕ := Resample.fast 1000000000 32768 index + 1

/-- **The deadline of a tick belongs to the tick.** -/
theorem clockIndex_deadline (index : ℕ) : clockIndex (deadline index) = index :=
  Resample.slow_fast_succ (by decide) (by decide) index

/-- Later ticks have later deadlines. -/
theorem deadline_strictMono : StrictMono deadline := fun _ _ h ↦
  Nat.succ_lt_succ (Resample.fast_lt_fast (by decide) (by decide) h)

/-- The period is a power of two. -/
theorem exists_periodOf_eq {regA : BitVec 8} (h : regA.toNat % 16 ≠ 0) :
    ∃ j ≤ 14, periodOf regA = 2 ^ j := by
  have hlt : regA.toNat % 16 < 16 := Nat.mod_lt _ (by decide)
  simp only [periodOf, if_neg h]
  by_cases hsmall : regA.toNat % 16 ≤ 2
  · exact ⟨regA.toNat % 16 + 6, by omega, if_pos hsmall⟩
  · exact ⟨regA.toNat % 16 - 1, by omega, if_neg hsmall⟩

theorem code_ne_zero_of_periodOf {regA : BitVec 8} (h : periodOf regA ≠ 0) :
    regA.toNat % 16 ≠ 0 := by
  intro hcode
  rw [periodOf, hcode] at h
  exact h rfl

/-- **The next deadline** is the one of the first multiple of the period after the time. -/
theorem toNat_nextPeriod {j : ℕ} (hj : j ≤ 14) {time : BitVec 64} (h : time.toNat < 2 ^ 62) :
    (nextPeriod (2 ^ j) time).toNat =
      deadline (clockIndex time.toNat / 2 ^ j * 2 ^ j + 2 ^ j) := by
  have hpow : 2 ^ j ≤ 2 ^ 14 := Nat.pow_le_pow_right (by decide) hj
  have hindex : clockIndex time.toNat ≤ time.toNat := by
    rw [clockIndex, Resample.slow]
    omega
  have hround : clockIndex time.toNat / 2 ^ j * 2 ^ j ≤ clockIndex time.toNat :=
    Nat.div_mul_le_self _ _
  have hcur : (muldiv64 time 32768 getTicksPerSec.toNat).toNat = clockIndex time.toNat := by
    rw [muldiv64, BitVec.toNat_ofNat, Nat.mod_eq_of_lt]
    · rfl
    · exact lt_of_le_of_lt hindex time.isLt
  have hnext : ((muldiv64 time 32768 getTicksPerSec.toNat &&& ~~~BitVec.ofNat 64 (2 ^ j - 1)) +
      BitVec.ofNat 64 (2 ^ j)).toNat = clockIndex time.toNat / 2 ^ j * 2 ^ j + 2 ^ j := by
    rw [BitVec.toNat_add, toNat_and_not_low, hcur, BitVec.toNat_ofNat, Nat.add_mod_mod,
      Nat.mod_eq_of_lt (by omega)]
  -- the tick is at most a period after the time, so that its deadline is too
  have hlate : Resample.fast 1000000000 32768 (clockIndex time.toNat / 2 ^ j * 2 ^ j + 2 ^ j) ≤
      time.toNat + Resample.fast 1000000000 32768 (2 ^ j) := by
    refine le_trans ?_ (Resample.fast_slow_add (by decide) time.toNat (2 ^ j))
    exact Nat.div_le_div_right (Nat.mul_le_mul_right _ (Nat.add_le_add_right hround _))
  have hperiod : Resample.fast 1000000000 32768 (2 ^ j) ≤ 2 ^ 30 := by
    rw [Resample.fast]
    omega
  have hfast : (muldiv64 ((muldiv64 time 32768 getTicksPerSec.toNat &&&
      ~~~BitVec.ofNat 64 (2 ^ j - 1)) + BitVec.ofNat 64 (2 ^ j)) getTicksPerSec.toNat 32768).toNat =
      Resample.fast 1000000000 32768 (clockIndex time.toNat / 2 ^ j * 2 ^ j + 2 ^ j) := by
    rw [muldiv64, hnext, BitVec.toNat_ofNat, Nat.mod_eq_of_lt]
    · rfl
    · change Resample.fast 1000000000 32768 _ < 2 ^ 64
      omega
  have hone : (1 : BitVec 64).toNat = 1 := rfl
  rw [nextPeriod, BitVec.toNat_add, hfast, deadline, hone]
  exact Nat.mod_eq_of_lt (by omega)

/-- From one deadline to the next it is one period. -/
theorem toNat_nextPeriod_deadline {j : ℕ} (hj : j ≤ 14) {time : BitVec 64} {index : ℕ}
    (htime : time.toNat = deadline index) (hdvd : 2 ^ j ∣ index) (h : time.toNat < 2 ^ 62) :
    (nextPeriod (2 ^ j) time).toNat = deadline (index + 2 ^ j) := by
  rw [toNat_nextPeriod hj h, htime, clockIndex_deadline, Nat.div_mul_cancel hdvd]

/-! ## What concerns the periodic timer -/

/-- The effect concerns the periodic timer. -/
def concernsPeriodic : PeriodicEffect → Bool
  | .periodicTimer _ | .stopPeriodicTimer => true
  | .coalescedTimer _ | .stopCoalescedTimer => false

/-- What was asked of the periodic timer. -/
def periodicRequests (s : RTCDevice) : List PeriodicEffect := s.periodicLog.filter concernsPeriodic

/-- The period and whether the interrupt is enabled, the next deadline and what was asked of the
periodic timer are the same. -/
structure Undisturbed (s s' : RTCDevice) : Prop where
  /-- The period is the same. -/
  period : periodOf (s'.cmosData rtcRegA) = periodOf (s.cmosData rtcRegA)
  /-- The interrupt is enabled as before. -/
  pie : s'.anyBit rtcRegB regBPie = s.anyBit rtcRegB regBPie
  /-- The next deadline is the same. -/
  nextPeriodicTime : s'.nextPeriodicTime = s.nextPeriodicTime
  /-- Nothing was asked of the periodic timer. -/
  requests : periodicRequests s' = periodicRequests s

/-- The core changes, and not in registers A or B but for the top bit of A. -/
theorem Undisturbed.core {s : RTCDevice} {f : RTCState → RTCState}
    (hA : ((f s.toRTCState).cmosData rtcRegA).toNat % 16 = (s.cmosData rtcRegA).toNat % 16)
    (hB : (f s.toRTCState).cmosData rtcRegB = s.cmosData rtcRegB) : Undisturbed s (s.core f) where
  period := by
    change periodOf ((f s.toRTCState).cmosData rtcRegA) = _
    rw [periodOf, periodOf, hA]
  pie := by
    change (f s.toRTCState).anyBit rtcRegB regBPie = _
    rw [RTCState.anyBit, RTCState.anyBit, hB]
  nextPeriodicTime := rfl
  requests := rfl

/-- Only register C and the line change. -/
theorem Undisturbed.core_of_onlyFlags {s : RTCDevice} {f : RTCState → RTCState}
    (h : OnlyFlags s.toRTCState (f s.toRTCState)) : Undisturbed s (s.core f) :=
  .core (by rw [h.cmosData _ (by decide)]) (h.cmosData _ (by decide))

theorem Undisturbed.refl (s : RTCDevice) : Undisturbed s s := ⟨rfl, rfl, rfl, rfl⟩

theorem Undisturbed.trans {s s' s'' : RTCDevice} (h : Undisturbed s s') (h' : Undisturbed s' s'') :
    Undisturbed s s'' :=
  ⟨h'.period.trans h.period, h'.pie.trans h.pie, h'.nextPeriodicTime.trans h.nextPeriodicTime,
    h'.requests.trans h.requests⟩

/-- A read of a port does not disturb the periodic timer. -/
theorem undisturbed_cmosIoportRead (s : RTCDevice) (addr : ℕ) :
    Undisturbed s (cmosIoportRead s addr).2 := by
  have hlower : Undisturbed s (s.core fun s ↦ s.emit (.setIrqLevel 0)) :=
    .core_of_onlyFlags (OnlyFlags.refl.emit 0)
  rw [cmosIoportRead]
  dsimp only
  split
  · exact .refl s
  · split
    · split
      · refine hlower.trans ?_
        generalize s.core (fun s ↦ s.emit (.setIrqLevel 0)) = u
        exact ⟨rfl, rfl, rfl, rfl⟩
      · exact hlower.trans (Undisturbed.core_of_onlyFlags (f := fun s ↦ s.setCmos rtcRegC 0)
          (OnlyFlags.refl.setCmos 0))
    · exact .refl s

/-- The coalesced timer does not disturb the periodic one. -/
theorem undisturbed_rtcCoalescedTimer (s : RTCDevice) (now : BitVec 64) :
    Undisturbed s (rtcCoalescedTimer s now) := by
  have hupdate : ∀ u : RTCDevice, Undisturbed u (rtcCoalescedTimerUpdate u now) := by
    intro u
    rw [rtcCoalescedTimerUpdate]
    split
    · exact ⟨rfl, rfl, rfl, by simp [periodicRequests, RTCDevice.request, concernsPeriodic]⟩
    · exact ⟨rfl, rfl, rfl, by simp [periodicRequests, RTCDevice.request, concernsPeriodic]⟩
  rw [rtcCoalescedTimer]
  refine Undisturbed.trans ?_ (hupdate _)
  split
  · exact .core_of_onlyFlags ((OnlyFlags.refl.setCmos _).emit 1)
  · exact .refl s

/-- Setting or clearing bits above the period code does not change it. -/
theorem code_eq_of_and_eq {a b : BitVec 8} (h : a &&& 15#8 = b &&& 15#8) :
    a.toNat % 16 = b.toNat % 16 := by
  have hand : ∀ c : BitVec 8, (c &&& 15#8).toNat = c.toNat % 16 := fun c ↦
    Nat.and_two_pow_sub_one_eq_mod c.toNat 4
  rw [← hand, ← hand, h]

/-- The update cycle of the time of day does not disturb the periodic timer. -/
theorem undisturbed_second (T : FieldTypes) (s : RTCDevice) :
    Undisturbed s (s.core (rtcUpdateSecond T)) := by
  cases h : oscillating s.toRTCState with
  | false =>
    refine Undisturbed.core ?_ ?_
    · rw [rtcUpdateSecond_of_stopped T h]
      rfl
    · rw [rtcUpdateSecond_of_stopped T h]
      rfl
  | true =>
    refine Undisturbed.core ?_ ?_
    · rw [rtcUpdateSecond_of_oscillating T h, emit_cmosData]
      split
      · rfl
      · rw [setCmos_self]
        exact code_eq_of_and_eq (or_and_of_disjoint _ (by decide))
    · rw [rtcUpdateSecond_of_oscillating T h, emit_cmosData]
      split
      · rfl
      · exact setCmos_of_ne _ (by decide) _

theorem undisturbed_second2 (T : FieldTypes) (s : RTCDevice) :
    Undisturbed s (s.core (rtcUpdateSecond2 T)) := by
  obtain ⟨t, hflags, heq⟩ := rtcUpdateSecond2_eq T s.toRTCState
  have hcopy : ∀ i ∉ timeRegisters, i ≠ rtcRegC → t.cmosData i = s.cmosData i := by
    intro i hi hc
    rw [hflags.cmosData i hc]
    split
    · rfl
    · exact rtcCopyDate_cmosData_of_notMem T s.toRTCState hi
  refine Undisturbed.core ?_ ?_
  · rw [heq, endCycle, emit_cmosData, setCmos_self,
      code_eq_of_and_eq (and_and_of_subset _ (by decide)), hcopy _ (by decide) (by decide)]
  · rw [heq, endCycle, emit_cmosData, setCmos_of_ne _ (by decide), hcopy _ (by decide) (by decide)]

/-! ## The periodic timer itself -/

/-- `rtc_timer_update`, when the interrupt is on. -/
theorem rtcTimerUpdate_of_on {s : RTCDevice} (hcode : (s.cmosData rtcRegA).toNat % 16 ≠ 0)
    (hpie : s.anyBit rtcRegB regBPie) (time : BitVec 64) :
    (rtcTimerUpdate s time).nextPeriodicTime = nextPeriod (periodOf (s.cmosData rtcRegA)) time ∧
      (rtcTimerUpdate s time).periodicLog =
        s.periodicLog ++ [.periodicTimer (nextPeriod (periodOf (s.cmosData rtcRegA)) time)] := by
  obtain ⟨j, -, hp⟩ := exists_periodOf_eq hcode
  have hne : periodOf (s.cmosData rtcRegA) ≠ 0 := by
    rw [hp]
    exact (Nat.two_pow_pos j).ne'
  rw [rtcTimerUpdate, if_pos ⟨hne, hpie⟩]
  exact ⟨rfl, rfl⟩

/-- The handler of the periodic timer computes the next deadline from the last one, and beyond that
changes the flags. -/
theorem rtcPeriodicTimer_eq (s : RTCDevice) :
    (rtcPeriodicTimer s).nextPeriodicTime = (rtcTimerUpdate s s.nextPeriodicTime).nextPeriodicTime ∧
      (rtcPeriodicTimer s).periodicLog = (rtcTimerUpdate s s.nextPeriodicTime).periodicLog := by
  have hraise : ∀ u : RTCDevice, (raisePeriodic u).nextPeriodicTime = u.nextPeriodicTime ∧
      (raisePeriodic u).periodicLog = u.periodicLog := by
    intro u
    rw [raisePeriodic]
    split <;> exact ⟨rfl, rfl⟩
  rw [rtcPeriodicTimer]
  generalize rtcTimerUpdate s s.nextPeriodicTime = u
  split <;> split
  · exact hraise u
  · exact hraise u
  · exact ⟨rfl, rfl⟩
  · exact ⟨rfl, rfl⟩

/-! ## Runs -/

/-- The guest changes no register. -/
def Quiet : Event → Prop
  | .portOut addr _ _ => addr % 2 = 0
  | _ => True

/-- A completion of the periodic timer is handled. -/
def servesPeriodic : Event → Bool
  | .timer .periodic _ => true
  | _ => false

theorem exists_of_servesPeriodic {e : Event} (h : servesPeriodic e = true) :
    ∃ now, e = .timer .periodic now := by
  cases e with
  | timer timer now =>
    cases timer with
    | periodic => exact ⟨now, rfl⟩
    | _ => exact Bool.noConfusion h
  | _ => exact Bool.noConfusion h

/-- How many completions of the periodic timer were handled. -/
def served (es : List Event) : ℕ := es.countP servesPeriodic

/-- **Nothing else disturbs the periodic timer**, as long as the guest changes no register. -/
theorem undisturbed_next (T : FieldTypes) (y : Machine) {e : Event} (hquiet : Quiet e)
    (hserves : servesPeriodic e = false) : Undisturbed y.rtc (y.next T e).rtc := by
  cases e with
  | portIn addr => exact undisturbed_cmosIoportRead y.rtc addr
  | portOut addr data now =>
    change Undisturbed y.rtc (cmosIoportWrite T y.rtc now addr data)
    rw [cmosIoportWrite]
    dsimp only
    rw [if_pos (show addr % 2 = 0 from hquiet)]
    exact ⟨rfl, rfl, rfl, rfl⟩
  | expire timer => exact .refl _
  | timer timer now =>
    cases timer with
    | periodic => exact Bool.noConfusion hserves
    | coalesced => exact undisturbed_rtcCoalescedTimer y.rtc now
    | second => exact undisturbed_second T y.rtc
    | second2 => exact undisturbed_second2 T y.rtc

section

variable (p c0 : ℕ)

/-- The tick of the completion after the first `n`: the start, rounded down to a multiple of the
period, and as many periods. -/
def scheduled (n : ℕ) : ℕ := c0 / p * p + (n + 1) * p

/-- The request for the completion after the first `n`. -/
def scheduledRequest (n : ℕ) : PeriodicEffect :=
  .periodicTimer (BitVec.ofNat 64 (deadline (scheduled p c0 n)))

/-- **The timer is on schedule** after `n` completions, if `requests` is what had been asked of it
before. -/
structure OnSchedule (requests : List PeriodicEffect) (n : ℕ) (s : RTCDevice) : Prop where
  /-- The register selects the period. -/
  period : periodOf (s.cmosData rtcRegA) = p
  /-- The interrupt is enabled. -/
  pie : s.anyBit rtcRegB regBPie = true
  /-- The next deadline is the one of the next multiple of the period. -/
  nextPeriodicTime : s.nextPeriodicTime.toNat = deadline (scheduled p c0 n)
  /-- The timer was armed for each deadline once, in order, and never stopped. -/
  requests : periodicRequests s = requests ++ (List.range (n + 1)).map (scheduledRequest p c0)

variable {p c0}

/-- What the timer counts is the tick of the deadline. -/
theorem OnSchedule.clockIndex {requests : List PeriodicEffect} {n : ℕ} {s : RTCDevice}
    (h : OnSchedule p c0 requests n s) :
    clockIndex s.nextPeriodicTime.toNat = scheduled p c0 n := by
  rw [h.nextPeriodicTime, clockIndex_deadline]

/-- What does not disturb the timer keeps it on schedule. -/
theorem OnSchedule.of_undisturbed {requests : List PeriodicEffect} {n : ℕ} {s s' : RTCDevice}
    (h : OnSchedule p c0 requests n s) (hsame : Undisturbed s s') :
    OnSchedule p c0 requests n s' where
  period := hsame.period.trans h.period
  pie := hsame.pie.trans h.pie
  nextPeriodicTime := by rw [hsame.nextPeriodicTime, h.nextPeriodicTime]
  requests := hsame.requests.trans h.requests

/-- **A completion handled** keeps the timer on schedule. -/
theorem OnSchedule.periodic {requests : List PeriodicEffect} {n : ℕ} {s : RTCDevice}
    (h : OnSchedule p c0 requests n s) (hp : p ≠ 0) (htime : deadline (scheduled p c0 n) < 2 ^ 62) :
    OnSchedule p c0 requests (n + 1) (rtcPeriodicTimer s) := by
  have hcode : (s.cmosData rtcRegA).toNat % 16 ≠ 0 :=
    code_ne_zero_of_periodOf (h.period.trans_ne hp)
  obtain ⟨j, hj, hpow⟩ := exists_periodOf_eq hcode
  rw [h.period] at hpow
  have hflags : OnlyFlags s.toRTCState (rtcPeriodicTimer s).toRTCState := by
    rw [toRTCState_rtcPeriodicTimer]
    exact onlyFlags_periodicPulse _
  obtain ⟨hnext, hlog⟩ := rtcTimerUpdate_of_on hcode h.pie s.nextPeriodicTime
  have hdvd : 2 ^ j ∣ scheduled p c0 n := by
    rw [scheduled, hpow, ← Nat.add_mul]
    exact Nat.dvd_mul_left _ _
  have hdeadline : (nextPeriod p s.nextPeriodicTime).toNat = deadline (scheduled p c0 (n + 1)) := by
    have hearly : s.nextPeriodicTime.toNat < 2 ^ 62 := h.nextPeriodicTime ▸ htime
    rw [hpow, toNat_nextPeriod_deadline hj h.nextPeriodicTime hdvd hearly]
    congr 1
    rw [scheduled, scheduled, hpow]
    ring
  refine ⟨?_, ?_, ?_, ?_⟩
  · rw [hflags.cmosData _ (by decide)]
    exact h.period
  · rw [RTCState.anyBit, hflags.cmosData _ (by decide)]
    exact h.pie
  · rw [(rtcPeriodicTimer_eq s).1, hnext, h.period]
    exact hdeadline
  · have hword : nextPeriod p s.nextPeriodicTime =
        BitVec.ofNat 64 (deadline (scheduled p c0 (n + 1))) := by
      rw [← hdeadline, BitVec.ofNat_toNat, BitVec.setWidth_eq]
    have hrequests : periodicRequests (rtcPeriodicTimer s) =
        periodicRequests s ++ [scheduledRequest p c0 (n + 1)] := by
      rw [periodicRequests, (rtcPeriodicTimer_eq s).2, hlog, List.filter_append, h.period, hword]
      rfl
    rw [hrequests, h.requests, List.append_assoc, List.range_succ (n := n + 1), List.map_append]
    rfl

/-- `rtc_timer_update` puts the timer on schedule. -/
theorem onSchedule_rtcTimerUpdate {s : RTCDevice} (hcode : (s.cmosData rtcRegA).toNat % 16 ≠ 0)
    (hpie : s.anyBit rtcRegB regBPie) {time : BitVec 64} (h : time.toNat < 2 ^ 62) :
    OnSchedule (periodOf (s.cmosData rtcRegA)) (Rtc.clockIndex time.toNat) (periodicRequests s) 0
      (rtcTimerUpdate s time) := by
  obtain ⟨j, hj, hpow⟩ := exists_periodOf_eq hcode
  obtain ⟨hnext, hlog⟩ := rtcTimerUpdate_of_on hcode hpie time
  have hdeadline : (nextPeriod (periodOf (s.cmosData rtcRegA)) time).toNat =
      deadline (scheduled (periodOf (s.cmosData rtcRegA)) (Rtc.clockIndex time.toNat) 0) := by
    rw [hpow, toNat_nextPeriod hj h, scheduled, Nat.zero_add, Nat.one_mul]
  refine ⟨?_, ?_, ?_, ?_⟩
  · rw [toRTCState_rtcTimerUpdate]
  · rw [toRTCState_rtcTimerUpdate]
    exact hpie
  · rw [hnext, hdeadline]
  · rw [periodicRequests, hlog, List.filter_append]
    refine congrArg (periodicRequests s ++ ·) ?_
    change [PeriodicEffect.periodicTimer _] = [scheduledRequest _ _ 0]
    rw [scheduledRequest, ← hdeadline, BitVec.ofNat_toNat, BitVec.setWidth_eq]

end

/-- `rtc_timer_update` is called at a time. -/
def Machine.timerUpdate (y : Machine) (time : BitVec 64) : Machine :=
  y.withRtc (rtcTimerUpdate y.rtc time)

/-- **The periodic interrupt does not drift.**  Let the interrupt be enabled with one of the fifteen
rates when `rtc_timer_update` is called.  In any run from there in which the guest changes no
register, after `n` completions of the periodic timer were handled the next deadline is the one of
the tick `c0 / p * p + (n + 1) * p`, and it belongs to that tick.  The timer has been armed exactly
for the deadlines of these ticks, once for each, and every deadline is after the ones before it. -/
theorem periodic_onSchedule (T : FieldTypes) {y y' : Machine} {time : BitVec 64} {es : List Event}
    (hcode : (y.rtc.cmosData rtcRegA).toNat % 16 ≠ 0) (hpie : y.rtc.anyBit rtcRegB regBPie)
    (htime : time.toNat < 2 ^ 62) (hrun : Run (Machine.Step T) (y.timerUpdate time) es y')
    (hquiet : ∀ e ∈ es, Quiet e)
    (hearlier : ∀ m < served es, deadline (scheduled (periodOf (y.rtc.cmosData rtcRegA))
      (clockIndex time.toNat) m) < 2 ^ 62) :
    OnSchedule (periodOf (y.rtc.cmosData rtcRegA)) (clockIndex time.toNat) (periodicRequests y.rtc)
        (served es) y'.rtc ∧
      clockIndex y'.rtc.nextPeriodicTime.toNat = scheduled (periodOf (y.rtc.cmosData rtcRegA))
        (clockIndex time.toNat) (served es) ∧
      ∀ m < served es, deadline (scheduled (periodOf (y.rtc.cmosData rtcRegA))
        (clockIndex time.toNat) m) < y'.rtc.nextPeriodicTime.toNat := by
  obtain ⟨j, -, hpow⟩ := exists_periodOf_eq hcode
  have hp : periodOf (y.rtc.cmosData rtcRegA) ≠ 0 := by
    rw [hpow]
    exact (Nat.two_pow_pos j).ne'
  have hschedule : OnSchedule (periodOf (y.rtc.cmosData rtcRegA)) (clockIndex time.toNat)
      (periodicRequests y.rtc) (served es) y'.rtc := by
    induction hrun with
    | nil => exact onSchedule_rtcTimerUpdate hcode hpie htime
    | @snoc es u u' e _ hs ih =>
      have hserved : served (es ++ [e]) = served es + if servesPeriodic e then 1 else 0 := by
        rw [served, List.countP_append, List.countP_singleton]
        rfl
      have ih := ih (fun e he ↦ hquiet e (List.mem_append_left _ he))
        fun m hm ↦ hearlier m (by rw [hserved]; omega)
      rw [hserved] at hearlier ⊢
      rw [hs.2]
      cases hserves : servesPeriodic e with
      | false =>
        have hsame := undisturbed_next T u (hquiet e (by simp)) hserves
        exact ih.of_undisturbed hsame
      | true =>
        rw [hserves] at hearlier
        obtain ⟨now, rfl⟩ := exists_of_servesPeriodic hserves
        exact ih.periodic hp (hearlier _ (Nat.lt_succ_self _))
  refine ⟨hschedule, hschedule.clockIndex, fun m hm ↦ ?_⟩
  rw [hschedule.nextPeriodicTime]
  refine deadline_strictMono ?_
  exact Nat.add_lt_add_left
    (Nat.mul_lt_mul_of_pos_right (Nat.add_lt_add_right hm 1) (Nat.pos_of_ne_zero hp)) _

/-- The device after the guest has enabled the periodic interrupt, at the rate it boots with. -/
def periodicOn : Machine :=
  ((Machine.init intFields exampleDate 0).next intFields (.portOut 0x70 0x0b 0)).next intFields
    (.portOut 0x71 0x42 0)

/-- The theorem at 1024 Hz, started at time 5: after the first completion comes the tick 64. -/
theorem periodic_onSchedule_once :
    clockIndex (([.expire .periodic, .timer .periodic 1000000].foldl (Machine.next intFields)
      (periodicOn.timerUpdate 5)).rtc.nextPeriodicTime.toNat) = 64 := by
  have hrun : Run (Machine.Step intFields) (periodicOn.timerUpdate 5)
      [.expire .periodic, .timer .periodic 1000000] _ := run_foldl ⟨rfl, rfl, trivial⟩
  have hquiet : ∀ e ∈ [Event.expire .periodic, .timer .periodic 1000000], Quiet e := by
    simp [Quiet]
  exact (periodic_onSchedule intFields (by decide) (by decide) (by decide) hrun hquiet
    (by decide)).2.1.trans (by decide)

end Rtc
end CamkesVm
