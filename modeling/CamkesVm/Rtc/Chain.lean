import CamkesVm.Lib.Flags
import CamkesVm.Rtc.Machine
import Mathlib.Tactic.Ring

/-!
# The update cycle goes on

Two timers keep the update cycle going, each armed by the handler of the other: `TIMER_SECOND_TIMER`
begins a second, and `TIMER_SECOND_TIMER2` ends the update.  Nothing else arms either of them and
nothing stops them, so whatever the guest does to the oscillator, to set mode or to the update in
progress, exactly one of the two is outstanding (`Chain.one`), an update is announced only while it
is the second (`Chain.uip`), and the deadlines do not drift (`Chain.time`): every cycle that is
completed, or skipped because the oscillator is stopped, puts the next second off by a second.

The internal time advances once for every second begun, and changes otherwise only where the guest
sets it (`Chain.clock`).

## What is here

* `arms`, `emits_next` — a table of what an event asks of the two timers, and that it is right. All
  that follows is by this table.
* `Timer.OfCycle`, `Alone` — exactly one of the two is outstanding, and exactly once.
* `replay`, `Chain` — the history of the internal time, and the invariant.
* `time_next`, `clock_next`, `run_chain` — the deadlines, the internal time, and the runs.

The handlers are late by as much as they like. The deadline of the next second is computed from the
last one, and not from the clock, so this does not add up.
-/

set_option autoImplicit false

namespace CamkesVm
namespace Rtc

open Transition TimerService EffectLog

/-! ## What an event asks of the two timers -/

/-- The timer an event arms, of the two. -/
def arms (y : Machine) : Event → Option Timer
  | .timer .second _ => some (if oscillating y.rtc.toRTCState then .second2 else .second)
  | .timer .second2 _ => some .second
  | _ => none

/-- The effects of a call set the line, and then arm a timer, if it is given. -/
def Emits (i : Option Timer) (s t : RTCState) : Prop :=
  ∃ levels : List ℕ, ∃ es : List Effect, t.log = s.log ++ (levels.map .setIrqLevel ++ es) ∧
    es.map command = (i.map fun i ↦ some (.arm i)).toList

section

variable {s t : RTCState}

theorem Emits.of_log (h : t.log = s.log) : Emits none s t :=
  ⟨[], [], by rw [h]; exact (List.append_nil _).symm, rfl⟩

theorem OnlyFlags.emits (h : OnlyFlags s t) : Emits none s t := by
  obtain ⟨levels, hlog⟩ := h.log
  exact ⟨levels, [], by rw [hlog, List.append_nil], rfl⟩

theorem Emits.of_emit {u : RTCState} {e : Effect} {i : Timer}
    (h : ∃ levels : List ℕ, u.log = s.log ++ levels.map .setIrqLevel)
    (hlog : t.log = u.log ++ [e]) (he : command e = some (.arm i)) : Emits (some i) s t := by
  obtain ⟨levels, hlevels⟩ := h
  refine ⟨levels, [e], by rw [hlog, hlevels, List.append_assoc], ?_⟩
  rw [List.map_singleton, he]
  rfl

/-- What the effects of a call do to one of the two timers. -/
theorem Emits.armed {i : Option Timer} (h : Emits i s t) (timers : Timers Timer) (j : Timer) :
    (timers.obeyAll command (news s.log t.log)).armed j =
      if i = some j then true else timers.armed j := by
  obtain ⟨levels, es, hlog, hes⟩ := h
  have hlevels : ∀ c, ∀ e ∈ levels.map Effect.setIrqLevel, command e ≠ some c := by
    intro c e he
    obtain ⟨level, -, rfl⟩ := List.mem_map.mp he
    exact nofun
  rw [hlog, news_append]
  cases i with
  | none =>
    rw [List.map_eq_nil_iff.mp hes, List.append_nil, if_neg (by exact nofun)]
    exact Timers.armed_obeyAll_of_other (hlevels _) (hlevels _)
  | some i =>
    obtain ⟨e, rfl, he⟩ := List.map_eq_singleton_iff.mp hes
    by_cases hij : i = j
    · rw [if_pos (congrArg some hij)]
      exact Timers.armed_obeyAll_arm _ _ (hij ▸ he)
    · rw [if_neg fun heq ↦ hij (Option.some.inj heq)]
      refine Timers.armed_obeyAll_of_other (fun e' he' ↦ ?_) fun e' he' ↦ ?_ <;>
        rcases List.mem_append.mp he' with he' | he'
      · exact hlevels _ _ he'
      · rw [List.mem_singleton.mp he', he]
        exact fun heq ↦ hij (Command.arm.inj (Option.some.inj heq))
      · exact hlevels _ _ he'
      · rw [List.mem_singleton.mp he', he]
        exact nofun

/-- **What an event asks of the two timers.** -/
theorem emits_next (T : FieldTypes) {y : Machine} (hnone : y.rtc.irqCoalesced = 0) (e : Event) :
    Emits (arms y e) y.rtc.toRTCState (y.next T e).rtc.toRTCState := by
  have hcore := Machine.core_next T hnone e
  cases e with
  | portIn addr =>
    rw [hcore]
    dsimp only
    split
    · exact (onlyFlags_ackRegC _).emits
    · exact .of_log rfl
  | portOut addr data now =>
    rw [hcore]
    dsimp only
    split
    · exact .of_log rfl
    · exact .of_log (log_storeCmos T _ _ _).1
  | expire timer => exact .of_log rfl
  | timer timer now =>
    rw [hcore]
    cases timer with
    | periodic => exact (onlyFlags_periodicPulse _).emits
    | coalesced => exact .of_log rfl
    | second =>
      change Emits (some _) _ (rtcUpdateSecond T y.rtc.toRTCState)
      cases hosc : oscillating y.rtc.toRTCState
      · rw [rtcUpdateSecond_of_stopped T hosc]
        exact .of_emit ⟨[], (List.append_nil _).symm⟩ rfl rfl
      · rw [rtcUpdateSecond_of_oscillating T hosc]
        refine .of_emit ⟨[], ?_⟩ rfl rfl
        rw [List.map_nil, List.append_nil]
        split <;> rfl
    | second2 =>
      change Emits (some _) _ (rtcUpdateSecond2 T y.rtc.toRTCState)
      obtain ⟨t, ht, hend⟩ := rtcUpdateSecond2_eq T y.rtc.toRTCState
      have hcopy : (if setMode y.rtc.toRTCState then y.rtc.toRTCState
          else rtcCopyDate T y.rtc.toRTCState).log = y.rtc.log := by
        split <;> rfl
      rw [hend]
      exact .of_emit (hcopy ▸ ht.log) rfl rfl

end

/-! ## The two timers -/

/-- One of the two timers of the update cycle. -/
def Timer.OfCycle (i : Timer) : Prop := i = .second ∨ i = .second2

/-- Timer `i` is outstanding, once: it is armed, or its completion is recorded, and not both.  Timer
`j` is not. -/
structure Alone (t : Timers Timer) (i j : Timer) : Prop where
  /-- The one. -/
  one : t.armed i = !t.recorded i
  /-- The other is not armed. -/
  armed : t.armed j = false
  /-- Nor is its completion recorded. -/
  recorded : t.recorded j = false

namespace Alone

variable {t t' : Timers Timer} {i j : Timer}

/-- It is a matter of these two timers. -/
theorem congr (h : Alone t i j) (hai : t'.armed i = t.armed i) (hri : t'.recorded i = t.recorded i)
    (haj : t'.armed j = t.armed j) (hrj : t'.recorded j = t.recorded j) : Alone t' i j :=
  ⟨by rw [hai, hri, h.one], haj.trans h.armed, hrj.trans h.recorded⟩

/-- A deadline that passes turns an armed timer into a recorded completion. -/
theorem expire (h : Alone t i j) {k : Timer} (hk : t.armed k = true) : Alone (t.expire k) i j := by
  have hjk : j ≠ k := by
    rintro rfl
    exact Bool.false_ne_true (h.armed.symm.trans hk)
  refine ⟨?_, (Function.update_of_ne hjk _ _).trans h.armed,
    (Function.update_of_ne hjk _ _).trans h.recorded⟩
  change Function.update t.armed k false i = !Function.update t.recorded k true i
  by_cases hik : i = k
  · rw [hik, Function.update_self, Function.update_self]
    rfl
  · rw [Function.update_of_ne hik, Function.update_of_ne hik]
    exact h.one

/-- A completion that is handled is of the outstanding timer. -/
theorem not_handled (h : Alone t i j) (hj : t.recorded j = true) : False :=
  Bool.false_ne_true (h.recorded.symm.trans hj)

end Alone

section

variable (T : FieldTypes) {y : Machine} {e : Event} {i j : Timer}

/-- When one of the two timers is armed after an event. -/
theorem armed_next (hnone : y.rtc.irqCoalesced = 0) (e : Event) (hi : i.OfCycle) :
    (y.next T e).timers.armed i =
      if arms y e = some i then true
      else match e with
        | .expire j => (y.timers.expire j).armed i
        | _ => y.timers.armed i := by
  have hperiodic : ∀ (t : Timers Timer) (es : List PeriodicEffect),
      (t.obeyAll periodicCommand es).armed i = t.armed i := by
    intro t es
    refine Timers.armed_obeyAll_of_other (fun e _ ↦ ?_) fun e _ ↦ ?_ <;>
      rcases hi with rfl | rfl <;> cases e <;> exact nofun
  have hemits := (emits_next T hnone e).armed
  cases e with
  | portIn addr => exact (hperiodic _ _).trans (hemits y.timers i)
  | portOut addr data now => exact (hperiodic _ _).trans (hemits y.timers i)
  | expire j => rfl
  | timer j now => exact (hperiodic _ _).trans (hemits (y.timers.collect (· == j)) i)

/-- When its completion is recorded. -/
theorem recorded_next (y : Machine) (e : Event) (i : Timer) :
    (y.next T e).timers.recorded i =
      match e with
      | .expire j => (y.timers.expire j).recorded i
      | .timer j _ => y.timers.recorded i && !(i == j)
      | _ => y.timers.recorded i := by
  cases e with
  | portIn addr =>
    change (((y.timers.obeyAll command _).obeyAll periodicCommand _).recorded i) = _
    rw [Timers.recorded_obeyAll, Timers.recorded_obeyAll]
  | portOut addr data now =>
    change (((y.timers.obeyAll command _).obeyAll periodicCommand _).recorded i) = _
    rw [Timers.recorded_obeyAll, Timers.recorded_obeyAll]
  | expire j => rfl
  | timer j now =>
    change ((((y.timers.collect (· == j)).obeyAll command _).obeyAll periodicCommand _).recorded i)
      = _
    rw [Timers.recorded_obeyAll, Timers.recorded_obeyAll]
    rfl

/-- An event that handles neither of the two arms none. -/
theorem arms_eq_none (hi : i.OfCycle) (hj : j.OfCycle) (hij : i ≠ j)
    (hother : ∀ now, e ≠ .timer i now) (hjother : ∀ now, e ≠ .timer j now) : arms y e = none := by
  cases e with
  | timer k now =>
    have hki : k ≠ i := fun heq ↦ hother now (heq ▸ rfl)
    have hkj : k ≠ j := fun heq ↦ hjother now (heq ▸ rfl)
    cases k with
    | periodic => rfl
    | coalesced => rfl
    | second =>
      obtain rfl := hi.resolve_left hki.symm
      exact absurd (hj.resolve_left hkj.symm).symm hij
    | second2 =>
      obtain rfl := hi.resolve_right hki.symm
      exact absurd (hj.resolve_right hkj.symm).symm hij
  | portIn addr => rfl
  | portOut addr data now => rfl
  | expire k => rfl

/-- **An event that handles no completion of the outstanding timer** leaves it the outstanding
one. -/
theorem Alone.next_of_not_handled (hnone : y.rtc.irqCoalesced = 0) (hi : i.OfCycle) (hj : j.OfCycle)
    (hij : i ≠ j) (h : Alone y.timers i j) (he : y.Enabled e)
    (hother : ∀ now, e ≠ .timer i now) : Alone (y.next T e).timers i j := by
  have hjother : ∀ now, e ≠ .timer j now := by
    rintro now rfl
    exact h.not_handled he
  have harms : arms y e = none := arms_eq_none hi hj hij hother hjother
  have hai := armed_next T hnone e hi
  have haj := armed_next T hnone e hj
  have hri := recorded_next T y e i
  have hrj := recorded_next T y e j
  rw [harms, if_neg (by exact nofun)] at hai haj
  cases e with
  | portIn addr => exact h.congr hai hri haj hrj
  | portOut addr data now => exact h.congr hai hri haj hrj
  | expire k => exact (h.expire he).congr hai hri haj hrj
  | timer k now =>
    have hik : (i == k) = false := beq_eq_false_iff_ne.mpr fun heq ↦ hother now (heq ▸ rfl)
    have hjk : (j == k) = false := beq_eq_false_iff_ne.mpr fun heq ↦ hjother now (heq ▸ rfl)
    dsimp only at hai hri hrj
    rw [hik, Bool.not_false, Bool.and_true] at hri
    rw [hjk, Bool.not_false, Bool.and_true] at hrj
    exact h.congr hai hri haj hrj

/-- **The handler of the outstanding timer** arms one of the two. -/
theorem Alone.next_of_handled (hnone : y.rtc.irqCoalesced = 0) {now : BitVec 64} {k l : Timer}
    (hk : k.OfCycle) (hl : l.OfCycle) (hkl : k ≠ l) (h : Alone y.timers i j)
    (hij : (i = k ∧ j = l) ∨ (i = l ∧ j = k)) (he : y.Enabled (.timer i now))
    (harms : arms y (.timer i now) = some k) : Alone (y.next T (.timer i now)).timers k l := by
  have hi : y.timers.armed i = false := by
    rw [h.one, show y.timers.recorded i = true from he]
    rfl
  have harmed : y.timers.armed l = false := by
    rcases hij with ⟨-, rfl⟩ | ⟨rfl, -⟩
    · exact h.armed
    · exact hi
  have hrecorded : ∀ m, m = i ∨ m = j → (y.next T (.timer i now)).timers.recorded m = false := by
    intro m hm
    rw [recorded_next]
    dsimp only
    rcases hm with rfl | rfl
    · rw [beq_self_eq_true, Bool.not_true, Bool.and_false]
    · rw [h.recorded, Bool.false_and]
  have hak := armed_next T hnone (.timer i now) hk
  have hal := armed_next T hnone (.timer i now) hl
  rw [harms, if_pos rfl] at hak
  rw [harms, if_neg fun heq ↦ hkl (Option.some.inj heq)] at hal
  refine ⟨?_, hal.trans harmed, hrecorded l ?_⟩
  · rw [hak, hrecorded k (by rcases hij with ⟨rfl, -⟩ | ⟨-, rfl⟩ <;> simp)]
    rfl
  · rcases hij with ⟨-, rfl⟩ | ⟨rfl, -⟩
    · exact .inr rfl
    · exact .inl rfl

end

/-! ## The chain -/

/-- What is done to the internal time, one thing after another. -/
def replay (T : FieldTypes) (tm : RtcTimeDate) (ops : List ClockOp) : RtcTimeDate :=
  ops.foldl (fun tm op ↦ match op with | .tick => rtcNextSecond T tm | .set tm' => tm') tm

/-- **The update cycle**, after a start at time `now` with the date `tm`. -/
structure Chain (T : FieldTypes) (tm : RtcTimeDate) (now : ℤ) (y : Machine) : Prop where
  /-- Exactly one of the two timers is outstanding. -/
  one : Alone y.timers .second .second2 ∨ Alone y.timers .second2 .second
  /-- An update is announced only while it is the second. -/
  uip : inProgress y.rtc.toRTCState = true → Alone y.timers .second2 .second
  /-- The deadlines do not drift. -/
  time : y.rtc.nextSecondTime = now + getTicksPerSec * 99 / 100 + y.cycles * getTicksPerSec
  /-- The internal time advances, and is set, as it should. -/
  clock : y.rtc.currentTm = replay T tm y.clock
  /-- It advances once for every second begun. -/
  seconds : y.clock.count .tick = y.seconds

section

variable (T : FieldTypes) {tm : RtcTimeDate} {now : ℤ} {y : Machine} {e : Event}

theorem ofCycle_second : Timer.OfCycle .second := .inl rfl

theorem ofCycle_second2 : Timer.OfCycle .second2 := .inr rfl

/-- The handler of `TIMER_SECOND_TIMER`. -/
theorem alone_next_second (hnone : y.rtc.irqCoalesced = 0)
    (h : Alone y.timers .second .second2) {t : BitVec 64} (he : y.Enabled (.timer .second t)) :
    if oscillating y.rtc.toRTCState then Alone (y.next T (.timer .second t)).timers .second2 .second
    else Alone (y.next T (.timer .second t)).timers .second .second2 := by
  split
  · rename_i hosc
    exact h.next_of_handled T hnone ofCycle_second2 ofCycle_second (by decide) (.inr ⟨rfl, rfl⟩) he
      (congrArg some (if_pos hosc))
  · rename_i hosc
    exact h.next_of_handled T hnone ofCycle_second ofCycle_second2 (by decide) (.inl ⟨rfl, rfl⟩) he
      (congrArg some (if_neg hosc))

/-- The handler of `TIMER_SECOND_TIMER2`. -/
theorem alone_next_second2 (hnone : y.rtc.irqCoalesced = 0)
    (h : Alone y.timers .second2 .second) {t : BitVec 64} (he : y.Enabled (.timer .second2 t)) :
    Alone (y.next T (.timer .second2 t)).timers .second .second2 :=
  h.next_of_handled T hnone ofCycle_second ofCycle_second2 (by decide) (.inr ⟨rfl, rfl⟩) he rfl

theorem alone_next (hnone : y.rtc.irqCoalesced = 0)
    (h : Alone y.timers .second .second2 ∨ Alone y.timers .second2 .second) (he : y.Enabled e) :
    Alone (y.next T e).timers .second .second2 ∨ Alone (y.next T e).timers .second2 .second := by
  rcases h with h | h
  · by_cases hhandled : ∃ t, e = .timer .second t
    · obtain ⟨t, rfl⟩ := hhandled
      have hnext := alone_next_second T hnone h he
      split at hnext
      · exact .inr hnext
      · exact .inl hnext
    · exact .inl (h.next_of_not_handled T hnone ofCycle_second ofCycle_second2 (by decide) he
        fun t heq ↦ hhandled ⟨t, heq⟩)
  · by_cases hhandled : ∃ t, e = .timer .second2 t
    · obtain ⟨t, rfl⟩ := hhandled
      exact .inl (alone_next_second2 T hnone h he)
    · exact .inr (h.next_of_not_handled T hnone ofCycle_second2 ofCycle_second (by decide) he
        fun t heq ↦ hhandled ⟨t, heq⟩)

/-! ### The update in progress -/

theorem inProgress_setCmos {s : RTCState} {i : Fin 128} (h : i ≠ rtcRegA) (v : BitVec 8) :
    inProgress (s.setCmos i v) = inProgress s := by
  rw [inProgress, inProgress, RTCState.anyBit, RTCState.anyBit, setCmos_of_ne _ h.symm]

theorem inProgress_setCmos_clear (s : RTCState) :
    inProgress (s.setCmos rtcRegA (s.cmosData rtcRegA &&& ~~~regAUip)) = false := by
  rw [inProgress, RTCState.anyBit, setCmos_self, Flags.and_and_of_disjoint _ (by decide)]
  rfl

/-- The guest can take the announcement of an update back, but not make one. -/
theorem inProgress_storeCmos {s : RTCState} {i : Fin 128} {data : BitVec 8}
    (h : inProgress (storeCmos T i data s) = true) : inProgress s = true := by
  rw [storeCmos] at h
  split at h
  · rename_i hdate
    have hne : i ≠ rtcRegA := by
      rintro rfl
      revert hdate
      decide
    split at h
    · rwa [inProgress_setCmos hne] at h
    · exact (inProgress_setCmos hne data).symm.trans h
  · split at h
    · -- the UIP bit is read only
      rw [inProgress, RTCState.anyBit, setCmos_self, BitVec.and_or_distrib_right,
        Flags.and_and_of_disjoint data (by decide),
        Flags.and_and_of_subset (s.cmosData rtcRegA) (by decide)] at h
      simpa [inProgress, RTCState.anyBit] using h
    · split at h
      · by_cases hset : data &&& regBSet = 0
        · have hleave : inProgress (leaveSetMode T s) = inProgress s := by
            rw [leaveSetMode]
            split <;> rfl
          rw [writeRegB_of_clear T hset] at h
          split at h
          · rw [inProgress, RTCState.anyBit, rtcCopyDate_cmosData_of_notMem T _ (by decide)] at h
            rw [← hleave, ← inProgress_setCmos (i := rtcRegB) (by decide) data]
            exact h
          · rwa [inProgress_setCmos (by decide), hleave] at h
        · rw [writeRegB_of_set T hset, inProgress_setCmos (by decide),
            inProgress_setCmos_clear] at h
          exact absurd h Bool.false_ne_true
      · split at h
        · exact h
        · rename_i hA _ _
          rwa [inProgress_setCmos hA] at h

theorem OnlyFlags.inProgress {s t : RTCState} (h : OnlyFlags s t) :
    inProgress t = inProgress s := by
  rw [Rtc.inProgress, Rtc.inProgress, RTCState.anyBit, RTCState.anyBit, h.cmosData _ (by decide)]

theorem uip_next (hnone : y.rtc.irqCoalesced = 0)
    (hone : Alone y.timers .second .second2 ∨ Alone y.timers .second2 .second)
    (huip : inProgress y.rtc.toRTCState = true → Alone y.timers .second2 .second)
    (he : y.Enabled e) (h : inProgress (y.next T e).rtc.toRTCState = true) :
    Alone (y.next T e).timers .second2 .second := by
  have hcore := Machine.core_next T hnone e
  -- an event that makes no announcement
  have hkeep : (∀ t, e ≠ .timer .second2 t) → inProgress y.rtc.toRTCState = true →
      Alone (y.next T e).timers .second2 .second := fun hother hprogress ↦
    (huip hprogress).next_of_not_handled T hnone ofCycle_second2 ofCycle_second (by decide) he
      hother
  cases e with
  | portIn addr =>
    refine hkeep (fun _ ↦ nofun) ?_
    rw [hcore] at h
    dsimp only at h
    split at h
    · rwa [(onlyFlags_ackRegC _).inProgress] at h
    · exact h
  | portOut addr data t =>
    refine hkeep (fun _ ↦ nofun) ?_
    rw [hcore] at h
    dsimp only at h
    split at h
    · exact h
    · exact inProgress_storeCmos T h
  | expire timer => exact hkeep (fun _ ↦ nofun) h
  | timer timer t =>
    rw [hcore] at h
    cases timer with
    | periodic =>
      refine hkeep (fun _ ↦ nofun) ?_
      exact (onlyFlags_periodicPulse _).inProgress.symm.trans h
    | coalesced => exact hkeep (fun _ ↦ nofun) h
    | second =>
      have hsecond : Alone y.timers .second .second2 := by
        rcases hone with hone | hone
        · exact hone
        · exact (hone.not_handled he).elim
      have hnext := alone_next_second T hnone hsecond he
      cases hosc : oscillating y.rtc.toRTCState
      · rw [rtcUpdateSecond_of_stopped T hosc] at h
        exact ((huip h).not_handled he).elim
      · rwa [if_pos hosc] at hnext
    | second2 =>
      change inProgress (rtcUpdateSecond2 T y.rtc.toRTCState) = true at h
      obtain ⟨s, -, hend⟩ := rtcUpdateSecond2_eq T y.rtc.toRTCState
      rw [hend] at h
      exact absurd ((inProgress_setCmos_clear s).symm.trans h) Bool.false_ne_true

/-! ### Deadlines and the internal time -/

/-- **A cycle puts the next update off by a second**, and nothing else does. -/
theorem time_next (hnone : y.rtc.irqCoalesced = 0) (e : Event) :
    (y.next T e).rtc.nextSecondTime =
      y.rtc.nextSecondTime + ((y.next T e).cycles - y.cycles) * getTicksPerSec := by
  have hcore := congrArg RTCState.nextSecondTime (Machine.core_next T hnone e)
  rw [hcore]
  have hsame : ∀ c : ℕ, c = y.cycles → y.rtc.nextSecondTime =
      y.rtc.nextSecondTime + ((c : ℤ) - y.cycles) * getTicksPerSec := by
    rintro c rfl
    rw [sub_self, zero_mul, add_zero]
  have hmore : ∀ c : ℕ, c = y.cycles + 1 → y.rtc.nextSecondTime + getTicksPerSec =
      y.rtc.nextSecondTime + ((c : ℤ) - y.cycles) * getTicksPerSec := by
    rintro c rfl
    rw [Nat.cast_succ, add_sub_cancel_left, one_mul]
  cases e with
  | portIn addr =>
    refine Eq.trans ?_ (hsame _ rfl)
    dsimp only
    split <;> rfl
  | portOut addr data t =>
    refine Eq.trans ?_ (hsame _ rfl)
    dsimp only
    split
    · rfl
    · exact (log_storeCmos T _ _ _).2
  | expire timer => exact hsame _ rfl
  | timer timer t =>
    cases timer with
    | periodic => exact (onlyFlags_periodicPulse _).nextSecondTime.trans (hsame _ rfl)
    | coalesced => exact hsame _ rfl
    | second =>
      change (rtcUpdateSecond T y.rtc.toRTCState).nextSecondTime = _
      cases hosc : oscillating y.rtc.toRTCState
      · rw [rtcUpdateSecond_of_stopped T hosc]
        refine hmore _ (if_pos ?_)
        exact .inr ⟨rfl, by rw [hosc]; rfl⟩
      · rw [rtcUpdateSecond_of_oscillating T hosc]
        refine Eq.trans ?_ (hsame _ (if_neg ?_))
        · split <;> rfl
        · rw [hosc]
          exact fun h ↦ h.elim nofun fun h ↦ nomatch h.2
    | second2 =>
      change (rtcUpdateSecond2 T y.rtc.toRTCState).nextSecondTime = _
      obtain ⟨s, hs, hend⟩ := rtcUpdateSecond2_eq T y.rtc.toRTCState
      have hcopy : (if setMode y.rtc.toRTCState then y.rtc.toRTCState
          else rtcCopyDate T y.rtc.toRTCState).nextSecondTime = y.rtc.nextSecondTime := by
        split <;> rfl
      have hcycles : (y.next T (.timer .second2 t)).cycles = y.cycles + 1 := by
        simp only [Machine.next, true_or, if_true]
      rw [hend]
      refine Eq.trans ?_ (hmore _ hcycles)
      exact congrArg (· + getTicksPerSec) (hs.nextSecondTime.trans hcopy)

/-- A write sets the internal time, or leaves it alone. -/
theorem currentTm_storeCmos (i : Fin 128) (data : BitVec 8) (s : RTCState) :
    (storeCmos T i data s).currentTm =
      if setsTime s i data then (rtcSetTime T (edited s i data)).currentTm else s.currentTm := by
  have hother : i ∉ dateRegisters → i ≠ rtcRegB → ¬setsTime s i data := fun hdate hB h ↦
    h.elim (fun h ↦ hdate h.1) fun h ↦ hB h.1
  rw [storeCmos]
  by_cases hdate : i ∈ dateRegisters
  · have hne : i ≠ rtcRegB := by
      rintro rfl
      revert hdate
      decide
    rw [if_pos hdate, edited, if_neg hne]
    cases hset : setMode s
    · have hsets : setsTime s i data := .inl ⟨hdate, hset⟩
      rw [if_pos hsets]
      rfl
    · have hsets : ¬setsTime s i data := fun h ↦
        h.elim (fun h ↦ Bool.false_ne_true (h.2.symm.trans hset)) fun h ↦ hne h.1
      rw [if_neg hsets]
      rfl
  · rw [if_neg hdate]
    by_cases hA : i = rtcRegA
    · have hne : i ≠ rtcRegB := hA ▸ by decide
      rw [if_pos hA, if_neg (hother hdate hne)]
      rfl
    · rw [if_neg hA]
      by_cases hB : i = rtcRegB
      · rw [if_pos hB, edited, if_pos hB]
        by_cases hclear : data &&& regBSet = 0
        · have hleave : (writeRegB T data s).currentTm = (leaveSetMode T s).currentTm := by
            rw [writeRegB_of_clear T hclear]
            split <;> rfl
          rw [hleave, leaveSetMode]
          cases hset : setMode s
          · have hsets : ¬setsTime s i data := fun h ↦
              h.elim (fun h ↦ hdate h.1) fun h ↦ Bool.false_ne_true (hset.symm.trans h.2.1)
            rw [if_neg hsets]
            rfl
          · have hsets : setsTime s i data := .inr ⟨hB, hset, hclear⟩
            rw [if_pos hsets]
            rfl
        · have hsets : ¬setsTime s i data := fun h ↦
            h.elim (fun h ↦ hdate h.1) fun h ↦ hclear h.2.2
          rw [writeRegB_of_set T hclear, if_neg hsets]
          rfl
      · rw [if_neg hB, if_neg (hother hdate hB)]
        split <;> rfl

/-- **What an event does to the internal time** is what the history says. -/
theorem clock_next (hnone : y.rtc.irqCoalesced = 0) (e : Event) :
    ∃ ops, (y.next T e).clock = y.clock ++ ops ∧
      (y.next T e).rtc.currentTm = replay T y.rtc.currentTm ops ∧
      (y.next T e).seconds = y.seconds + ops.count .tick := by
  have hcore := congrArg RTCState.currentTm (Machine.core_next T hnone e)
  rw [hcore]
  cases e with
  | portIn addr =>
    refine ⟨[], (List.append_nil _).symm, ?_, rfl⟩
    dsimp only
    split <;> rfl
  | portOut addr data t =>
    refine ⟨_, rfl, ?_, ?_⟩
    · dsimp only
      split
      · rename_i heven
        rw [if_neg fun h ↦ h.1 heven]
        rfl
      · rename_i hodd
        rw [currentTm_storeCmos]
        by_cases hsets : setsTime y.rtc.toRTCState y.rtc.cmosIndex data
        · rw [if_pos hsets, if_pos ⟨hodd, hsets⟩]
          rfl
        · rw [if_neg hsets, if_neg fun h ↦ hsets h.2]
          rfl
    · split <;> rfl
  | expire timer => exact ⟨[], (List.append_nil _).symm, rfl, rfl⟩
  | timer timer t =>
    cases timer with
    | periodic =>
      exact ⟨[], (List.append_nil _).symm, (onlyFlags_periodicPulse _).currentTm, rfl⟩
    | coalesced => exact ⟨[], (List.append_nil _).symm, rfl, rfl⟩
    | second =>
      change ∃ ops, (if Timer.second = .second ∧ oscillating y.rtc.toRTCState
          then y.clock ++ [.tick] else y.clock) = y.clock ++ ops ∧
        (rtcUpdateSecond T y.rtc.toRTCState).currentTm = replay T y.rtc.currentTm ops ∧
        (if Timer.second = .second ∧ oscillating y.rtc.toRTCState
          then y.seconds + 1 else y.seconds) = y.seconds + ops.count .tick
      cases hosc : oscillating y.rtc.toRTCState
      · rw [rtcUpdateSecond_of_stopped T hosc]
        exact ⟨[], (List.append_nil _).symm, rfl, rfl⟩
      · rw [rtcUpdateSecond_of_oscillating T hosc]
        refine ⟨[.tick], rfl, ?_, rfl⟩
        split <;> rfl
    | second2 =>
      refine ⟨[], (List.append_nil _).symm, ?_, rfl⟩
      change (rtcUpdateSecond2 T y.rtc.toRTCState).currentTm = y.rtc.currentTm
      obtain ⟨s, hs, hend⟩ := rtcUpdateSecond2_eq T y.rtc.toRTCState
      have hcopy : (if setMode y.rtc.toRTCState then y.rtc.toRTCState
          else rtcCopyDate T y.rtc.toRTCState).currentTm = y.rtc.currentTm := by
        split <;> rfl
      rw [hend]
      exact hs.currentTm.trans hcopy

/-! ### Runs -/

theorem chain_init (tm : RtcTimeDate) (now : ℤ) : Chain T tm now (Machine.init T tm now) where
  one := .inr ⟨rfl, rfl, rfl⟩
  uip h := by
    have hA : (Machine.init T tm now).rtc.cmosData rtcRegA = 0x26 := rfl
    rw [inProgress, RTCState.anyBit, hA] at h
    exact absurd h (by decide)
  time := by
    change now + getTicksPerSec * 99 / 100 = _ + ((0 : ℕ) : ℤ) * _
    rw [Nat.cast_zero, zero_mul, add_zero]
  clock := rfl
  seconds := rfl

theorem Chain.next (hnone : y.rtc.irqCoalesced = 0) (h : Chain T tm now y) (he : y.Enabled e) :
    Chain T tm now (y.next T e) := by
  obtain ⟨ops, hclock, htm, hseconds⟩ := clock_next T hnone e
  refine ⟨alone_next T hnone h.one he, uip_next T hnone h.one h.uip he, ?_, ?_, ?_⟩
  · rw [time_next T hnone, h.time]
    ring
  · rw [htm, hclock, h.clock, replay, replay, replay, List.foldl_append]
  · rw [hclock, hseconds, List.count_append, h.seconds]

end

/-- **The update cycle never stops, forks or drifts.** -/
theorem run_chain (T : FieldTypes) {tm : RtcTimeDate} {now : ℤ} {es : List Event} {y : Machine}
    (h : Run (Machine.Step T) (Machine.init T tm now) es y) : Chain T tm now y := by
  have hboth := h.invariant (I := fun y ↦ y.rtc.irqCoalesced = 0 ∧ Chain T tm now y)
    ⟨rfl, chain_init T tm now⟩ fun y e z hy hstep ↦ by
      obtain ⟨he, rfl⟩ := hstep
      exact ⟨Machine.irqCoalesced_next T hy.1 e, hy.2.next T hy.1 he⟩
  exact hboth.2

set_option maxRecDepth 4000 in
/-- One round, with the oscillator stopped in the middle of the update. -/
theorem run_chain_round :
    Chain intFields exampleDate 0
      ([.expire .second2, .portOut 0x70 10 0, .portOut 0x71 0x46 0, .timer .second2 0,
        .expire .second, .timer .second 0].foldl (Machine.next intFields)
          (Machine.init intFields exampleDate 0)) :=
  run_chain intFields (run_foldl (by decide))

end Rtc
end CamkesVm
