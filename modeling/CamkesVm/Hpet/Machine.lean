import CamkesVm.Hpet.Calls
import CamkesVm.Lib.TimerService

/-!
# The HPET and its timers

In `CamkesVm.Hpet.Mmio` a timer may expire at any moment.  `Machine` puts the time server next to
the device, which knows the one-shots by the numbers that the device gave them (`tid`).  A deadline
can pass only while its one-shot is started, and `hpet_timer` is called only for a completion that
is recorded, which it clears.

`hpet_timer_interrupt` is a loop over the timers: each that has completed is handled, in the order
of the array.  `run_hpetTimerInterrupt` says that the loop as a whole, after which the time server
is told what to do next, comes to the same as one event of the machine for each of them; this rests
on the numbers being distinct, so that handling one completion clears no other.

* `Machine`, `Machine.Step` — the machine; the device's own events are those of
  `CamkesVm.Hpet.Mmio`, each with the condition that the time server puts on it.
* `Machine.run_device` — every run of the machine is a run of the device.
* `tid_step`, `tid_run`, `tid_hpetPreInit` — the numbers are given once, in `hpet_realize`.
* `hpetTimerInterrupt`, `handled` — the loop, and which timers it handles.
-/

set_option autoImplicit false

namespace CamkesVm
namespace Hpet

open Transition TimerService EffectLog

/-- What an effect asks of the time server. -/
def timerCommand : Effect → Option (Command ℕ)
  | .oneshot tid _ => some (.arm tid)
  | .stop tid => some (.stop tid)
  | .setIrqLevel _ _ => none

/-- The device and what is around it. -/
structure Machine where
  /-- The device. -/
  hpet : HPETState
  /-- What the time server knows of its timers, by their numbers. -/
  timers : Timers ℕ

namespace Machine

/-- What can happen. -/
inductive Event
  /-- The device does something. -/
  | device (a : Label)
  /-- The deadline of a timer passes. -/
  | expire (tid : ℕ)

/-- The device has done something: what it asked of the time server takes effect. -/
def withHpet (y : Machine) (s : HPETState) : Machine where
  hpet := s
  timers := y.timers.obeyAll timerCommand (news y.hpet.log s.log)

/-- One event. -/
inductive Step : Machine → Event → Machine → Prop
  /-- The guest reads a register. -/
  | read {y : Machine} {offset : ℕ} {now : BitVec 64}
      (h : Hpet.Step y.hpet (.read offset now) y.hpet) : Step y (.device (.read offset now)) y
  /-- The guest writes to one. -/
  | write {y : Machine} {s : HPETState} {offset : ℕ} {value now : BitVec 64}
      (h : Hpet.Step y.hpet (.write offset value now) s) :
      Step y (.device (.write offset value now)) (y.withHpet s)
  /-- A completion is collected and handled. -/
  | timer {y : Machine} {s : HPETState} {i : Fin hpetMaxTimers} {now : BitVec 64}
      (hrecorded : y.timers.recorded (y.hpet.timer i).tid = true)
      (h : Hpet.Step y.hpet (.expire i now) s) :
      Step y (.device (.expire i now))
        ({ y with timers := y.timers.collect fun tid ↦ tid = (y.hpet.timer i).tid }.withHpet s)
  /-- A deadline passes. -/
  | expire {y : Machine} {tid : ℕ} (h : y.timers.armed tid = true) :
      Step y (.expire tid) { y with timers := y.timers.expire tid }

/-- **Collecting may come first**: a completion that is collected after the device has done
something might as well have been collected before. -/
theorem withHpet_collect_withHpet {y : Machine} {u s : HPETState} (done : ℕ → Bool)
    (hu : ∃ es, u.log = y.hpet.log ++ es) (hs : ∃ es, s.log = u.log ++ es) :
    { y.withHpet u with timers := (y.withHpet u).timers.collect done }.withHpet s =
      { y with timers := y.timers.collect done }.withHpet s := by
  obtain ⟨es, hu⟩ := hu
  obtain ⟨es', hs⟩ := hs
  have hall : s.log = y.hpet.log ++ (es ++ es') := by rw [hs, hu, List.append_assoc]
  simp only [withHpet, Timers.collect_obeyAll]
  rw [← Timers.obeyAll_append, hs, news_append, ← hs, hall, news_append, hu, news_append]

/-- What the device sees of an event. -/
def Event.label : Event → Option Label
  | .device a => some a
  | .expire _ => none

/-- **The device in the machine** goes through a run of its own. -/
theorem run_device {y z : Machine} {es : List Event} (h : Run Step y es z) :
    Run Hpet.Step y.hpet (es.filterMap Event.label) z.hpet := by
  refine h.project (f := Machine.hpet) fun y e z hs ↦ ?_
  cases hs with
  | read h | write h | timer _ h => exact .inl ⟨_, rfl, h⟩
  | expire => exact .inr ⟨rfl, rfl⟩

end Machine

/-! ## The numbers of the timers -/

theorem tid_writeRegs (t : HPETTimer) (oldVal newVal : BitVec 64) (reg : ℕ) :
    (writeRegs t oldVal newVal reg).tid = t.tid := by
  rw [writeRegs.eq_def]
  split
  · simp only [writeCfgRegs]
    split <;> rfl
  · rfl
  · simp only [writeCmpHigh]
    split <;> rfl
  all_goals rfl

/-- **No event gives a timer of the HPET another number.** -/
theorem tid_step {s s' : HPETState} {a : Label} (h : Step s a s')
    (i : Fin hpetMaxTimers) : (s'.timer i).tid = (s.timer i).tid := by
  have hset : ∀ (s : HPETState) (j : Fin hpetMaxTimers) (now : BitVec 64),
      ((hpetSetTimer s j now).timer i).tid = (s.timer i).tid := by
    intro s j now
    obtain ⟨wrap, hwrap⟩ := hpetSetTimer_timer s j i now
    rw [hwrap]
  cases h with
  | read => rfl
  | write ho hwrite =>
    obtain ⟨hs, -⟩ | ⟨j, -, -, hs⟩ | ⟨-, hs⟩ := vmHpetMmioWrite_cases hwrite <;> rw [hs]
    · obtain ⟨wrap, hwrap⟩ := (writeTimerReg_frame s _ j _ _ _).1 i
      rw [hwrap]
      dsimp only
      by_cases hij : i = j
      · subst hij
        rw [Function.update_self, tid_writeRegs]
      · rw [Function.update_of_ne hij]
    · rw [writeGeneralReg.eq_def]
      split
      · rw [writeCfg_frame (fun s ↦ (s.timer i).tid) (fun _ _ ↦ rfl) hset
          (fun s j ↦ by rw [hpetDelTimer_timer])]
        dsimp only
        split
        · rfl
        · split <;> rfl
      · exact writeStatus_frame (fun s ↦ (s.timer i).tid)
          (fun s j set ↦ by rw [updateIrq_timer]) s _
      all_goals rfl
  | expire hexpire =>
    rename_i j _ _
    obtain ⟨cmp, wrap, htimer, -⟩ := hpetTimer_frame hexpire
    rw [htimer]
    by_cases hij : i = j
    · subst hij
      rw [Function.update_self]
    · rw [Function.update_of_ne hij]

theorem tid_hpetPreInit (hpetIdBase : ℕ) (i : Fin hpetMaxTimers) :
    ((hpetPreInit hpetIdBase).timer i).tid = hpetIdBase + i := by
  have hreset : ∀ (s : HPETState) (j : Fin hpetMaxTimers),
      ((hpetResetTimer s j).timer i).tid = (s.timer i).tid := by
    intro s j
    simp only [hpetResetTimer, setTimer_timer, hpetDelTimer_timer]
    by_cases hij : i = j
    · subst hij
      rw [Function.update_self]
    · rw [Function.update_of_ne hij]
  exact forTimers_frame (fun s ↦ (s.timer i).tid) hreset
    (hpetRealize zeroState hpetIdBase)

/-- In any number of events. -/
theorem tid_run {s s' : HPETState} {as : List Label} (h : Run Step s as s')
    (i : Fin hpetMaxTimers) : (s'.timer i).tid = (s.timer i).tid :=
  h.invariant (I := fun u ↦ (u.timer i).tid = (s.timer i).tid) rfl
    fun _ _ _ hu hs ↦ (tid_step hs i).trans hu

/-! ## The loop over the completions -/

/-- `hpet_timer_interrupt`, where `completed` has the numbers of the completed timers; `none` if it
is still busy after `fuel` rounds of a loop. -/
def hpetTimerInterrupt (s : HPETState) (completed : ℕ → Bool)
    (now : Fin hpetMaxTimers → BitVec 64) (fuel : ℕ) : Option HPETState :=
  (List.finRange hpetMaxTimers).foldlM (fun s i ↦
    if completed (s.timer i).tid then hpetTimer fuel s i (now i) else some s) s

/-- Which of the timers `is` it calls `hpet_timer` for, by their numbers. -/
def handledOf (s : HPETState) (completed : ℕ → Bool) (is : List (Fin hpetMaxTimers)) (tid : ℕ) :
    Bool :=
  is.any fun i ↦ (s.timer i).tid = tid && completed tid

/-- All those that it calls `hpet_timer` for. -/
def handled (s : HPETState) (completed : ℕ → Bool) : ℕ → Bool :=
  handledOf s completed (List.finRange hpetMaxTimers)

/-- An expiry only adds to what was done. -/
theorem log_hpetTimer {s s' : HPETState} {fuel : ℕ} {i : Fin hpetMaxTimers} {now : BitVec 64}
    (h : hpetTimer fuel s i now = some s') : ∃ es, s'.log = s.log ++ es := by
  obtain ⟨es, hes, -⟩ := setsFor_hpetTimer h
  exact ⟨es, hes⟩

/-- Which timers are called for depends on nothing but their numbers. -/
theorem handledOf_congr {s u : HPETState} (h : ∀ i, (u.timer i).tid = (s.timer i).tid)
    (completed : ℕ → Bool) (is : List (Fin hpetMaxTimers)) :
    handledOf u completed is = handledOf s completed is := by
  funext tid
  simp only [handledOf, h]

section

variable {s s' u : HPETState} {completed : ℕ → Bool} {now : Fin hpetMaxTimers → BitVec 64}
  {fuel : ℕ} {i : Fin hpetMaxTimers} {is : List (Fin hpetMaxTimers)} {timers : Timers ℕ}

/-- A timer that has not completed is passed over. -/
theorem handledOf_cons_of_not (h : ¬completed (s.timer i).tid = true) :
    handledOf s completed (i :: is) = handledOf s completed is := by
  funext tid
  rw [handledOf, handledOf, List.any_cons]
  by_cases heq : (s.timer i).tid = tid
  · subst heq
    simp [h]
  · simp [heq]

/-- One that has is collected, and then the others. -/
theorem handledOf_cons_of_completed (h : completed (s.timer i).tid = true) :
    handledOf s completed (i :: is) =
      fun tid ↦ decide (tid = (s.timer i).tid) || handledOf s completed is tid := by
  funext tid
  rw [handledOf, handledOf, List.any_cons]
  by_cases heq : tid = (s.timer i).tid
  · subst heq
    simp [h]
  · simp [heq, Ne.symm heq]

/-- The loop only appends to the log. -/
theorem log_foldlM_hpetTimer (h : is.foldlM (fun s i ↦
    if completed (s.timer i).tid then hpetTimer fuel s i (now i) else some s) s = some s') :
    ∃ es, s'.log = s.log ++ es := by
  induction is generalizing s with
  | nil =>
    obtain rfl := Option.some.inj h
    exact ⟨[], (List.append_nil _).symm⟩
  | cons i is ih =>
    obtain ⟨u, hu, hrest⟩ := Option.bind_eq_some_iff.1 h
    obtain ⟨es', h'⟩ := ih hrest
    dsimp only at hu
    split at hu
    · obtain ⟨es, h⟩ := log_hpetTimer hu
      exact ⟨es ++ es', by rw [h', h, List.append_assoc]⟩
    · obtain rfl := Option.some.inj hu
      exact ⟨es', h'⟩

/-- Once the completion of a timer is handled, those of the others are still recorded. -/
theorem recorded_expired {u : HPETState} {j : Fin hpetMaxTimers}
    (hne : (s.timer j).tid ≠ (s.timer i).tid)
    (hrecorded : timers.recorded (s.timer j).tid = true) :
    (Machine.withHpet ⟨s, timers.collect fun tid ↦ tid = (s.timer i).tid⟩ u).timers.recorded
      (s.timer j).tid = true := by
  rw [Machine.withHpet, Timers.recorded_obeyAll]
  change (timers.recorded (s.timer j).tid && !decide _) = true
  rw [hrecorded, decide_eq_false hne]
  rfl

/-- Handling the completions of some timers, by one event of the machine for each. -/
theorem run_foldlM_hpetTimer (hnodup : (is.map fun i ↦ (s.timer i).tid).Nodup)
    (hrecorded : ∀ i ∈ is, completed (s.timer i).tid = true →
      timers.recorded (s.timer i).tid = true)
    (h : is.foldlM (fun s i ↦
      if completed (s.timer i).tid then hpetTimer fuel s i (now i) else some s) s = some s') :
    ∃ es, Run Machine.Step ⟨s, timers⟩ es
      (Machine.withHpet ⟨s, timers.collect (handledOf s completed is)⟩ s') := by
  induction is generalizing s timers with
  | nil =>
    obtain rfl := Option.some.inj h
    have hnone : timers.collect (handledOf s completed []) = timers :=
      Timers.collect_of_none fun _ ↦ rfl
    refine ⟨[], ?_⟩
    rw [hnone, Machine.withHpet, news, List.drop_length]
    exact .nil
  | cons i is ih =>
    rw [List.map_cons, List.nodup_cons] at hnodup
    obtain ⟨hi, hnodup⟩ := hnodup
    obtain ⟨u, hu, hrest⟩ := Option.bind_eq_some_iff.1 h
    dsimp only at hu
    split at hu
    next hcompleted =>
      have hstep : Hpet.Step s (.expire i (now i)) u := .expire hu
      have htid := tid_step hstep
      have hfirst := Machine.Step.timer (y := ⟨s, timers⟩)
        (hrecorded i List.mem_cons_self hcompleted) hstep
      set y : Machine := ⟨s, timers.collect fun tid ↦ tid = (s.timer i).tid⟩ with hy
      have hothers : ∀ j ∈ is, completed (u.timer j).tid = true →
          (y.withHpet u).timers.recorded (u.timer j).tid = true := by
        intro j hj hc
        rw [htid] at hc ⊢
        have hne : (s.timer j).tid ≠ (s.timer i).tid := fun heq ↦
          hi (List.mem_map.2 ⟨j, hj, heq⟩)
        exact recorded_expired hne (hrecorded j (List.mem_cons_of_mem _ hj) hc)
      have hnodup' : (is.map fun i ↦ (u.timer i).tid).Nodup := by simpa only [htid] using hnodup
      obtain ⟨es, hrun⟩ := ih hnodup' hothers hrest
      refine ⟨.device (.expire i (now i)) :: es, .cons hfirst ?_⟩
      have heq := Machine.withHpet_collect_withHpet (y := y) (handledOf s completed is)
        (log_hpetTimer hu) (log_foldlM_hpetTimer hrest)
      rw [handledOf_congr htid] at hrun
      rw [handledOf_cons_of_completed hcompleted, ← Timers.collect_collect]
      exact heq ▸ hrun
    next hcompleted =>
      obtain rfl := Option.some.inj hu
      rw [handledOf_cons_of_not hcompleted]
      exact ih hnodup (fun j hj ↦ hrecorded j (List.mem_cons_of_mem _ hj)) hrest

/-- **`hpet_timer_interrupt` is a run of the machine**, in which `hpet_timer` is called for
completions that are recorded. -/
theorem run_hpetTimerInterrupt (htid : Function.Injective fun i ↦ (s.timer i).tid)
    (hrecorded : ∀ i, completed (s.timer i).tid = true → timers.recorded (s.timer i).tid = true)
    (h : hpetTimerInterrupt s completed now fuel = some s') :
    ∃ es, Run Machine.Step ⟨s, timers⟩ es
      (Machine.withHpet ⟨s, timers.collect (handled s completed)⟩ s') :=
  run_foldlM_hpetTimer ((List.nodup_finRange _).map htid) (fun i _ ↦ hrecorded i) h

end

end Hpet
end CamkesVm
