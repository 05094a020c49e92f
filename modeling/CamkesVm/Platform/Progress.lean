import CamkesVm.Hpet.Expiry
import CamkesVm.Platform.Vmm
import CamkesVm.Serial.Stall

/-!
# The VMM comes to rest

When the guest does nothing and no deadline passes, the VMM and the servers still have their signals
to send and to take.  They are soon done: every signal is sent once, and a signal is taken with all
others that are there (`effort`).

At rest nothing is forgotten.  All completions have been handled, and where a device has not
finished its work a timer is armed for it: the clock of the RTC goes on, a level of the PIT that is
going to change is going to be changed, a byte in the transmitter is going to be sent, and
characters that wait in the receive FIFO are going to be announced (`run_settles`).

All this needs handlers that return.  The only one that may not is that of the HPET, for a timer
that is stuck.

## What is here

* `Rearmed`, `Unmoved`, `pit_next_cases`, `PitReady` — the PIT: every event leaves the timer armed
  for the next change of the level, or does not touch either.
* `Loose`, `Loose.exists_hpetTimerInterrupt` — the HPET: a timer that is not stuck is handled in
  finitely many rounds.
* `Internal`, `effort`, `effort_step`, `exists_asyncEvent` — the steps that need nobody, a number
  that each of them makes smaller, and that one of them is possible.
* `Attended`, `run_attended` — the invariant about unfinished work: its timer is armed, or has
  completed and will be handled.
* `AtRest`, `run_settles` — the end: from every state that a run reaches, at most five internal
  steps lead to rest, in whatever order, and there all work has its timer armed.

The condition on the HPET is the one of `CamkesVm.Hpet.Expiry`; a guest that keeps to it has a VMM
that always comes back.
-/

set_option autoImplicit false

namespace CamkesVm
namespace Platform
namespace Vmm

open Transition TimerService EffectLog Events Coalesced
open scoped Pit

/-! ## The timer of the PIT -/

section

variable {pit pit' pit'' : Pit.PITCommonState}

/-- The time at which the PIT is going to change its level, `-1` if it is not. -/
def deadline (pit : Pit.PITCommonState) : BitVec 64 := (pit.channels 0).nextTransitionTime

/-- The level has been set, and the timer armed for the next change, or stopped. -/
def Rearmed (pit pit' : Pit.PITCommonState) : Prop :=
  ∃ level, pit'.log = pit.log ++
    [.setIrqLevel level, if deadline pit' ≠ -1 then .oneshotAbsolute (deadline pit') else .stop]

/-- Nothing was done about the level and its next change. -/
def Unmoved (pit pit' : Pit.PITCommonState) : Prop :=
  pit'.log = pit.log ∧ deadline pit' = deadline pit

theorem Rearmed.trans (h : Rearmed pit pit') (h' : Unmoved pit' pit'') : Rearmed pit pit'' := by
  obtain ⟨level, hlog⟩ := h
  exact ⟨level, by rw [h'.1, hlog, h'.2]⟩

theorem Unmoved.trans (h : Unmoved pit pit') (h' : Unmoved pit' pit'') : Unmoved pit pit'' :=
  ⟨h'.1.trans h.1, h'.2.trans h.2⟩

theorem Unmoved.rearmed (h : Unmoved pit pit') (h' : Rearmed pit' pit'') : Rearmed pit pit'' := by
  obtain ⟨level, hlog⟩ := h'
  exact ⟨level, by rw [hlog, h.1]⟩

theorem unmoved_setChannel (pit : Pit.PITCommonState) (i : Fin 3) {s : Pit.PITChannelState}
    (h : s.nextTransitionTime = (pit.channels i).nextTransitionTime) :
    Unmoved pit (pit.setChannel i s) := by
  refine ⟨rfl, ?_⟩
  by_cases hi : 0 = i
  · rw [deadline, deadline, ← hi, Pit.channels_setChannel_self, h, hi]
  · rw [deadline, deadline, Pit.channels_setChannel_of_ne pit i s hi]

/-- What `pit_irq_timer_update` does depends on whether the channel has an interrupt timer. -/
theorem pitIrqTimerUpdate_cases (h : Pit.Wired pit) (i : Fin 3) (time : BitVec 64) :
    i = 0 ∧ Rearmed pit (Pit.pitIrqTimerUpdate pit i time) ∨
      i ≠ 0 ∧ Unmoved pit (Pit.pitIrqTimerUpdate pit i time) := by
  obtain ⟨htimer, hdisabled⟩ := h i
  by_cases hi : i = 0
  · have hon : ¬((!(pit.channels i).irqTimer || (pit.channels i).irqDisabled) = true) := by
      rw [htimer, hdisabled, decide_eq_true hi]
      exact Bool.false_ne_true
    refine .inl ⟨hi, Pit.pitGetOut (pit.channels i) time, ?_⟩
    subst hi
    simp only [Pit.pitIrqTimerUpdate, if_neg hon, deadline, Pit.log_emit, Pit.log_setChannel,
      Pit.channels_emit, Pit.channels_setChannel_self, List.append_assoc, List.cons_append,
      List.nil_append]
  · have hoff : (!(pit.channels i).irqTimer || (pit.channels i).irqDisabled) = true := by
      rw [htimer, decide_eq_false hi]
      rfl
    rw [Pit.pitIrqTimerUpdate, if_pos hoff]
    exact .inr ⟨hi, rfl, rfl⟩

theorem pitLoadCount_cases (h : Pit.Wired pit) (i : Fin 3) (val : ℕ) (now : BitVec 64) :
    Rearmed pit (Pit.pitLoadCount pit i val now) ∨
      Unmoved pit (Pit.pitLoadCount pit i val now) := by
  rw [Pit.pitLoadCount]
  dsimp only
  generalize hs : ({ pit.channels i with
    countLoadTime := now, count := if val = 0 then 0x10000 else val } : Pit.PITChannelState) = s
  have hloaded : Unmoved pit (pit.setChannel i s) := unmoved_setChannel pit i (hs ▸ rfl)
  have hwired : Pit.Wired (pit.setChannel i s) := h.setChannel (hs ▸ h i)
  rcases pitIrqTimerUpdate_cases hwired i now with ⟨-, hmoved⟩ | ⟨-, hunmoved⟩
  · exact .inl (hloaded.rearmed hmoved)
  · exact .inr (hloaded.trans hunmoved)

theorem writeCount_cases (h : Pit.Wired pit) (clock : Fin 3 → BitVec 64) (val : BitVec 8)
    (i : Fin 3) : Rearmed pit (Pit.pitIoportWrite.writeCount pit clock val i) ∨
      Unmoved pit (Pit.pitIoportWrite.writeCount pit clock val i) := by
  rw [Pit.pitIoportWrite.writeCount]
  dsimp only
  split
  · exact pitLoadCount_cases h i _ _
  · split
    · exact .inr (unmoved_setChannel pit i rfl)
    · split
      · have hload := pitLoadCount_cases h i ((pit.channels i).writeLatch.toNat + val.toNat * 256)
          (clock i)
        generalize Pit.pitLoadCount pit i _ (clock i) = loaded at hload ⊢
        have hstate := unmoved_setChannel loaded i
          (s := { loaded.channels i with writeState := Pit.rwStateWord0 }) rfl
        exact hload.imp (fun hmoved ↦ hmoved.trans hstate) fun hunmoved ↦ hunmoved.trans hstate
      · exact pitLoadCount_cases h i _ _

theorem nextTransitionTime_readChannel (s : Pit.PITChannelState) (now : BitVec 64) :
    (Pit.readChannel s now).2.nextTransitionTime = s.nextTransitionTime := by
  rw [Pit.readChannel]
  repeat' split
  all_goals rfl

theorem nextTransitionTime_pitLatchCount (s : Pit.PITChannelState) (now : BitVec 64) :
    (Pit.pitLatchCount s now).nextTransitionTime = s.nextTransitionTime := by
  rw [Pit.pitLatchCount]
  split <;> rfl

theorem nextTransitionTime_command (s : Pit.PITChannelState) (val : BitVec 8) (now : BitVec 64) :
    (Pit.command s val now).nextTransitionTime = s.nextTransitionTime := by
  simp only [Pit.command]
  split
  · exact nextTransitionTime_pitLatchCount s now
  · rfl

theorem nextTransitionTime_readBack (s : Pit.PITChannelState) (i : Fin 3) (val : BitVec 8)
    (now now' : BitVec 64) :
    (Pit.readBack s i val now now').nextTransitionTime = s.nextTransitionTime := by
  have hlatch : (if val &&& 0x20 = 0 then Pit.pitLatchCount s now else s).nextTransitionTime =
      s.nextTransitionTime := by
    split
    · exact nextTransitionTime_pitLatchCount s now
    · rfl
  rw [Pit.readBack]
  generalize (if val &&& 0x20 = 0 then Pit.pitLatchCount s now else s) = s' at hlatch ⊢
  split
  · dsimp only
    split <;> exact hlatch
  · rfl

/-- **An event of the PIT** arms the timer for the next change of the level, or leaves both
alone. -/
theorem pit_next_cases (h : Pit.Wired pit) (a : Pit.Label) :
    Rearmed pit (pit.next a) ∨ a ≠ .timer ∧ Unmoved pit (pit.next a) := by
  cases a with
  | portIn addr now =>
    refine .inr ⟨fun h ↦ (by cases h), ?_⟩
    change Unmoved pit (Pit.pitIoportRead pit now addr).2
    rw [Pit.pitIoportRead]
    split
    · exact unmoved_setChannel pit 0 (nextTransitionTime_readChannel _ now)
    · exact unmoved_setChannel pit 1 (nextTransitionTime_readChannel _ now)
    · exact unmoved_setChannel pit 2 (nextTransitionTime_readChannel _ now)
    · exact ⟨rfl, rfl⟩
  | portOut addr val clock clock' =>
    refine Or.imp id (fun hunmoved ↦ ⟨fun h ↦ (by cases h), hunmoved⟩) ?_
    change Rearmed pit (Pit.pitIoportWrite pit clock clock' addr val) ∨
      Unmoved pit (Pit.pitIoportWrite pit clock clock' addr val)
    rw [Pit.pitIoportWrite]
    split
    · exact writeCount_cases h clock val 0
    · exact writeCount_cases h clock val 1
    · exact writeCount_cases h clock val 2
    · right
      split
      · exact unmoved_setChannel pit 0 (nextTransitionTime_command _ val _)
      · exact unmoved_setChannel pit 1 (nextTransitionTime_command _ val _)
      · exact unmoved_setChannel pit 2 (nextTransitionTime_command _ val _)
      · exact ⟨rfl, nextTransitionTime_readBack _ 0 val _ _⟩
  | timer =>
    exact .inl ((pitIrqTimerUpdate_cases h 0 _).resolve_right fun hno ↦ hno.1 rfl).2

/-- While the level is going to change, the timer will complete, or has. -/
structure PitReady (timers : Timers Unit) (pit : Pit.PITCommonState) : Prop where
  wired : Pit.Wired pit
  outstanding : deadline pit ≠ -1 → timers.Outstanding ()

theorem Rearmed.outstanding (h : Rearmed pit pit') (timers : Timers Unit)
    (hdeadline : deadline pit' ≠ -1) :
    (timers.obeyAll Pit.timerCommand (news pit.log pit'.log)).Outstanding () := by
  obtain ⟨level, hlog⟩ := h
  rw [hlog, news_append, if_pos hdeadline]
  exact .inl (@Timers.armed_obeyAll_arm _ _ _ Pit.timerCommand _ _ timers [.setIrqLevel level] rfl)

/-- An access of the guest. -/
theorem PitReady.access {timers : Timers Unit} (h : PitReady timers pit) (a : Pit.Label) :
    PitReady (timers.obeyAll Pit.timerCommand (news pit.log (pit.next a).log)) (pit.next a) := by
  refine ⟨h.wired.next a, fun hdeadline ↦ ?_⟩
  rcases pit_next_cases h.wired a with hmoved | ⟨-, hlog, hsame⟩
  · exact hmoved.outstanding timers hdeadline
  · rw [hlog, news, List.drop_length]
    exact h.outstanding (hsame ▸ hdeadline)

/-- A completion. -/
theorem pitReady_timer (h : Pit.Wired pit) (timers : Timers Unit) :
    PitReady (timers.obeyAll Pit.timerCommand (news pit.log (pit.next .timer).log))
      (pit.next .timer) :=
  ⟨h.next .timer, ((pit_next_cases h .timer).resolve_right fun hno ↦ hno.1 rfl).outstanding timers⟩

theorem pitReady_init (now : BitVec 64) (clock : Fin 3 → BitVec 64) :
    PitReady (Timers.idle.obeyAll Pit.timerCommand (Pit.pitPreInit now clock).log)
      (Pit.pitPreInit now clock) := by
  refine ⟨Pit.wired_pitPreInit now clock, fun _ ↦ .inl ?_⟩
  have hdisabled : ((Pit.pitPreInit now clock).channels 0).irqDisabled = false :=
    (Pit.wired_pitPreInit now clock 0).2
  rw [Pit.pitPreInit, Pit.pitReset] at hdisabled ⊢
  dsimp only at hdisabled ⊢
  split at hdisabled
  · rename_i hno
    exact absurd (hno.symm.trans hdisabled) (by decide)
  · rename_i hyes
    rw [if_neg hyes, Pit.log_emit]
    exact Timers.armed_obeyAll_arm _ _ rfl

end

/-! ## The handlers of the HPET -/

section

variable {s s' : Hpet.HPETState}

theorem hpetTimer_mono {fuel fuel' : ℕ} {i : Fin Hpet.hpetMaxTimers} {now : BitVec 64}
    (h : Hpet.hpetTimer fuel s i now = some s') (hle : fuel ≤ fuel') :
    Hpet.hpetTimer fuel' s i now = some s' := by
  rw [Hpet.hpetTimer] at h ⊢
  dsimp only at h ⊢
  split at h
  · rename_i hperiodic
    rw [if_pos hperiodic]
    obtain ⟨cmp, hcaught, hs⟩ := Option.map_eq_some_iff.1 h
    refine Option.map_eq_some_iff.2 ⟨cmp, ?_, hs⟩
    split at hcaught
    · rename_i h32
      rw [if_pos h32]
      exact FuelLoop.whileFuel_mono hcaught hle
    · rename_i h64
      rw [if_neg h64]
      exact FuelLoop.whileFuel_mono hcaught hle
  · rename_i honeshot
    rwa [if_neg honeshot]

/-- No timer is stuck. -/
def Loose (s : Hpet.HPETState) : Prop := ∀ i, ¬Hpet.Stuck (s.timer i)

theorem Loose.expire (h : Loose s) {fuel : ℕ} {i : Fin Hpet.hpetMaxTimers} {now : BitVec 64}
    (hs : Hpet.hpetTimer fuel s i now = some s') : Loose s' :=
  ((Hpet.Step.expire hs).keepsPeriod_iff h).1 trivial

theorem Loose.interrupt (h : Loose s) {completed : ℕ → Bool}
    {now : Fin Hpet.hpetMaxTimers → BitVec 64} {fuel : ℕ}
    (hs : Hpet.hpetTimerInterrupt s completed now fuel = some s') : Loose s' := by
  rw [Hpet.hpetTimerInterrupt] at hs
  generalize List.finRange Hpet.hpetMaxTimers = is at hs
  induction is generalizing s with
  | nil =>
    obtain rfl := Option.some.inj hs
    exact h
  | cons i is ih =>
    obtain ⟨u, hu, hrest⟩ := Option.bind_eq_some_iff.1 hs
    dsimp only at hu
    split at hu
    · exact ih (h.expire hu) hrest
    · obtain rfl := Option.some.inj hu
      exact ih h hrest

/-- **The handler returns** if no timer is stuck. -/
theorem Loose.exists_hpetTimerInterrupt (h : Loose s) (completed : ℕ → Bool)
    (now : Fin Hpet.hpetMaxTimers → BitVec 64) :
    ∃ fuel s', Hpet.hpetTimerInterrupt s completed now fuel = some s' := by
  have hloop : ∀ (is : List (Fin Hpet.hpetMaxTimers)) (s : Hpet.HPETState), Loose s →
      ∃ fuel, ∀ fuel' ≥ fuel, ∃ s', is.foldlM (fun s i ↦
        if completed (s.timer i).tid then Hpet.hpetTimer fuel' s i (now i) else some s) s =
          some s' := by
    intro is
    induction is with
    | nil => exact fun s _ ↦ ⟨0, fun _ _ ↦ ⟨s, rfl⟩⟩
    | cons i is ih =>
      intro s hs
      by_cases hdue : completed (s.timer i).tid = true
      · obtain ⟨fuel₁, hends⟩ := (Hpet.forall_hpetTimerEnds_iff s i).2 (hs i) (now i)
        obtain ⟨u, hu⟩ := Option.isSome_iff_exists.1 hends
        obtain ⟨fuel₂, hrest⟩ := ih u (hs.expire hu)
        refine ⟨max fuel₁ fuel₂, fun fuel' hle ↦ ?_⟩
        obtain ⟨s', hs'⟩ := hrest fuel' (by omega)
        refine ⟨s', ?_⟩
        rw [List.foldlM_cons, if_pos hdue, hpetTimer_mono hu (by omega)]
        exact hs'
      · obtain ⟨fuel, hrest⟩ := ih s hs
        refine ⟨fuel, fun fuel' hle ↦ ?_⟩
        obtain ⟨s', hs'⟩ := hrest fuel' hle
        refine ⟨s', ?_⟩
        rw [List.foldlM_cons, if_neg hdue]
        exact hs'
  obtain ⟨fuel, hall⟩ := hloop (List.finRange Hpet.hpetMaxTimers) s h
  exact ⟨fuel, hall fuel le_rfl⟩

end

/-! ## One call -/

section

variable {w n : ℕ} {φ : Type} {T : Rtc.FieldTypes} {y z : Vmm w n φ}
  {rtcNow characterNow : BitVec 64} {serialTimes : Serial.Times}
  {hpetNow : Fin Hpet.hpetMaxTimers → BitVec 64} {fuel : ℕ}

/-- What every call keeps, `handle_async_event` keeps. -/
theorem foldlM_call_induct {P : Vmm w n φ → Prop}
    (hcall : ∀ y k z, P y → call T rtcNow characterNow serialTimes hpetNow fuel y k = some z → P z)
    {ks : List (Call n φ)}
    (h : ks.foldlM (call T rtcNow characterNow serialTimes hpetNow fuel) y = some z) (hy : P y) :
    P z := by
  induction ks generalizing y with
  | nil =>
    obtain rfl := Option.some.inj h
    exact hy
  | cons k ks ih =>
    obtain ⟨u, hu, hrest⟩ := Option.bind_eq_some_iff.1 h
    exact ih hrest (hcall y k u hy hu)

/-- A call signals nothing. -/
theorem call_frame {k : Call n φ}
    (h : call T rtcNow characterNow serialTimes hpetNow fuel y k = some z) :
    z.word = y.word ∧ z.timerOwed = y.timerOwed ∧ z.serial.owed = y.serial.owed := by
  cases k with
  | hpetTimerInterrupt completed =>
    obtain ⟨s, -, rfl⟩ := Option.map_eq_some_iff.1 h
    exact ⟨rfl, rfl, rfl⟩
  | initTimerCompleted | vmInjectIrq | notify | pitTimerInterrupt | rtcTimerInterrupt
  | serialTimerInterrupt | serialCharacterInterrupt =>
    obtain rfl := Option.some.inj h
    exact ⟨rfl, rfl, rfl⟩

theorem pitReady_call {k : Call n φ} (hy : PitReady y.pitTimers y.pit)
    (h : call T rtcNow characterNow serialTimes hpetNow fuel y k = some z) :
    PitReady z.pitTimers z.pit := by
  cases k with
  | hpetTimerInterrupt completed =>
    obtain ⟨s, -, rfl⟩ := Option.map_eq_some_iff.1 h
    exact hy
  | pitTimerInterrupt =>
    obtain rfl := Option.some.inj h
    exact pitReady_timer hy.wired _
  | initTimerCompleted | vmInjectIrq | notify | rtcTimerInterrupt | serialTimerInterrupt
  | serialCharacterInterrupt =>
    obtain rfl := Option.some.inj h
    exact hy

theorem loose_call {k : Call n φ} (hy : Loose y.hpet)
    (h : call T rtcNow characterNow serialTimes hpetNow fuel y k = some z) : Loose z.hpet := by
  cases k with
  | hpetTimerInterrupt completed =>
    obtain ⟨s, hs, rfl⟩ := Option.map_eq_some_iff.1 h
    exact hy.interrupt hs
  | initTimerCompleted | vmInjectIrq | notify | pitTimerInterrupt | rtcTimerInterrupt
  | serialTimerInterrupt | serialCharacterInterrupt =>
    obtain rfl := Option.some.inj h
    exact hy

/-- The calls of the other handlers return, and leave the HPET alone. -/
theorem exists_foldlM_call (y : Vmm w n φ) {ks : List (Call n φ)}
    (h : ∀ k ∈ ks, ∀ completed, k ≠ .hpetTimerInterrupt completed) :
    ∃ z, ks.foldlM (call T rtcNow characterNow serialTimes hpetNow fuel) y = some z ∧
      z.hpet = y.hpet := by
  induction ks generalizing y with
  | nil => exact ⟨y, rfl, rfl⟩
  | cons k ks ih =>
    have hk : ∃ u, call T rtcNow characterNow serialTimes hpetNow fuel y k = some u ∧
        u.hpet = y.hpet := by
      cases k with
      | hpetTimerInterrupt completed => exact absurd rfl (h _ List.mem_cons_self completed)
      | initTimerCompleted | vmInjectIrq | notify | pitTimerInterrupt | rtcTimerInterrupt
      | serialTimerInterrupt | serialCharacterInterrupt => exact ⟨_, rfl, rfl⟩
    obtain ⟨u, hu, hhpet⟩ := hk
    obtain ⟨z, hz, hhpet'⟩ := ih u fun k' hk' ↦ h k' (List.mem_cons_of_mem _ hk')
    refine ⟨z, ?_, hhpet'.trans hhpet⟩
    rw [List.foldlM_cons, hu]
    exact hz

/-- Of the calls for completions, the one of the HPET is the last. -/
theorem timerCalls_eq (n : ℕ) (φ : Type) (useHpet : Bool) (completed : BitVec 32) :
    ∃ others : List (Call n φ), (∀ k ∈ others, ∀ completed, k ≠ .hpetTimerInterrupt completed) ∧
      timerCalls n φ useHpet completed = others ++
        if useHpet = true ∧
          completed &&& (bit timerHpet0 ||| bit timerHpet1 ||| bit timerHpet2) ≠ 0
        then [.hpetTimerInterrupt completed] else [] := by
  refine ⟨_, fun k hk completed hno ↦ ?_, (List.cons_append ..).symm⟩
  rw [hno] at hk
  simp at hk

/-- The completions can be handled if no timer of the HPET is stuck. -/
theorem exists_timerCalls (y : Vmm w n φ) {useHpet : Bool} (completed : BitVec 32)
    (hhpet : useHpet = true → Loose y.hpet) : ∃ fuel z,
      (timerCalls n φ useHpet completed).foldlM
        (call T rtcNow characterNow serialTimes hpetNow fuel) y = some z := by
  obtain ⟨others, hothers, hcalls⟩ := timerCalls_eq n φ useHpet completed
  rw [hcalls]
  split
  · rename_i hdue
    obtain ⟨fuel, s, hs⟩ := (hhpet hdue.1).exists_hpetTimerInterrupt (has completed) hpetNow
    obtain ⟨u, hu, hsame⟩ : ∃ u, others.foldlM
        (call T rtcNow characterNow serialTimes hpetNow fuel) y = some u ∧ u.hpet = y.hpet :=
      exists_foldlM_call y hothers
    obtain ⟨z, hz⟩ : ∃ z, call T rtcNow characterNow serialTimes hpetNow fuel u
        (.hpetTimerInterrupt completed) = some z := by
      rw [call, hsame, hs]
      exact ⟨_, rfl⟩
    refine ⟨fuel, z, ?_⟩
    rw [List.foldlM_append, hu, Option.bind_eq_bind, Option.bind_some, List.foldlM_cons, hz]
    rfl
  · obtain ⟨u, hu, -⟩ := exists_foldlM_call y hothers
    exact ⟨0, u, by rwa [List.append_nil]⟩

/-- So can whatever else there is. -/
theorem exists_foldlM_calls (y : Vmm w n φ) (P : Prop) [Decidable P] {useHpet : Bool}
    (completed : BitVec 32) (hhpet : useHpet = true → Loose y.hpet) {rest : List (Call n φ)}
    (hrest : ∀ k ∈ rest, ∀ completed, k ≠ .hpetTimerInterrupt completed) : ∃ fuel z,
      ((if P then timerCalls n φ useHpet completed else []) ++ rest).foldlM
        (call T rtcNow characterNow serialTimes hpetNow fuel) y = some z := by
  obtain ⟨fuel, u, hu⟩ : ∃ fuel u, (if P then timerCalls n φ useHpet completed else []).foldlM
      (call T rtcNow characterNow serialTimes hpetNow fuel) y = some u := by
    split
    · exact exists_timerCalls y completed hhpet
    · exact ⟨0, y, rfl⟩
  obtain ⟨z, hz, -⟩ : ∃ z, rest.foldlM
      (call T rtcNow characterNow serialTimes hpetNow fuel) u = some z ∧ z.hpet = u.hpet :=
    exists_foldlM_call u hrest
  refine ⟨fuel, z, ?_⟩
  rw [List.foldlM_append, hu]
  exact hz

end

/-! ## Going on -/

/-- What the VMM and its servers do without the guest, the time and other components. -/
def Internal {n : ℕ} : VmmEvent n → Prop
  | .signalTimer | .signalSerial | .asyncEvent _ _ _ _ _ => True
  | _ => False

section

variable {w : ℕ} {φ : Type} {T : Rtc.FieldTypes} {c : Notifications w φ}
  {bits : Source c.devices.length → ℕ} {y z : Vmm w c.devices.length φ}

/-- The signals to send and to take. -/
def effort (y : Vmm w c.devices.length φ) : ℕ :=
  (if y.timerOwed then 2 else 0) + (if y.serial.owed then 2 else 0) + if y.word = 0 then 0 else 1

/-- What there is to do, there is at most. -/
theorem effort_le (y : Vmm w c.devices.length φ) : y.effort ≤ 5 := by
  rw [effort]
  split <;> split <;> split <;> omega

/-- What `handle_async_event` keeps. -/
theorem asyncEvent_frame {rtcNow characterNow : BitVec 64} {serialTimes : Serial.Times}
    {hpetNow : Fin Hpet.hpetMaxTimers → BitVec 64} {fuel : ℕ}
    (h : y.next T c (.asyncEvent rtcNow characterNow serialTimes hpetNow fuel) = some z) :
    z.word = 0 ∧ z.timerOwed = y.timerOwed ∧ z.serial.owed = y.serial.owed := by
  obtain ⟨calls, -, hz⟩ := Option.bind_eq_some_iff.1 h
  refine foldlM_call_induct (P := fun u ↦ u.word = 0 ∧ u.timerOwed = y.timerOwed ∧
    u.serial.owed = y.serial.owed) (fun u k v hu hv ↦ ?_) hz ⟨rfl, rfl, rfl⟩
  obtain ⟨hword, htimer, hserial⟩ := call_frame hv
  exact ⟨hword.trans hu.1, htimer.trans hu.2.1, hserial.trans hu.2.2⟩

/-- **Each step takes some effort.** -/
theorem effort_step {e : VmmEvent c.devices.length} (he : Internal e) (h : Step T c y e z) :
    z.effort < y.effort := by
  obtain ⟨hen, hnext⟩ := h
  have hone : ∀ word : BitVec w, (if word = 0 then 0 else 1) ≤ 1 := by
    intro word
    split <;> decide
  cases e with
  | signalTimer =>
    obtain rfl := Option.some.inj hnext
    have howed : y.timerOwed = true := hen
    have hword := hone (y.word ||| c.badge .timer)
    simp only [effort, howed, if_true, Bool.false_eq_true, if_false]
    omega
  | signalSerial =>
    obtain rfl := Option.some.inj hnext
    have howed : y.serial.owed = true := hen
    have hnone : (y.serial.next .signal).owed = false := rfl
    have hword := hone (y.word ||| c.badge .serial)
    simp only [effort, howed, hnone, if_true, Bool.false_eq_true, if_false]
    omega
  | asyncEvent =>
    obtain ⟨hword, htimer, hserial⟩ := asyncEvent_frame hnext
    have hsome : y.word ≠ 0 := hen
    rw [effort, effort, hword, htimer, hserial, if_pos rfl, if_neg hsome]
    omega
  | _ => exact he.elim

/-- After the completions, `handle_async_event` has nothing to do with the HPET. -/
theorem handleAsyncEvent_append {badge : BitVec w} (hmark : badge &&& BitVec.twoPow w 27 ≠ 0)
    {devices : List (Call c.devices.length φ)}
    (hdevices : notifyDevices c.devices badge = some devices) (completed : BitVec 32) :
    ∃ rest : List (Call c.devices.length φ),
      (∀ k ∈ rest, ∀ completed, k ≠ .hpetTimerInterrupt completed) ∧
      handleAsyncEvent c badge completed = some ((if Finds badge c.timerBadge
        then timerCalls c.devices.length φ c.useHpet completed else []) ++ rest) := by
  refine ⟨(if Finds badge c.serialBadge then [.serialCharacterInterrupt] else []) ++
    (((List.finRange 16).filter fun irq ↦ Finds badge (irqBadge w irq)).map .vmInjectIrq ++
      devices), fun k hk completed hno ↦ ?_, ?_⟩
  · rw [hno, List.mem_append, List.mem_append] at hk
    rcases hk with hk | hk | hk
    · simp at hk
    · simp at hk
    · obtain ⟨i, func, hk⟩ := eq_notify_of_mem hdevices _ hk
      exact nomatch hk
  · rw [handleAsyncEvent, if_pos hmark, hdevices]
    simp only [Option.map_some, List.append_assoc]

/-- No timer of the HPET gets stuck by itself. -/
theorem loose_step {e : VmmEvent c.devices.length} (hy : Loose y.hpet) (he : Internal e)
    (h : Step T c y e z) : Loose z.hpet := by
  obtain ⟨-, hnext⟩ := h
  cases e with
  | signalTimer | signalSerial =>
    obtain rfl := Option.some.inj hnext
    exact hy
  | asyncEvent =>
    obtain ⟨calls, -, hz⟩ := Option.bind_eq_some_iff.1 hnext
    exact foldlM_call_induct (P := fun u ↦ Loose u.hpet) (fun _ _ _ hu ↦ loose_call hu) hz hy
  | _ => exact he.elim

/-- **The VMM can take the word** if no timer of the HPET is stuck. -/
theorem exists_asyncEvent (h : Wired c bits) (hhpet : c.useHpet = true → Loose y.hpet)
    (rtcNow characterNow : BitVec 64) (serialTimes : Serial.Times)
    (hpetNow : Fin Hpet.hpetMaxTimers → BitVec 64) :
    ∃ fuel z, y.next T c (.asyncEvent rtcNow characterNow serialTimes hpetNow fuel) = some z := by
  obtain ⟨devices, hdevices, -⟩ := notifyDevices_eq h.func y.word
  by_cases hmark : y.word &&& BitVec.twoPow w 27 ≠ 0
  · obtain ⟨rest, hrest, hcalls⟩ := handleAsyncEvent_append hmark hdevices y.initTimerCompleted
    obtain ⟨fuel, z, hz⟩ := exists_foldlM_calls { y with word := 0, called := y.called ++ _ }
      (Finds y.word c.timerBadge) y.initTimerCompleted hhpet hrest
    exact ⟨fuel, z, Option.bind_eq_some_iff.2 ⟨_, hcalls, hz⟩⟩
  · refine ⟨0, { y with word := 0, called := y.called ++ [] }, ?_⟩
    rw [next, handleAsyncEvent, if_neg hmark]
    rfl

/-! ## Unfinished work -/

/-- Where a device has not finished its work, a timer with the property `P` belongs to it. -/
structure Attended (P : TimerId → Prop) (y : Vmm w c.devices.length φ) : Prop where
  /-- The clock of the RTC goes on. -/
  clock : P (.rtc .second) ∨ P (.rtc .second2)
  /-- The level of the PIT is going to change. -/
  pit : deadline y.pit ≠ -1 → P .pit
  /-- There is a byte to send. -/
  transmit : Serial.thrEmpty y.serial.serial = false → P (.serial .transmit)
  /-- There are characters in the receive FIFO, and the guest has not been told so. -/
  receive : y.serial.serial.recvFifo.count ≠ 0 →
    y.serial.serial.timeoutIpending = true ∨ P (.serial .fifoTimeout)

theorem Attended.mono {P Q : TimerId → Prop} (h : Attended P y) (hPQ : ∀ t, P t → Q t) :
    Attended Q y where
  clock := h.clock.imp (hPQ _) (hPQ _)
  pit hne := hPQ _ (h.pit hne)
  transmit hthre := hPQ _ (h.transmit hthre)
  receive hne := (h.receive hne).imp id (hPQ _)

/-- No event leaves the PIT without its timer. -/
theorem pitReady_step {e : VmmEvent c.devices.length} (hy : PitReady y.pitTimers y.pit)
    (h : Step T c y e z) : PitReady z.pitTimers z.pit := by
  obtain ⟨-, hnext⟩ := h
  cases e with
  | pitIn addr now =>
    obtain rfl := Option.some.inj hnext
    exact hy.access (.portIn addr now)
  | pitOut addr val clock clock' =>
    obtain rfl := Option.some.inj hnext
    exact hy.access (.portOut addr val clock clock')
  | hpetRead offset now =>
    obtain ⟨r, -, rfl⟩ := Option.map_eq_some_iff.1 hnext
    exact hy
  | hpetWrite offset value now =>
    obtain ⟨s, -, rfl⟩ := Option.map_eq_some_iff.1 hnext
    exact hy
  | expire t =>
    obtain rfl := Option.some.inj hnext
    cases t with
    | pit => exact ⟨hy.wired, fun hne ↦ (hy.outstanding hne).expire ()⟩
    | rtc | serial | hpet => exact hy
  | asyncEvent =>
    obtain ⟨calls, -, hz⟩ := Option.bind_eq_some_iff.1 hnext
    exact foldlM_call_induct (P := fun u ↦ PitReady u.pitTimers u.pit)
      (fun _ _ _ hu ↦ pitReady_call hu) hz hy
  | rtcIn | rtcOut | serialIn | serialOut | signalTimer | enqueue | signalSerial | signal =>
    obtain rfl := Option.some.inj hnext
    exact hy

theorem watched_run {now : BitVec 64} {es : List Serial.Event} {m : Serial.Machine}
    (h : Run Serial.Machine.Step (.init now) es m) : Serial.Watched m.timers m.serial := by
  have hempty : (Serial.serialPreInit now).recvFifo.count = 0 := by
    rw [Serial.serialPreInit, (Serial.sane_serialReset _ now).serialUpdateMsl]
    rfl
  have hboth := h.invariant
    (I := fun m ↦ Serial.Sane m.serial ∧ Serial.Watched m.timers m.serial)
    ⟨Serial.sane_serialPreInit now, fun hno ↦ absurd hempty hno⟩ fun m e m' hm hstep ↦ by
      obtain ⟨-, rfl⟩ := hstep
      exact ⟨hm.1.next e, hm.2.next hm.1 e⟩
  exact hboth.2

theorem clock_run {date : Rtc.RtcTimeDate} {now : ℤ} {es : List Rtc.Event} {m : Rtc.Machine}
    (h : Run (Rtc.Machine.Step T) (.init T date now) es m) :
    m.timers.Outstanding .second ∨ m.timers.Outstanding .second2 := by
  have hchain := h.invariant
    (I := fun m ↦ m.rtc.irqCoalesced = 0 ∧ Rtc.Chain T date now m)
    ⟨rfl, Rtc.chain_init T date now⟩ fun m e m' hm hstep ↦ by
      obtain ⟨hen, rfl⟩ := hstep
      exact ⟨Rtc.Machine.irqCoalesced_next T hm.1 e, hm.2.next T hm.1 hen⟩
  have hone : ∀ {i j : Rtc.Timer}, Rtc.Alone m.timers i j → m.timers.Outstanding i := by
    intro i j halone
    cases hrecorded : m.timers.recorded i with
    | true => exact .inr hrecorded
    | false => exact .inl (halone.one.trans (by rw [hrecorded]; rfl))
  exact hchain.2.one.imp hone hone

/-- **All unfinished work is attended to**, in every run. -/
theorem run_attended (hw : 32 ≤ w) (h : Wired c bits) {pitNow : BitVec 64}
    {pitClock : Fin 3 → BitVec 64} {date : Rtc.RtcTimeDate} {rtcNow : ℤ} {serialNow : BitVec 64}
    {es : List (VmmEvent c.devices.length)}
    (hrun : Run (Step T c) (init T c pitNow pitClock date rtcNow serialNow) es y) :
    Attended (fun t ↦ y.armed t = true ∨ y.recorded t = true) y := by
  obtain ⟨⟨-, ⟨_, hrtc⟩, ⟨_, hserial⟩, -⟩, -⟩ := run_sound hw h hrun
  have hpit : PitReady y.pitTimers y.pit := hrun.invariant
    (I := fun y ↦ PitReady y.pitTimers y.pit) (pitReady_init pitNow pitClock)
    fun _ _ _ hy hstep ↦ pitReady_step hy hstep
  exact ⟨clock_run hrtc, hpit.outstanding, (Serial.run_driven hserial).2, watched_run hserial⟩

/-! ## At rest -/

/-- Nothing is left to do until the guest, another component or a deadline comes. -/
structure AtRest (y : Vmm w c.devices.length φ) : Prop where
  /-- The time server has nothing to signal. -/
  timerOwed : y.timerOwed = false
  /-- Nor has the serial server. -/
  serialOwed : y.serial.owed = false
  /-- No signal is there to be taken. -/
  word : y.word = 0
  /-- All completions have been handled. -/
  recorded : ∀ t, y.recorded t = false
  /-- So has the serial input. -/
  pending : y.serial.pending = false
  /-- Where there is work left, a timer is armed. -/
  attended : Attended (fun t ↦ y.armed t = true) y

/-- **The VMM comes to rest.**  From every state it can get into, it takes at most five steps by
itself; and when it can take none, it is at rest. -/
theorem run_settles (hw : 32 ≤ w) (h : Wired c bits) {pitNow : BitVec 64}
    {pitClock : Fin 3 → BitVec 64} {date : Rtc.RtcTimeDate} {rtcNow : ℤ} {serialNow : BitVec 64}
    {es fs : List (VmmEvent c.devices.length)}
    (hrun : Run (Step T c) (init T c pitNow pitClock date rtcNow serialNow) es y)
    (hhpet : c.useHpet = true → Loose y.hpet)
    (hgo : Run (Guarded (fun _ e ↦ Internal e) (Step T c)) y fs z) :
    fs.length ≤ 5 ∧ ((∀ e v, Internal e → ¬Step T c z e v) → AtRest z) := by
  have hlength := hgo.length_add_le fun _ _ _ hs ↦ effort_step hs.1 hs.2
  have hle := effort_le y
  refine ⟨by omega, fun hstop ↦ ?_⟩
  have hreached := hrun.append (hgo.mono fun _ _ _ hs ↦ hs.2)
  have hloose : c.useHpet = true → Loose z.hpet := fun huse ↦
    hgo.invariant (I := fun u ↦ Loose u.hpet) (hhpet huse) fun _ _ _ hu hs ↦
      loose_step hu hs.1 hs.2
  have htimer : z.timerOwed = false := by
    rw [← Bool.not_eq_true]
    exact fun howed ↦ hstop .signalTimer _ trivial ⟨howed, rfl⟩
  have hserial : z.serial.owed = false := by
    rw [← Bool.not_eq_true]
    exact fun howed ↦ hstop .signalSerial _ trivial ⟨howed, rfl⟩
  have hword : z.word = 0 := by
    by_contra hne
    obtain ⟨fuel, v, hv⟩ := exists_asyncEvent (T := T) h hloose 0 0 ⟨0, 0, 0⟩ fun _ ↦ 0
    exact hstop (.asyncEvent 0 0 ⟨0, 0, 0⟩ (fun _ ↦ 0) fuel) v trivial ⟨hne, hv⟩
  obtain ⟨hruns, hsound⟩ := run_sound hw h hreached
  obtain ⟨hrecorded, hpending⟩ := (hsound.composed (h.marked hw) hruns).settled htimer hword
  refine ⟨htimer, hserial, hword, hrecorded, hpending, (run_attended hw h hreached).mono ?_⟩
  exact fun t ht ↦ ht.resolve_right fun hno ↦ nomatch (hrecorded t).symm.trans hno

end

/-! ## A second and a character -/

/-- A second has passed and a character has come; both have been signalled. -/
def signalled : Option (Vmm 64 1 Unit) :=
  starting.play Rtc.intFields oneConnection secondAndCharacter.dropLast

theorem isSome_signalled : signalled.isSome = true := by decide +kernel

/-- The VMM takes both signals. -/
def settled : Option (Vmm 64 1 Unit) :=
  (signalled.get isSome_signalled).next Rtc.intFields oneConnection
    (.asyncEvent 0 0 ⟨0, 0, 0⟩ (fun _ ↦ 0) 0)

theorem isSome_settled : settled.isSome = true := by decide +kernel

theorem settled_run :
    Run (Guarded (fun _ e ↦ Internal e) (Step Rtc.intFields oneConnection))
      (signalled.get isSome_signalled) [.asyncEvent 0 0 ⟨0, 0, 0⟩ (fun _ ↦ 0) 0]
      (settled.get isSome_settled) :=
  .single ⟨trivial, (by decide +kernel : (signalled.get isSome_signalled).word ≠ 0),
    (Option.some_get isSome_settled).symm⟩

/-- Then it has nothing more to do, and waits for the next second. -/
theorem run_settles_secondAndCharacter :
    AtRest (c := oneConnection) (settled.get isSome_settled) := by
  have hloose : ∀ i, ¬Hpet.Stuck ((signalled.get isSome_signalled).hpet.timer i) := by
    decide +kernel
  have htimer : (settled.get isSome_settled).timerOwed = false := by decide +kernel
  have hserial : (settled.get isSome_settled).serial.owed = false := by decide +kernel
  have hword : (settled.get isSome_settled).word = 0 := by decide +kernel
  refine (run_settles (by decide) wired_oneConnection
    (run_foldlM (Option.some_get isSome_signalled).symm) (fun _ ↦ hloose) settled_run).2 ?_
  rintro e v he ⟨hen, -⟩
  cases e with
  | signalTimer => exact nomatch htimer.symm.trans hen
  | signalSerial => exact nomatch hserial.symm.trans hen
  | asyncEvent => exact hen hword
  | _ => exact he.elim

end Vmm
end Platform
end CamkesVm
