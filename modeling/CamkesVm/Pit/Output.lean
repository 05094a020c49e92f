import CamkesVm.Pit.Runs

/-!
# When the PIT sets its line

An event sets the line at most once: a completion of the timer sets it to the output at the time the
timer was armed for, and the last byte of a count for the first channel sets it to the output at the
moment of loading, which depends on the mode alone (`pitGetOut_loaded`).  Other events do not set it
(`sets_next`).

It is shown by splitting an event into the calls of `pit_irq_timer_update` in it. There is at most
one such call for the first channel, and none of the others has an interrupt timer: that is the
invariant `Wired`, and the only thing that has to be known of the state. The calls for the other
channels work out a time and throw it away.

The level depends on the event and the channel as it was before, so `sets` can be evaluated without
running the device. Where the HPET takes the line away from the PIT, it is this table that says when
the PIT speaks.
-/

set_option autoImplicit false

namespace CamkesVm
namespace Pit

open EffectLog

/-- The output of a channel in mode `mode` at the moment its count is loaded. -/
def loadedOut (mode : ℕ) : ℕ := if mode = 1 ∨ mode = 3 then 1 else 0

/-- The level an event sets the line to, if it does. -/
def sets (pit : PITCommonState) : Label → Option ℕ
  | .portIn _ _ => none
  | .portOut addr _ _ _ =>
    -- the first of two bytes is only kept
    if addr % 4 = 0 ∧ (pit.channels 0).writeState ≠ rwStateWord0
    then some (loadedOut (pit.channels 0).mode) else none
  | .timer => some (pitGetOut (pit.channels 0) (pit.channels 0).nextTransitionTime)

theorem pitGetOut_loaded {s : PITChannelState} (hcount : 0 < s.count) :
    pitGetOut s s.countLoadTime = loadedOut s.mode := by
  have hticks : ticks s s.countLoadTime = 0 := by
    rw [ticks, BitVec.sub_self]
    rfl
  have hhalf : 0 < (s.count + 1) / 2 := by omega
  simp only [pitGetOut, hticks, loadedOut, Nat.zero_mod]
  split <;> rename_i hmode
  · simp [hmode, hcount]
  · simp [hmode]
  · simp [hmode, hhalf]
  · simp [hmode, hcount.ne]
  · simp [hmode, hcount.ne]
  · rename_i h1 _ h3 _
    have hother : ¬(s.mode = 1 ∨ s.mode = 3) := not_or.mpr ⟨h1, h3⟩
    rw [if_neg hcount.not_ge, if_neg hother]

section

variable {pit : PITCommonState}

/-- Only the first channel drives the line. -/
theorem sets_pitIrqTimerUpdate (h : Wired pit) (i : Fin 3) (time : BitVec 64) :
    Sets Effect.level pit.log (pitIrqTimerUpdate pit i time).log fun level ↦
      i = 0 ∧ pitGetOut (pit.channels i) time = level := by
  obtain ⟨htimer, hdisabled⟩ := h i
  by_cases hi : i = 0
  · have hon : ¬((!(pit.channels i).irqTimer || (pit.channels i).irqDisabled) = true) := by
      rw [htimer, hdisabled, decide_eq_true hi]
      exact Bool.false_ne_true
    simp only [pitIrqTimerUpdate, if_neg hon, log_emit, log_setChannel]
    refine (Sets.congr (.concat _ _) fun level ↦ ?_).concat_of_none ?_
    · simp [Effect.level, hi]
    · split <;> rfl
  · have hoff : (!(pit.channels i).irqTimer || (pit.channels i).irqDisabled) = true := by
      rw [htimer, decide_eq_false hi]
      rfl
    rw [pitIrqTimerUpdate, if_pos hoff]
    exact (Sets.refl _).congr fun level ↦ iff_of_false id fun h ↦ hi h.1

/-- Loading a count. -/
theorem sets_pitLoadCount (h : Wired pit) (i : Fin 3) (val : ℕ) (now : BitVec 64) :
    Sets Effect.level pit.log (pitLoadCount pit i val now).log fun level ↦
      i = 0 ∧ loadedOut (pit.channels i).mode = level := by
  rw [pitLoadCount]
  generalize hs : ({ pit.channels i with
    countLoadTime := now, count := if val = 0 then 0x10000 else val } : PITChannelState) = s
  have hcount : 0 < s.count := by
    rw [← hs]
    change 0 < if val = 0 then 0x10000 else val
    split <;> omega
  have hout : pitGetOut s now = loadedOut (pit.channels i).mode := by
    rw [← hs] at hcount ⊢
    exact pitGetOut_loaded hcount
  have hwired : Wired (pit.setChannel i s) := h.setChannel (hs ▸ h i)
  refine (sets_pitIrqTimerUpdate hwired i now).congr fun level ↦ ?_
  rw [channels_setChannel_self, hout]

theorem sets_writeCount (h : Wired pit) (clock : Fin 3 → BitVec 64) (val : BitVec 8) (i : Fin 3) :
    Sets Effect.level pit.log (pitIoportWrite.writeCount pit clock val i).log fun level ↦
      (pit.channels i).writeState ≠ rwStateWord0 ∧ i = 0 ∧
        loadedOut (pit.channels i).mode = level := by
  have hload : ∀ val', (pit.channels i).writeState ≠ rwStateWord0 → Sets Effect.level pit.log
      (pitLoadCount pit i val' (clock i)).log fun level ↦
        (pit.channels i).writeState ≠ rwStateWord0 ∧ i = 0 ∧
          loadedOut (pit.channels i).mode = level := fun val' hstate ↦
    (sets_pitLoadCount h i val' (clock i)).congr fun level ↦ (and_iff_right hstate).symm
  rw [pitIoportWrite.writeCount]
  split
  next hmsb => exact hload _ (by rw [hmsb]; decide)
  next =>
    split
    next hfirst => exact (Sets.refl _).congr fun level ↦ iff_of_false id fun hset ↦ hset.1 hfirst
    next hsecond =>
      split
      · exact hload _ hsecond
      · exact hload _ hsecond

/-- **What an event sets the line to.** -/
theorem sets_next (h : Wired pit) (a : Label) :
    Sets Effect.level pit.log (pit.next a).log fun level ↦ sets pit a = some level := by
  cases a with
  | portIn addr now =>
    have hlog : (pitIoportRead pit now addr).2.log = pit.log := by
      rw [pitIoportRead]
      split <;> rfl
    change Sets _ _ (pitIoportRead pit now addr).2.log _
    rw [hlog]
    exact (Sets.refl _).congr fun level ↦ iff_of_false id (Option.some_ne_none level).symm
  | portOut addr val clock clock' =>
    have hnone : ∀ l : List Effect, l = pit.log → addr % 4 ≠ 0 → Sets Effect.level pit.log l
        fun level ↦ sets pit (.portOut addr val clock clock') = some level := by
      rintro l rfl haddr
      refine (Sets.refl _).congr fun level ↦ iff_of_false id ?_
      rw [sets, if_neg fun h ↦ haddr h.1]
      exact (Option.some_ne_none level).symm
    have hcount : ∀ i : Fin 3, addr % 4 = i → Sets Effect.level pit.log
        (pitIoportWrite.writeCount pit clock val i).log
        fun level ↦ sets pit (.portOut addr val clock clock') = some level := by
      intro i hi
      refine (sets_writeCount h clock val i).congr fun level ↦ ?_
      rw [sets, hi]
      by_cases h0 : i = 0
      · subst h0
        by_cases hfirst : (pit.channels 0).writeState = rwStateWord0 <;> simp [hfirst]
      · simp [h0]
    change Sets _ _ (pitIoportWrite pit clock clock' addr val).log _
    rw [pitIoportWrite]
    split <;> rename_i haddr
    · exact hcount 0 haddr
    · exact hcount 1 haddr
    · exact hcount 2 haddr
    · split
      all_goals exact hnone _ rfl (by omega)
  | timer =>
    exact (sets_pitIrqTimerUpdate h 0 _).congr fun level ↦ by simp [sets]

end

end Pit
end CamkesVm
