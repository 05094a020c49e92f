import CamkesVm.Lib.Log
import CamkesVm.Lib.Transition
import CamkesVm.Pit.State

/-!
# The PIT: what it does over a run

The guest reads and writes the four ports, and `TIMER_PIT` completes.  Only the first channel has an
interrupt timer, and nothing ever suppresses it (`Wired`), so an event sets the interrupt line
exactly if it loads a count into that channel or is a completion of its timer; it sets it to the
output of the channel at that moment.

## What is here

* `Label`, `Step` — the events and the step relation. Every event can happen at any time; in
  particular the completion of `TIMER_PIT` may come whenever it likes, and late or early ones are
  all covered. A machine with the time server in it is `CamkesVm.Pit.Machine`.
* `irqLevel` — the level of the line, from the log.
* `Wired` — the invariant, with a lemma for each function of the device that `Wired.next` puts
  together, and `run_wired` for runs from `pit_pre_init` on.

The clock is read inside an event and the values are part of the label, so nothing is assumed of how
long an event takes, or even that the clock goes forward.
-/

set_option autoImplicit false

namespace CamkesVm
namespace Pit

open Transition EffectLog

/-! ## Runs -/

/-- What can happen to the PIT. -/
inductive Label
  /-- The guest reads a byte from a port. -/
  | portIn (addr : ℕ) (now : BitVec 64)
  /-- The guest writes a byte to a port. -/
  | portOut (addr : ℕ) (val : BitVec 8) (clock clock' : Fin 3 → BitVec 64)
  /-- A completion of `TIMER_PIT` is handled. -/
  | timer

/-- One event. -/
def PITCommonState.next (pit : PITCommonState) : Label → PITCommonState
  | .portIn addr now => (pitIoportRead pit now addr).2
  | .portOut addr val clock clock' => pitIoportWrite pit clock clock' addr val
  | .timer => pitTimerInterrupt pit

/-- The step relation of the PIT. -/
abbrev Step : PITCommonState → Label → PITCommonState → Prop :=
  Does (fun _ _ ↦ True) PITCommonState.next

/-- The level an effect sets the line to, if it does. -/
def Effect.level : Effect → Option ℕ
  | .setIrqLevel level => some level
  | _ => none

/-- The level the PIT last set its line to. -/
def irqLevel (pit : PITCommonState) : ℕ := latest Effect.level 0 pit.log

/-! ## How the channels are wired -/

/-- A channel has an interrupt timer if it is the first, and its interrupt is not suppressed. -/
def ChannelWired (i : Fin 3) (s : PITChannelState) : Prop :=
  s.irqTimer = decide (i = 0) ∧ s.irqDisabled = false

/-- So do all channels. -/
def Wired (pit : PITCommonState) : Prop := ∀ i, ChannelWired i (pit.channels i)

section

variable {pit : PITCommonState}

theorem Wired.setChannel (h : Wired pit) {i : Fin 3} {s : PITChannelState}
    (hs : ChannelWired i s) : Wired (pit.setChannel i s) := by
  intro j
  by_cases hj : j = i
  · rw [hj, channels_setChannel_self]
    exact hs
  · rw [channels_setChannel_of_ne pit i s hj]
    exact h j

theorem Wired.emit (h : Wired pit) (e : Effect) : Wired (pit.emit e) := h

/-- The interrupt timer of the first channel. -/
theorem Wired.irqTimer (h : Wired pit) :
    (pit.channels 0).irqTimer = true ∧ (pit.channels 0).irqDisabled = false := h 0

theorem Wired.pitIrqTimerUpdate (h : Wired pit) (i : Fin 3) (time : BitVec 64) :
    Wired (pitIrqTimerUpdate pit i time) := by
  rw [Pit.pitIrqTimerUpdate]
  dsimp only
  split
  · exact h
  · refine ((h.emit _).setChannel ?_).emit _
    exact h i

theorem Wired.pitLoadCount (h : Wired pit) (i : Fin 3) (val : ℕ) (now : BitVec 64) :
    Wired (pitLoadCount pit i val now) := by
  refine Wired.pitIrqTimerUpdate (h.setChannel ?_) i now
  exact h i

theorem ChannelWired.pitLatchCount {i : Fin 3} {s : PITChannelState} (h : ChannelWired i s)
    (now : BitVec 64) : ChannelWired i (pitLatchCount s now) := by
  rw [Pit.pitLatchCount]
  split <;> exact h

theorem ChannelWired.command {i : Fin 3} {s : PITChannelState} (h : ChannelWired i s)
    (val : BitVec 8) (now : BitVec 64) : ChannelWired i (command s val now) := by
  simp only [Pit.command]
  split
  · exact h.pitLatchCount now
  · exact h

theorem ChannelWired.readBack {i : Fin 3} {s : PITChannelState} (h : ChannelWired i s)
    (val : BitVec 8) (now now' : BitVec 64) : ChannelWired i (readBack s i val now now') := by
  have hlatch : ChannelWired i (if val &&& 0x20 = 0 then Pit.pitLatchCount s now else s) := by
    split
    · exact h.pitLatchCount now
    · exact h
  rw [Pit.readBack]
  generalize (if val &&& 0x20 = 0 then Pit.pitLatchCount s now else s) = s' at hlatch ⊢
  split
  · dsimp only
    split <;> exact hlatch
  · exact h

theorem ChannelWired.readChannel {i : Fin 3} {s : PITChannelState} (h : ChannelWired i s)
    (now : BitVec 64) : ChannelWired i (readChannel s now).2 := by
  rw [Pit.readChannel]
  repeat' split
  all_goals exact h

theorem Wired.writeCount (h : Wired pit) (clock : Fin 3 → BitVec 64) (val : BitVec 8)
    (i : Fin 3) : Wired (pitIoportWrite.writeCount pit clock val i) := by
  rw [pitIoportWrite.writeCount]
  dsimp only
  split
  · exact h.pitLoadCount i _ _
  · split
    · exact h.setChannel (h i)
    · split
      · have hload := h.pitLoadCount i ((pit.channels i).writeLatch.toNat + val.toNat * 256)
          (clock i)
        exact hload.setChannel (hload i)
      · exact h.pitLoadCount i _ _

/-- **Every event leaves the wiring as it is.** -/
theorem Wired.next (h : Wired pit) (a : Label) : Wired (pit.next a) := by
  cases a with
  | portIn addr now =>
    change Wired (pitIoportRead pit now addr).2
    rw [pitIoportRead]
    split
    · exact h.setChannel ((h 0).readChannel now)
    · exact h.setChannel ((h 1).readChannel now)
    · exact h.setChannel ((h 2).readChannel now)
    · exact h
  | portOut addr val clock clock' =>
    change Wired (pitIoportWrite pit clock clock' addr val)
    rw [pitIoportWrite]
    split
    · exact h.writeCount clock val 0
    · exact h.writeCount clock val 1
    · exact h.writeCount clock val 2
    · split
      · exact h.setChannel ((h 0).command val _)
      · exact h.setChannel ((h 1).command val _)
      · exact h.setChannel ((h 2).command val _)
      · exact fun i ↦ (h i).readBack val _ _
  | timer => exact h.pitIrqTimerUpdate 0 _

end

theorem wired_pitPreInit (now : BitVec 64) (clock : Fin 3 → BitVec 64) :
    Wired (pitPreInit now clock) := by
  have hzero : Wired (({ channels := fun _ ↦ zeroChannel, log := [] } : PITCommonState).setChannel 0
      { zeroChannel with irqTimer := true }) := by
    intro i
    by_cases hi : i = 0
    · rw [hi, channels_setChannel_self]
      exact ⟨rfl, rfl⟩
    · rw [channels_setChannel_of_ne _ _ _ hi]
      exact ⟨(decide_eq_false hi).symm, rfl⟩
  have hcontrol : ∀ {pit : PITCommonState}, Wired pit → Wired (pitIrqControl pit true now) := by
    intro pit h
    refine Wired.pitIrqTimerUpdate (h.setChannel ?_) 0 now
    exact ⟨h.irqTimer.1, rfl⟩
  have hreset : ∀ {pit : PITCommonState}, Wired pit → Wired (pitResetCommon pit clock) := by
    intro pit h i
    rw [pitResetCommon]
    dsimp only
    split <;> exact h i
  have hcommon := hreset (hcontrol hzero)
  rw [pitPreInit, pitReset]
  dsimp only
  split
  · exact hcommon
  · exact hcommon.emit _

/-- **The PIT is wired in every run.** -/
theorem run_wired {now : BitVec 64} {clock : Fin 3 → BitVec 64} {as : List Label}
    {pit : PITCommonState} (h : Run Step (pitPreInit now clock) as pit) : Wired pit :=
  h.invariant (wired_pitPreInit now clock) fun _ a _ hw hs ↦ hs.2 ▸ hw.next a

end Pit
end CamkesVm
