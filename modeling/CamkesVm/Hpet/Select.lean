import CamkesVm.Hpet.Mmio

/-!
# Which timer a guest access selects

The address range `0x100 .. 0x3ff` has room for 24 comparator blocks, and the device has three.  An
access to one of the others ought to be ignored; the guard for this is `timer_id > num_timers`,
which lets one number too many through.  `accessSafe_iff` says what that costs: the guard does its
work for every offset but the 32 of the block just behind the last timer.

## What is here

* `AccessSafe` — what is asked of an access of either direction: it uses a timer that exists, and if
  its offset is in the block of one that does not, it reads 0 or does nothing.
* `accessSafe_iff` — in every reachable state, with the exact set of offsets.
* `not_accessSafe_behind_last` — the first of them, right after the initialisation.

The number of timers never changes (`run_consistent`), so the guard lets the same number through
throughout. An access through it makes the model return `none`, because what the source does then is
decided by the memory behind the array.
-/

set_option autoImplicit false

namespace CamkesVm
namespace Hpet

/-- A guest access, its offset aside. -/
inductive Access
  /-- A read. -/
  | read
  /-- A write of a value. -/
  | write (value : BitVec 64)

/-- The access reads 0, or does nothing at all to the device and its interrupt lines. -/
def Ignored (s : HPETState) (now : BitVec 64) (offset : ℕ) : Access → Prop
  | .read => vmHpetMmioRead s now offset = some 0
  | .write value => vmHpetMmioWrite s now offset value = some s

/-- The timer whose register block `offset` lies in does not exist. -/
def NoSuchTimer (s : HPETState) (offset : ℕ) : Prop :=
  inTimerRange offset = true ∧ s.numTimers ≤ (offset - 0x100) / 0x20

/-- **Guest accesses select only existing timers**, and one to the block of a timer that does not
exist is ignored. -/
def AccessSafe (s : HPETState) (now : BitVec 64) (offset : ℕ) (acc : Access) : Prop :=
  (inTimerRange offset = true → ∀ k ∈ selectTimer s offset, k < s.numTimers ∧ k < hpetMaxTimers) ∧
    (NoSuchTimer s offset → Ignored s now offset acc)

/-- The 8-bit arithmetic on the full address finds the number of the block. -/
theorem timerId_eq {offset : ℕ} (h : inTimerRange offset = true) :
    timerId offset = (offset - 0x100) / 0x20 := by
  simp only [inTimerRange, Bool.and_eq_true, decide_eq_true_eq] at h
  rw [timerId, hpetBase]
  omega

/-- An access the guard rejects is ignored. -/
theorem ignored_of_selectTimer_eq_none {s : HPETState} {now : BitVec 64} {offset : ℕ}
    (hr : inTimerRange offset = true) (h : selectTimer s offset = none) (acc : Access) :
    Ignored s now offset acc := by
  have hread : vmHpetMmioRead s now offset = some 0 := by simp [vmHpetMmioRead, hr, h]
  cases acc with
  | read => exact hread
  | write value => simp [Ignored, vmHpetMmioWrite, hread, hr, h]

/-- **The guard fails for exactly one block.**  In every reachable state an access of either
direction is safe if and only if its offset is not one of the 32 behind the last timer's. -/
theorem accessSafe_iff {s : HPETState} (hs : Reachable s) {offset : ℕ} (_ho : offset < hpetLen)
    (now : BitVec 64) (acc : Access) :
    AccessSafe s now offset acc ↔ ¬(0x160 ≤ offset ∧ offset < 0x180) := by
  have hn : s.numTimers = 3 := hs.numTimers
  constructor
  · rintro ⟨hsel, -⟩ ⟨hlo, hhi⟩
    have hr : inTimerRange offset = true := by
      simp only [inTimerRange, Bool.and_eq_true, decide_eq_true_eq]; omega
    have hid : timerId offset = 3 := by rw [timerId_eq hr]; omega
    have h3 := (hsel hr 3 (by simp [selectTimer, hid, hn])).1
    omega
  · intro hout
    constructor
    · intro hr k hk
      have hid := timerId_eq hr
      rw [selectTimer] at hk
      split at hk
      · simp at hk
      · rename_i hle
        have hk' : timerId offset = k := by simpa using hk
        have hlt : k < 3 := by
          rw [← hk', hid] at *
          omega
        exact ⟨by rw [hn]; exact hlt, hlt⟩
    · rintro ⟨hr, hno⟩
      refine ignored_of_selectTimer_eq_none hr ?_ acc
      have hid := timerId_eq hr
      simp only [inTimerRange, Bool.and_eq_true, decide_eq_true_eq] at hr
      rw [selectTimer, if_pos (by omega)]

/-- The theorem at the last register of the block past the last timer's neighbour. -/
theorem accessSafe_iff_preInit :
    AccessSafe (hpetPreInit 9) 0 0x180 .read ↔ ¬(0x160 ≤ 0x180 ∧ 0x180 < 0x180) :=
  accessSafe_iff ⟨9, [], .nil⟩ (by decide) 0 .read

/-- **A read at offset `0x160` selects timer 3 of three**, which does not exist, right after
initialisation. -/
theorem not_accessSafe_behind_last :
    ¬ ∀ s, Reachable s → ∀ offset < hpetLen, ∀ now acc, AccessSafe s now offset acc := by
  intro h
  have h3 := (h (hpetPreInit 9) ⟨9, [], .nil⟩ 0x160 (by decide) 0 .read).1 rfl 3
    (by simp [selectTimer, hpetPreInit_numTimers, timerId, hpetBase])
  exact absurd h3.2 (by decide)

end Hpet
end CamkesVm
