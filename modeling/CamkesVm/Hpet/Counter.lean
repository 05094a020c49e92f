import CamkesVm.Hpet.Mmio

/-!
# The main counter while it runs

A running main counter is not stored.  It is the clock plus `hpet_offset`, in nanoseconds, and the
offset is set once, when the guest enables the HPET, from the counter that was halted.  The counter
then ought to go on from there, whatever happens to the timers meanwhile.

That it *would* go on is a matter of wrapping arithmetic, in which a negative offset is as good as
any other.  The source treats one as an underflow and uses 0 instead, which makes the counter start
from the clock; `counterResumes_iff` says exactly which readings are right nevertheless.

## What is here

* `expectedCounter`, `CounterReads` — what should be read, in the words of the guest: both halves of
  the register, at a time.
* `Step.hpetOffset` and its induction — the offset does not change while the HPET stays enabled,
  whatever else the guest does.
* `nsToTicks_startOffset_iff` — the arithmetic, on 64-bit words: no overflow is excluded.
* `counterResumes_iff` — for every run between enabling and the read.
* `not_counterResumes_of_clock_ahead` — the failing case at the values of a first boot.
-/

set_option autoImplicit false

namespace CamkesVm
namespace Hpet

open Transition

/-! ## What is asked of the counter -/

/-- The counter `t - t0` nanoseconds after it went on from `c`, in ticks of 10 ns. -/
def expectedCounter (c t0 t : BitVec 64) : BitVec 64 :=
  BitVec.ofNat 64 ((hpetClkPeriod * c.toNat + (t.toNat - t0.toNat)) / hpetClkPeriod)

/-- Both halves of the counter read as `v` at time `t`. -/
def CounterReads (s : HPETState) (t v : BitVec 64) : Prop :=
  vmHpetMmioRead s t 0x0f0 = some v ∧ vmHpetMmioRead s t 0x0f4 = some (v >>> 32)

/-- A step that leaves the HPET enabled. -/
def StepEnabled (s : HPETState) (a : Label) (s' : HPETState) : Prop :=
  Step s a s' ∧ hpetEnabled s' = true

/-! ## The offset is set once -/

theorem activatingBit_of_enabled {s : HPETState} (h : hpetEnabled s = true) (newVal : BitVec 64) :
    activatingBit s.config newVal hpetCfgEnable = false := by
  rw [activatingBit, show anyBit s.config hpetCfgEnable = true from h]
  rfl

/-- Writing a general register of an enabled HPET does not touch the offset. -/
theorem writeGeneralReg_hpetOffset {s : HPETState} (h : hpetEnabled s = true)
    (now newVal : BitVec 64) (index : ℕ) :
    (writeGeneralReg s now (readGeneralReg s now index) newVal index).hpetOffset
      = s.hpetOffset := by
  rw [writeGeneralReg.eq_def]
  split
  · rw [writeCfg_frame HPETState.hpetOffset (by simp) (by simp) (by simp [hpetDelTimer])]
    simp only [readGeneralReg, activatingBit_of_enabled h]
    split
    · contradiction
    · split <;> rfl
  · exact writeStatus_frame HPETState.hpetOffset (by simp) s newVal
  all_goals rfl

/-- **One step of an enabled HPET does not touch the offset.** -/
theorem Step.hpetOffset {s s' : HPETState} {a : Label} (h : Step s a s')
    (hen : hpetEnabled s = true) : s'.hpetOffset = s.hpetOffset := by
  cases h with
  | read => rfl
  | write _ hw =>
    rcases vmHpetMmioWrite_cases hw with ⟨h', -⟩ | ⟨i, -, -, h'⟩ | ⟨-, h'⟩
    · rw [h']
    · rw [h', (writeTimerReg_frame ..).2.2.1]
    · rw [h', writeGeneralReg_hpetOffset hen]
  | expire he =>
    obtain ⟨_, _, -, -, ho, -⟩ := hpetTimer_frame he
    exact ho

/-- As long as the HPET stays enabled it keeps its offset. -/
theorem run_hpetOffset {s s' : HPETState} {as : List Label} (h : Run StepEnabled s as s')
    (hen : hpetEnabled s = true) :
    hpetEnabled s' = true ∧ s'.hpetOffset = s.hpetOffset := by
  refine h.invariant (I := fun u ↦ hpetEnabled u = true ∧ u.hpetOffset = s.hpetOffset)
    ⟨hen, rfl⟩ ?_
  rintro u a v ⟨hu, ho⟩ ⟨hstep, hv⟩
  exact ⟨hv, (hstep.hpetOffset hu).trans ho⟩

/-! ## Enabling -/

theorem hpetEnabled_writeCfg (s : HPETState) (now oldVal : BitVec 64) {newVal : BitVec 64}
    (h : newVal.getLsbD 0 = true) : hpetEnabled (writeCfg s now oldVal newVal) = true := by
  have hconfig : (writeCfg s now oldVal newVal).config =
      (s.config &&& highHalf) ||| hpetFixupReg newVal oldVal hpetCfgWriteMask := by
    rw [writeCfg_frame HPETState.config (by simp) (by simp) (by simp)]
    dsimp only
    split
    · rfl
    · split <;> rfl
  rw [hpetEnabled, hconfig, anyBit_fixup (by decide) (by decide), anyBit_cfgEnable, h]

/-- Enabling a halted HPET sets the offset from the halted counter. -/
theorem hpetOffset_writeCfg {s : HPETState} {newVal : BitVec 64} (now : BitVec 64)
    (hs : hpetEnabled s = false) (h : newVal.getLsbD 0 = true) :
    (writeCfg s now s.config newVal).hpetOffset = startOffset s now := by
  have hact : activatingBit s.config newVal hpetCfgEnable = true := by
    rw [activatingBit, show anyBit s.config hpetCfgEnable = false from hs, anyBit_cfgEnable, h]
    rfl
  rw [writeCfg_frame HPETState.hpetOffset (by simp) (by simp) (by simp [hpetDelTimer])]
  simp only [hact, if_true]
  rfl

/-! ## What is read -/

theorem counterReads_iff {s : HPETState} (t v : BitVec 64) :
    CounterReads s t v ↔ readCounter s t = v := by
  constructor
  · rintro ⟨h, -⟩
    exact Option.some_inj.mp h
  · rintro rfl
    exact ⟨rfl, rfl⟩

theorem toNat_nsToTicks (x : BitVec 64) : (nsToTicks x).toNat = x.toNat / 10 := by
  simp [nsToTicks, hpetClkPeriod]

/-- Where the clock is not past the halted counter, the offset is their true distance. -/
theorem toNat_startOffset_of_le {s : HPETState} {t0 : BitVec 64}
    (hc : 10 * s.hpetCounter.toNat < 2 ^ 64) (h : t0.toNat ≤ 10 * s.hpetCounter.toNat) :
    (startOffset s t0).toNat = 10 * s.hpetCounter.toNat - t0.toNat := by
  have hticks : (ticksToNs s.hpetCounter).toNat = 10 * s.hpetCounter.toNat := by
    simp only [ticksToNs, hpetClkPeriod, BitVec.toNat_mul, BitVec.toNat_ofNat]
    omega
  have hle : t0 ≤ ticksToNs s.hpetCounter := by rw [BitVec.le_def, hticks]; exact h
  rw [startOffset]
  simp only [BitVec.not_lt.mpr hle, if_false]
  rw [BitVec.toNat_sub_of_le hle, hticks]

/-- Where the clock is past the halted counter, the offset is 0. -/
theorem toNat_startOffset_of_lt {s : HPETState} {t0 : BitVec 64}
    (h : 10 * s.hpetCounter.toNat < t0.toNat) : (startOffset s t0).toNat = 0 := by
  have hticks : (ticksToNs s.hpetCounter).toNat = 10 * s.hpetCounter.toNat := by
    have := t0.isLt
    simp only [ticksToNs, hpetClkPeriod, BitVec.toNat_mul, BitVec.toNat_ofNat]
    omega
  have hlt : ticksToNs s.hpetCounter < t0 := by rw [BitVec.lt_def, hticks]; exact h
  rw [startOffset]
  simp only [hlt, if_true]
  rfl

/-- The readings at which a counter started at `t0` from `c` is right at time `t`. -/
def ResumesRight (c t0 t : BitVec 64) : Prop :=
  (t0.toNat ≤ 10 * c.toNat ∧ 10 * c.toNat + (t.toNat - t0.toNat) < 2 ^ 64) ∨
    (10 * c.toNat < t0.toNat ∧ t0.toNat - 10 * c.toNat ≤ t.toNat % 10)

/-- **Arithmetic of the clamped offset**: the reconstructed counter is the expected one exactly at
the readings of `ResumesRight`. -/
theorem nsToTicks_startOffset_iff {s : HPETState} {t0 t : BitVec 64}
    (hc : 10 * s.hpetCounter.toNat < 2 ^ 64) (ht : t0.toNat ≤ t.toNat) :
    nsToTicks (t + startOffset s t0) = expectedCounter s.hpetCounter t0 t ↔
      ResumesRight s.hpetCounter t0 t := by
  have htl := t.isLt
  have hexp : (expectedCounter s.hpetCounter t0 t).toNat =
      (10 * s.hpetCounter.toNat + (t.toNat - t0.toNat)) / 10 := by
    simp only [expectedCounter, hpetClkPeriod, BitVec.toNat_ofNat]
    omega
  rw [BitVec.toNat_eq, toNat_nsToTicks, hexp, BitVec.toNat_add, ResumesRight]
  rcases Nat.lt_or_ge (10 * s.hpetCounter.toNat) t0.toNat with hlt | hle
  · rw [toNat_startOffset_of_lt hlt]
    omega
  · rw [toNat_startOffset_of_le hc hle]
    omega

/-- **When the counter goes on from where it was.**  The HPET is enabled at `t0` while its halted
counter holds `c`, and stays enabled.  Then a read at a later time `t` gives `c` and the ticks since
`t0` if and only if the clock was not past the counter at `t0`, and nothing has overflowed since; or
it was past it by no more than what the read rounds off. -/
theorem counterResumes_iff {s s₀ s' : HPETState} {value t0 t : BitVec 64} {as : List Label}
    (hhalt : hpetEnabled s = false) (hen : value.getLsbD 0 = true)
    (hc : 10 * s.hpetCounter.toNat < 2 ^ 64)
    (hstart : vmHpetMmioWrite s t0 0x010 value = some s₀) (hrun : Run StepEnabled s₀ as s')
    (ht : t0.toNat ≤ t.toNat) :
    CounterReads s' t (expectedCounter s.hpetCounter t0 t) ↔ ResumesRight s.hpetCounter t0 t := by
  obtain rfl : writeCfg s t0 s.config value = s₀ := Option.some_inj.mp hstart
  obtain ⟨hen', ho⟩ := run_hpetOffset hrun (hpetEnabled_writeCfg s t0 s.config hen)
  rw [hpetOffset_writeCfg t0 hhalt hen] at ho
  rw [counterReads_iff, readCounter, if_pos hen', hpetGetTicks, ho]
  exact nsToTicks_startOffset_iff hc ht

/-- The theorem where the guest first sets the counter to 1000 ticks, and enables it at 4000 ns:
at 4025 ns it reads 1002. -/
theorem counterResumes_iff_ahead :
    let s := { hpetPreInit 9 with hpetCounter := 1000 }
    CounterReads (writeCfg s 4000 s.config 1) 4025 (expectedCounter 1000 4000 4025) ↔
      ResumesRight 1000 4000 4025 :=
  counterResumes_iff (s := { hpetPreInit 9 with hpetCounter := 1000 }) rfl
    (show (1 : BitVec 64).getLsbD 0 = true by decide) (by decide) rfl .nil (by decide)

/-- **A counter enabled after the clock has passed it jumps to the clock**: of an HPET
that is enabled for the first time 1000 ns after the machine has started, the counter at once reads
100 and not 0. -/
theorem not_counterResumes_of_clock_ahead :
    ¬ ∀ s, Reachable s → ∀ value, hpetEnabled s = false → value.getLsbD 0 = true →
      10 * s.hpetCounter.toNat < 2 ^ 64 → ∀ t0 s₀, vmHpetMmioWrite s t0 0x010 value = some s₀ →
      ∀ as s', Run StepEnabled s₀ as s' → ∀ t, t0.toNat ≤ t.toNat →
      CounterReads s' t (expectedCounter s.hpetCounter t0 t) := by
  intro h
  have hread := h (hpetPreInit 9) ⟨9, [], .nil⟩ 1 rfl (by decide) (by decide) 1000
    (writeCfg (hpetPreInit 9) 1000 (hpetPreInit 9).config 1) rfl [] _ .nil 1000 le_rfl
  rw [counterReads_iff, readCounter, if_pos (hpetEnabled_writeCfg _ _ _ (by decide)),
    hpetGetTicks, hpetOffset_writeCfg (s := hpetPreInit 9) 1000 rfl (by decide)] at hread
  exact absurd hread (by decide)

end Hpet
end CamkesVm
