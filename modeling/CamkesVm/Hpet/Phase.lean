import CamkesVm.Hpet.Expiry
import Mathlib.Data.Int.ModEq

/-!
# Periodic timers keep their phase

However late the expiry of a periodic timer is handled, the comparator moves by whole periods: to
the first multiple of the period from where it was that the main counter has not passed, in the
signed order of the timer's mode (`hpetTimer_keepsPhase`).  The next one-shot is started for exactly
the distance to it.

The distances are those of `ticksAhead`, on integers, so that both modes are one statement; the code
computes them as words (`ticksAhead_eq_toInt`).

## What is here

* `timerBits`, `ticksAhead` — the signed distance from the main counter to a comparator, in both
  modes.
* `CaughtUp` — what the loop is to achieve: `k` periods were added, the comparator is not behind,
  and one period less would have been.
* `caughtUp_of_catchUp` — it does, by the general facts on walks with a step of less than half the
  circle.
* `ArmedFor`, `armedFor_armToComparator` — the one-shot that is started afterwards, in nanoseconds.
* `hpetTimer_keepsPhase` — termination and phase in one statement, for every tick at which the
  expiry may be handled.
-/

set_option autoImplicit false

namespace CamkesVm
namespace Hpet

open FuelLoop Orbit

/-! ## Distances -/

/-- The width of the counter the timer compares with. -/
def timerBits (t : HPETTimer) : ℕ := if timerIs32bit t then 32 else 64

/-- How many ticks a comparator is ahead of the main counter, in the signed order of the timer's
mode. -/
def ticksAhead (t : HPETTimer) (curTick : BitVec 64) (cmp : ℕ) : ℤ :=
  Int.bmod (cmp - curTick.toNat) (2 ^ timerBits t)

/-- **The distance is the signed value of the word** that stands for it. -/
theorem ticksAhead_eq_toInt {t : HPETTimer} {w : ℕ} (hw : timerBits t = w) {curTick : BitVec 64}
    {cmp : ℕ} {x : BitVec w} (h : (x.toNat : ℤ) ≡ cmp - curTick.toNat [ZMOD 2 ^ w]) :
    ticksAhead t curTick cmp = x.toInt := by
  have hmod : ((cmp : ℤ) - curTick.toNat) % ((2 ^ w : ℕ) : ℤ) =
      (x.toNat : ℤ) % ((2 ^ w : ℕ) : ℤ) := by
    rw [Nat.cast_pow, Nat.cast_ofNat]
    exact h.symm
  rw [ticksAhead, hw, BitVec.toInt_eq_toNat_bmod, Int.bmod, Int.bmod, hmod]

/-- The difference of two words, cut off. -/
theorem modEq_toNat_setWidth_sub {w : ℕ} (hw : w ≤ 64) (x y : BitVec 64) :
    (((x - y).setWidth w).toNat : ℤ) ≡ x.toNat - y.toNat [ZMOD 2 ^ w] := by
  have hdvd : (2 : ℤ) ^ w ∣ 2 ^ 64 := pow_dvd_pow 2 hw
  have hsub : ((x - y).toNat : ℤ) ≡ x.toNat - y.toNat [ZMOD 2 ^ 64] := by
    rw [Int.ModEq, BitVec.toNat_sub]
    omega
  rw [BitVec.toNat_setWidth, Int.natCast_mod, Nat.cast_pow, Nat.cast_ofNat]
  exact (Int.mod_modEq _ _).trans (hsub.of_dvd hdvd)

/-- The distance is positive or zero if the test of the catch-up loop fails. -/
theorem toInt_nonneg_iff {w : ℕ} (x : BitVec w) : 0 ≤ x.toInt ↔ x.msb = false := by
  rw [BitVec.msb_eq_toInt, decide_eq_false_iff_not, not_lt]

/-- `hpet_calculate_diff` is the distance to the comparator, but at least 1. -/
theorem toNat_hpetCalculateDiff {t : HPETTimer} {curTick : BitVec 64}
    (h : 0 ≤ ticksAhead t curTick t.cmp.toNat) :
    ((hpetCalculateDiff t curTick).toNat : ℤ) = max 1 (ticksAhead t curTick t.cmp.toNat) := by
  -- a word that is not negative has its signed value as its value
  have hword : ∀ {w : ℕ} (x : BitVec w), 0 < w → w ≤ 64 → 0 ≤ x.toInt →
      (((if 0 < x.toInt then x else 1).setWidth 64).toNat : ℤ) = max 1 x.toInt := by
    intro w x hpos hle hx
    have htoInt : x.toInt = x.toNat :=
      BitVec.toInt_eq_toNat_of_msb ((toInt_nonneg_iff x).mp hx)
    have hone : (1 : BitVec w).toNat = 1 := by
      rw [BitVec.ofNat_eq_ofNat, BitVec.toNat_ofNat]
      exact Nat.mod_eq_of_lt (Nat.one_lt_two_pow hpos.ne')
    rw [BitVec.toNat_setWidth_of_le hle]
    split
    · omega
    · rw [hone]
      omega
  cases h32 : timerIs32bit t with
  | true =>
    have hw : timerBits t = 32 := if_pos h32
    have hsub : t.cmp.setWidth 32 - curTick.setWidth 32 = (t.cmp - curTick).setWidth 32 := by
      rw [BitVec.toNat_eq]
      simp only [BitVec.toNat_sub, BitVec.toNat_setWidth]
      omega
    have hle : 32 ≤ 64 := by decide
    have hahead := ticksAhead_eq_toInt hw (modEq_toNat_setWidth_sub hle t.cmp curTick)
    rw [hahead] at h ⊢
    simp only [hpetCalculateDiff, h32, if_true, hsub]
    exact hword _ (by decide) (by decide) h
  | false =>
    have hw : timerBits t = 64 := if_neg (by rw [h32]; exact Bool.false_ne_true)
    have hahead := ticksAhead_eq_toInt hw (modEq_toNat_setWidth_sub le_rfl t.cmp curTick)
    rw [BitVec.setWidth_eq] at hahead
    rw [hahead] at h ⊢
    simp only [hpetCalculateDiff, h32, Bool.false_eq_true, if_false]
    have hdiff := hword (t.cmp - curTick) (by decide) le_rfl h
    rwa [BitVec.setWidth_eq] at hdiff

/-! ## The catch-up loops -/

/-- **Caught up** after `k` periods: the comparator has moved by them, to the first place the main
counter has not passed. -/
structure CaughtUp (t : HPETTimer) (curTick : BitVec 64) (cmp : BitVec 64) (k : ℕ) : Prop where
  /-- The comparator has moved by `k` periods. -/
  moved : cmp.toNat ≡ t.cmp.toNat + k * t.period.toNat [MOD 2 ^ timerBits t]
  /-- It is not before the counter. -/
  notBefore : 0 ≤ ticksAhead t curTick (t.cmp.toNat + k * t.period.toNat)
  /-- With fewer periods it would be. -/
  least : ∀ j < k, ticksAhead t curTick (t.cmp.toNat + j * t.period.toNat) < 0
  /-- If it has moved, then to less than a period after the counter. -/
  near : 0 < k → ticksAhead t curTick (t.cmp.toNat + k * t.period.toNat) < t.period.toNat

/-- The distance depends on the comparator modulo the width of the counter. -/
theorem ticksAhead_congr {t : HPETTimer} {curTick : BitVec 64} {m n : ℕ}
    (h : m ≡ n [MOD 2 ^ timerBits t]) : ticksAhead t curTick m = ticksAhead t curTick n := by
  have hint : (m : ℤ) - curTick.toNat ≡ n - curTick.toNat [ZMOD ((2 ^ timerBits t : ℕ) : ℤ)] :=
    ((Int.natCast_modEq_iff).mpr h).sub_right _
  have hmod : ((m : ℤ) - curTick.toNat) % ((2 ^ timerBits t : ℕ) : ℤ) =
      ((n : ℤ) - curTick.toNat) % ((2 ^ timerBits t : ℕ) : ℤ) := hint
  rw [ticksAhead, ticksAhead, Int.bmod, Int.bmod, hmod]

/-- **A loop that walks the distance** to the first place that is not negative catches up. -/
theorem caughtUp_of_walk {t : HPETTimer} {curTick cmp : BitVec 64} {w : ℕ} (hw : timerBits t = w)
    {g : BitVec 64 → BitVec w} (hg : ∀ x, ((g x).toNat : ℤ) ≡ x.toNat - curTick.toNat [ZMOD 2 ^ w])
    {p : BitVec w} (hp : p.toNat = t.period.toNat) (hpos : p.msb = false) {k : ℕ}
    (hcmp : g cmp = walk p (g t.cmp) k) (hend : (walk p (g t.cmp) k).msb = false)
    (hbefore : ∀ j < k, (walk p (g t.cmp) j).msb = true) : CaughtUp t curTick cmp k := by
  have hwalk : ∀ j, ((walk p (g t.cmp) j).toNat : ℤ) ≡
      (t.cmp.toNat + j * t.period.toNat : ℕ) - curTick.toNat [ZMOD 2 ^ w] := by
    intro j
    have hmod : ((walk p (g t.cmp) j).toNat : ℤ) ≡
        ((g t.cmp).toNat + j * p.toNat : ℕ) [ZMOD 2 ^ w] := by
      rw [toNat_walk, Int.natCast_mod, Nat.cast_pow, Nat.cast_ofNat]
      exact Int.mod_modEq _ _
    have hstart := (hg t.cmp).add_right ((j * t.period.toNat : ℕ) : ℤ)
    refine hmod.trans ?_
    rw [hp]
    push_cast at hstart ⊢
    rw [show (t.cmp.toNat : ℤ) + j * t.period.toNat - curTick.toNat =
      t.cmp.toNat - curTick.toNat + j * t.period.toNat by ring]
    exact hstart
  have hahead : ∀ j, ticksAhead t curTick (t.cmp.toNat + j * t.period.toNat) =
      (walk p (g t.cmp) j).toInt := fun j ↦ ticksAhead_eq_toInt hw (hwalk j)
  refine ⟨?_, ?_, fun j hj ↦ ?_, fun hk ↦ ?_⟩
  · have hsame : (cmp.toNat : ℤ) - curTick.toNat ≡
        (t.cmp.toNat + k * t.period.toNat : ℕ) - curTick.toNat [ZMOD 2 ^ w] :=
      (hg cmp).symm.trans (hcmp ▸ hwalk k)
    have hcancel := hsame.add_right (curTick.toNat : ℤ)
    rw [sub_add_cancel, sub_add_cancel] at hcancel
    rw [hw]
    exact Int.natCast_modEq_iff.mp (by rw [Nat.cast_pow, Nat.cast_ofNat]; exact hcancel)
  · rw [hahead]
    exact (toInt_nonneg_iff _).mpr hend
  · rw [hahead]
    refine not_le.mp fun hle ↦ ?_
    exact Bool.false_ne_true (((toInt_nonneg_iff _).mp hle).symm.trans (hbefore j hj))
  · have hlt := toNat_walk_lt hpos hk hbefore hend
    rw [hahead, BitVec.toInt_eq_toNat_of_msb hend, ← hp]
    exact_mod_cast hlt

/-! ## The expiry of a periodic timer -/

/-- The period is positive in the signed order of the timer's mode. -/
def PeriodInRange (t : HPETTimer) : Prop :=
  0 < t.period.toNat ∧ t.period.toNat < 2 ^ (timerBits t - 1)

theorem PeriodInRange.ne_zero {t : HPETTimer} (h : PeriodInRange t) : t.period ≠ 0 := by
  intro hzero
  have hpos := h.1
  rw [hzero] at hpos
  exact lt_irrefl 0 hpos

/-- A period of 31 bits has no upper half. -/
theorem PeriodInRange.not_stuck {t : HPETTimer} (h : PeriodInRange t) : ¬Stuck t := by
  rintro ⟨-, h32, hhi, -⟩
  have hw : timerBits t = 32 := if_pos h32
  have hlt : t.period.toNat < 2 ^ 31 := by simpa only [hw] using h.2
  refine hhi (BitVec.eq_of_toNat_eq ?_)
  rw [hiHalf, BitVec.toNat_setWidth, BitVec.toNat_ushiftRight, Nat.shiftRight_eq_div_pow,
    Nat.div_eq_of_lt (by omega)]
  rfl

/-- **The catch-up loop of the timer's mode** catches up. -/
theorem caughtUp_of_catchUp {t : HPETTimer} (h : PeriodInRange t) {curTick cmp : BitVec 64}
    {fuel : ℕ} (hloop : (if timerIs32bit t then catchUp32 fuel curTick t.period t.cmp
      else catchUp64 fuel curTick t.period t.cmp) = some cmp) : ∃ k, CaughtUp t curTick cmp k := by
  cases h32 : timerIs32bit t with
  | true =>
    have hw : timerBits t = 32 := if_pos h32
    have hle : 32 ≤ 64 := by decide
    have hlt : t.period.toNat < 2 ^ 31 := by simpa only [hw] using h.2
    have hp : (t.period.setWidth 32).toNat = t.period.toNat := by
      rw [BitVec.toNat_setWidth]
      omega
    have hpos : (t.period.setWidth 32).msb = false := by
      rw [BitVec.msb_eq_decide, decide_eq_false_iff_not, hp]
      omega
    rw [h32, if_pos rfl] at hloop
    obtain ⟨k, rfl, hend, hbefore⟩ := exists_walk_of_whileFuel
      (g := fun x : BitVec 64 ↦ (x - curTick).setWidth 32) (distance32_step curTick t.period) hloop
    exact ⟨k, caughtUp_of_walk hw (fun x ↦ modEq_toNat_setWidth_sub hle x curTick) hp hpos
      (iterate_eq_walk (g := fun x : BitVec 64 ↦ (x - curTick).setWidth 32)
        (distance32_step curTick t.period) t.cmp k) hend hbefore⟩
  | false =>
    have hw : timerBits t = 64 := if_neg (by rw [h32]; exact Bool.false_ne_true)
    have hlt : t.period.toNat < 2 ^ 63 := by simpa only [hw] using h.2
    have hpos : t.period.msb = false := by
      rw [BitVec.msb_eq_decide, decide_eq_false_iff_not]
      omega
    have hg : ∀ x : BitVec 64,
        ((x - curTick).toNat : ℤ) ≡ x.toNat - curTick.toNat [ZMOD 2 ^ 64] := by
      intro x
      have hmod := modEq_toNat_setWidth_sub le_rfl x curTick
      rwa [BitVec.setWidth_eq] at hmod
    rw [h32, if_neg Bool.false_ne_true] at hloop
    obtain ⟨k, rfl, hend, hbefore⟩ := exists_walk_of_whileFuel
      (g := fun x : BitVec 64 ↦ x - curTick) (distance64_step curTick t.period) hloop
    exact ⟨k, caughtUp_of_walk hw hg rfl hpos
      (iterate_eq_walk (g := fun x : BitVec 64 ↦ x - curTick)
        (distance64_step curTick t.period) t.cmp k) hend hbefore⟩

/-- `update_irq` only sets lines. -/
theorem updateIrq_log (s : HPETState) (i : Fin hpetMaxTimers) (set : Bool) :
    ∃ es, (updateIrq s i set).log = s.log ++ es ∧
      ∀ e ∈ es, ∃ route level, e = .setIrqLevel route level := by
  have hnone : ∃ es, s.log = s.log ++ es ∧ ∀ e ∈ es, ∃ route level, e = .setIrqLevel route level :=
    ⟨[], (List.append_nil _).symm, by simp⟩
  rw [updateIrq]
  dsimp only
  split
  · split
    · exact hnone
    · exact ⟨[_], rfl, by simp⟩
  · split
    · exact hnone
    · split
      · exact ⟨[_], rfl, by simp⟩
      · exact ⟨[_, _], List.append_assoc .., by simp⟩

/-- Distances below 2^60 ticks can be converted. -/
theorem toNat_ticksToNs {x : BitVec 64} (h : x.toNat ≤ 2 ^ 60) :
    (ticksToNs x).toNat = x.toNat * hpetClkPeriod := by
  rw [ticksToNs, BitVec.toNat_mul, BitVec.toNat_ofNat, hpetClkPeriod]
  omega

/-- The one-shot of a timer is started for a number of ticks, and after that only lines are set. -/
def ArmedFor (s s' : HPETState) (i : Fin hpetMaxTimers) (ticks : ℤ) : Prop :=
  ∃ ns es, s'.log = s.log ++ .oneshot (s.timer i).tid ns :: es ∧
    (ns.toNat : ℤ) = ticks * hpetClkPeriod ∧ ∀ e ∈ es, ∃ route level, e = .setIrqLevel route level

/-- **The one-shot after an expiry** is started for the distance to the comparator. -/
theorem armedFor_armToComparator {s : HPETState} {i : Fin hpetMaxTimers} {curTick cmp : BitVec 64}
    (hahead : 0 ≤ ticksAhead (s.timer i) curTick cmp.toNat)
    (hnear : ticksAhead (s.timer i) curTick cmp.toNat < 2 ^ 60) :
    ArmedFor s (updateIrq (armToComparator (s.setTimer i { s.timer i with cmp := cmp }) i curTick)
      i true) i (max 1 (ticksAhead (s.timer i) curTick cmp.toNat)) := by
  have hdiff : ((hpetCalculateDiff { s.timer i with cmp := cmp } curTick).toNat : ℤ) =
      max 1 (ticksAhead (s.timer i) curTick cmp.toNat) := toNat_hpetCalculateDiff hahead
  obtain ⟨es, hlog, hes⟩ := updateIrq_log
    (armToComparator (s.setTimer i { s.timer i with cmp := cmp }) i curTick) i true
  refine ⟨ticksToNs (hpetCalculateDiff { s.timer i with cmp := cmp } curTick), es, ?_, ?_, hes⟩
  · rw [hlog, armToComparator, setTimer_timer, Function.update_self]
    exact List.append_assoc ..
  · rw [toNat_ticksToNs (by omega), Nat.cast_mul, hdiff]

/-- **Periodic timers keep their phase.**  The expiry of a periodic timer whose period is positive
in its mode is handled in finitely many steps.  The comparator moves by the least number of periods
after which the main counter has not passed it, and if it moves, then to less than a period after
the counter.  As long as the distance is below 2^60 ticks, the next one-shot is started for exactly
that distance, but at least a tick. -/
theorem hpetTimer_keepsPhase {s : HPETState} {i : Fin hpetMaxTimers}
    (hperiodic : timerIsPeriodic (s.timer i) = true) (hperiod : PeriodInRange (s.timer i))
    (now : BitVec 64) :
    HpetTimerEnds s i now ∧ ∀ fuel s', hpetTimer fuel s i now = some s' →
      (∃ k, CaughtUp (s.timer i) (hpetGetTicks s now) (s'.timer i).cmp k) ∧
      (ticksAhead (s.timer i) (hpetGetTicks s now) (s'.timer i).cmp.toNat < 2 ^ 60 →
        ArmedFor s s' i
          (max 1 (ticksAhead (s.timer i) (hpetGetTicks s now) (s'.timer i).cmp.toNat))) := by
  constructor
  · rw [hpetTimerEnds_iff]
    exact fun hstuck ↦ hperiod.not_stuck hstuck.1
  · intro fuel s' h
    have hcond : (timerIsPeriodic (s.timer i) && (s.timer i).period != 0) = true := by
      rw [hperiodic, Bool.true_and, bne_iff_ne]
      exact hperiod.ne_zero
    simp only [hpetTimer] at h
    rw [if_pos hcond] at h
    obtain ⟨cmp, hloop, rfl⟩ := Option.map_eq_some_iff.mp h
    obtain ⟨k, hcaught⟩ := caughtUp_of_catchUp hperiod hloop
    rw [updateIrq_timer, armToComparator_timer, setTimer_timer, Function.update_self]
    have hahead : 0 ≤ ticksAhead (s.timer i) (hpetGetTicks s now) cmp.toNat := by
      rw [ticksAhead_congr hcaught.moved]
      exact hcaught.notBefore
    exact ⟨⟨k, hcaught⟩, armedFor_armToComparator hahead⟩

/-- A periodic timer of 100 ticks in 64-bit mode, whose comparator is at tick 200. -/
def hundredTicks : HPETState :=
  (hpetPreInit 0).setTimer 0
    { tn := 0, config := 0xc, cmp := 200, fsb := 0, period := 100, wrapFlag := false, tid := 0 }

/-- The theorem for that timer at tick 451: its comparator moves to tick 500. -/
theorem hpetTimer_keepsPhase_late :
    HpetTimerEnds hundredTicks 0 4510 ∧ ∀ fuel s', hpetTimer fuel hundredTicks 0 4510 = some s' →
      (∃ k, CaughtUp (hundredTicks.timer 0) (hpetGetTicks hundredTicks 4510) (s'.timer 0).cmp k) ∧
      (ticksAhead (hundredTicks.timer 0) (hpetGetTicks hundredTicks 4510) (s'.timer 0).cmp.toNat <
          2 ^ 60 →
        ArmedFor hundredTicks s' 0 (max 1 (ticksAhead (hundredTicks.timer 0)
          (hpetGetTicks hundredTicks 4510) (s'.timer 0).cmp.toNat))) :=
  hpetTimer_keepsPhase (by decide) ⟨by decide, by decide⟩ 4510

example : (hpetTimer 4 hundredTicks 0 4510).map (fun s ↦ (s.timer 0).cmp) = some 500 := by decide

end Hpet
end CamkesVm
