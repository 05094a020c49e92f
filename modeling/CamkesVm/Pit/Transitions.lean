import CamkesVm.Lib.Resample
import CamkesVm.Pit.Ticks

/-!
# The PIT: the next change of an output

`pit_get_out` and `pit_get_next_transition_time` see of the time only the ticks since the count was
loaded.  In ticks they are `outAt` and `changeAt`, and in every mode but 2 the output does not
change before the tick that `changeAt` says, and never if it says none (`out_of_changeAt`).

The tick is converted to nanoseconds, rounding down, and a time back to ticks, rounding down again.
A time before the converted tick is still before the tick (`slow_lt_of_lt_fast`), so nothing is
skipped; that the converted tick itself may fall just short is what the fix-up for deadlines that do
not advance is for.

## What is here

* `outAt`, `changeAt` — the two functions in ticks, with `pitGetOut_eq` and `nextTransition_eq` to
  get there from the model.
* `out_of_changeAt` — the one case analysis by modes.
* `output_constant_until_deadline` — in nanoseconds, for every time that an `int64_t` can hold.

Mode 2 is the exception, because there the deadline is set one tick past the transition on purpose:
see `CamkesVm.Pit.Periodic`.
-/

set_option autoImplicit false

namespace CamkesVm
namespace Pit

open Resample

/-! ## In ticks -/

/-- The output after `d` ticks. -/
def outAt (mode count d : ℕ) : ℕ :=
  match mode with
  | 1 => if d < count then 1 else 0
  | 2 => if d % count = 0 ∧ d ≠ 0 then 1 else 0
  | 3 => if d % count < (count + 1) / 2 then 1 else 0
  | 4 | 5 => if d = count then 1 else 0
  | _ => if count ≤ d then 1 else 0

/-- The tick of the next transition after `d` ticks, in the modes other than 2. -/
def changeAt (mode count d : ℕ) : Option ℕ :=
  match mode with
  | 3 =>
    let base := roundDown d count
    let period2 := (count + 1) / 2
    some (if d - base < period2 then base + period2 else base + count)
  | 4 | 5 => if d < count then some count else if d = count then some (count + 1) else none
  | _ => if d < count then some count else none

section

variable {mode count d : ℕ}

/-- The ticks of one period. -/
theorem mod_of_period {e : ℕ} (hlo : roundDown d count ≤ e) (hhi : e < roundDown d count + count) :
    e % count = e - roundDown d count := by
  have hbase : roundDown d count = count * (d / count) := by
    have hdiv := Nat.div_add_mod d count
    rw [roundDown]
    omega
  obtain ⟨r, rfl⟩ := Nat.exists_eq_add_of_le hlo
  rw [hbase, Nat.mul_add_mod, Nat.add_sub_cancel_left]
  exact Nat.mod_eq_of_lt (by omega)

/-- The square wave: high in the first half of a period, low in the second. -/
theorem out_of_changeAt_square (hcount : 1 ≤ count) {e : ℕ}
    (hle : d ≤ e) (hlt : ∀ next, changeAt 3 count d = some next → e < next) :
    outAt 3 count e = outAt 3 count d := by
  have hd := Nat.mod_lt d hcount
  have hdiv := Nat.div_add_mod d count
  have hsub : d - roundDown d count = d % count := by
    rw [roundDown]
    omega
  have hbase : roundDown d count ≤ d := Nat.sub_le _ _
  have hlt' := hlt _ rfl
  rw [hsub] at hlt'
  have he : e % count = e - roundDown d count := by
    refine mod_of_period (by omega) ?_
    split at hlt' <;> omega
  simp only [outAt, he]
  split at hlt'
  · rw [if_pos (by omega), if_pos (by omega)]
  · rw [if_neg (by omega), if_neg (by omega)]

/-- **The output does not change before its next transition**, and never if there is none. -/
theorem out_of_changeAt (hmode : mode ≠ 2) (hcount : 1 ≤ count) {e : ℕ} (hle : d ≤ e)
    (hlt : ∀ next, changeAt mode count d = some next → e < next) :
    outAt mode count e = outAt mode count d := by
  match mode with
  | 0 | 1 | _ + 6 =>
    simp only [changeAt] at hlt
    simp only [outAt]
    by_cases hd : d < count
    · have he := hlt count (if_pos hd)
      simp only [hd, he, Nat.not_le.mpr]
    · have he : ¬e < count := by omega
      simp only [hd, he, Nat.not_lt.mp hd, Nat.not_lt.mp he]
  | 2 => exact absurd rfl hmode
  | 3 => exact out_of_changeAt_square hcount hle hlt
  | 4 | 5 =>
    simp only [changeAt] at hlt
    simp only [outAt]
    by_cases hd : d < count
    · have he := hlt count (if_pos hd)
      rw [if_neg (by omega), if_neg (by omega)]
    · by_cases hd' : d = count
      · have he := hlt (count + 1) (by rw [if_neg hd, if_pos hd'])
        rw [if_pos (by omega), if_pos hd']
      · rw [if_neg (by omega), if_neg hd']

/-- The next transition is ahead, and not further than a count. -/
theorem changeAt_range {next : ℕ} (hcount : 1 ≤ count) (h : changeAt mode count d = some next) :
    d < next ∧ next ≤ d + count := by
  have hdiv := Nat.div_add_mod d count
  have hd := Nat.mod_lt d hcount
  match mode with
  | 0 | 1 | 2 | _ + 6 =>
    simp only [changeAt] at h
    split at h
    · cases h
      omega
    · cases h
  | 3 =>
    have hsub : d - roundDown d count = d % count := by
      rw [roundDown]
      omega
    have hnext := Option.some.inj h
    rw [hsub] at hnext
    rw [roundDown] at hsub
    by_cases hhalf : d % count < (count + 1) / 2
    · rw [if_pos hhalf, roundDown] at hnext
      omega
    · rw [if_neg hhalf, roundDown] at hnext
      omega
  | 4 | 5 =>
    simp only [changeAt] at h
    split at h
    · cases h
      omega
    · split at h
      · cases h
        omega
      · cases h

/-! ## In nanoseconds -/

variable {s : PITChannelState}

theorem pitGetOut_eq_outAt (s : PITChannelState) (time : BitVec 64) :
    pitGetOut s time = outAt s.mode s.count (ticks s time) := rfl

theorem nextTransition_eq_changeAt (hmode : s.mode ≠ 2) (time : BitVec 64) :
    nextTransition s time = changeAt s.mode s.count (ticks s time) := by
  rw [nextTransition]
  generalize s.mode = mode at hmode ⊢
  rcases mode with _ | _ | _ | _ | _ | _ | mode
  case succ.succ.zero => exact absurd rfl hmode
  all_goals simp only [changeAt]

/-- A time that is not negative, as an `int64_t`, is the number it is. -/
theorem toInt_eq_toNat {t : BitVec 64} (h : 0 ≤ t.toInt) :
    t.toInt = t.toNat ∧ t.toNat < 2 ^ 63 := by
  rw [BitVec.toInt_eq_toNat_cond] at h ⊢
  split at h <;> rename_i hsmall
  · rw [if_pos hsmall]
    exact ⟨rfl, by omega⟩
  · have hlt := t.isLt
    omega

/-- The ticks between the load and a later time. -/
theorem ticks_of_le {t : BitVec 64} (h : s.countLoadTime.toNat ≤ t.toNat) :
    ticks s t = slow nsInS pitFreq (t.toNat - s.countLoadTime.toNat) := by
  rw [ticks, BitVec.toNat_sub_of_le (BitVec.le_def.mpr h)]
  rfl

theorem slow_mono {x y : ℕ} (h : x ≤ y) : slow nsInS pitFreq x ≤ slow nsInS pitFreq y :=
  Nat.div_le_div_right (Nat.mul_le_mul_right _ h)

/-- The deadline for a tick that is at most a count ahead is within 55 ms. -/
theorem fast_deadline {x next : ℕ} (h : next ≤ slow nsInS pitFreq x + 65536) :
    fast nsInS pitFreq next ≤ x + 55000000 := by
  calc fast nsInS pitFreq next
      ≤ fast nsInS pitFreq (slow nsInS pitFreq x + 65536) := fast_mono h
    _ ≤ x + fast nsInS pitFreq 65536 := fast_slow_add (by decide) x 65536
    _ ≤ x + 55000000 := Nat.add_le_add_left (by decide) x

/-- The deadline, if there is one, is after the present, and soon enough to be a time. -/
theorem nextTransitionTime_spec (hmode : s.mode ≠ 2) (hcount : 1 ≤ s.count)
    (hmax : s.count ≤ 65536) {time : BitVec 64} (hload : s.countLoadTime.toNat ≤ time.toNat)
    (htime : time.toNat < 2 ^ 62) :
    (changeAt s.mode s.count (ticks s time) = none ∧ pitGetNextTransitionTime s time = -1) ∨
    ∃ next, changeAt s.mode s.count (ticks s time) = some next ∧
      time.toNat < (pitGetNextTransitionTime s time).toNat ∧
      (pitGetNextTransitionTime s time).toNat < 2 ^ 63 ∧
      ∀ t : BitVec 64, time.toNat ≤ t.toNat → t.toNat < (pitGetNextTransitionTime s time).toNat →
        t = time ∨ ticks s t < next := by
  rw [pitGetNextTransitionTime, nextTransition_eq_changeAt hmode]
  cases hchange : changeAt s.mode s.count (ticks s time) with
  | none => exact .inl ⟨rfl, rfl⟩
  | some next =>
    obtain ⟨-, hnext⟩ := changeAt_range hcount hchange
    have hticks := ticks_of_le hload
    have hsoon : fast nsInS pitFreq next ≤ time.toNat - s.countLoadTime.toNat + 55000000 :=
      fast_deadline (by omega)
    have hdeadline := toNat_load_add
      (show s.countLoadTime.toNat + fast nsInS pitFreq next < 2 ^ 64 by omega)
    refine .inr ⟨next, rfl, ?_⟩
    dsimp only
    rw [muldivu64_eq_fast]
    split
    · -- the converted tick is not later than the present
      have hsucc : (time + 1).toNat = time.toNat + 1 := by
        rw [BitVec.toNat_add, show (1 : BitVec 64).toNat = 1 from rfl]
        exact Nat.mod_eq_of_lt (by omega)
      rw [hsucc]
      refine ⟨Nat.lt_succ_self _, by omega, fun t hle hlt ↦ .inl ?_⟩
      exact BitVec.eq_of_toNat_eq (by omega)
    · rename_i hlater
      rw [BitVec.le_def, Nat.not_le, hdeadline] at hlater
      rw [hdeadline]
      refine ⟨hlater, by omega, fun t hle hlt ↦ .inr ?_⟩
      rw [ticks_of_le (hload.trans hle)]
      exact slow_lt_of_lt_fast (by decide) (by omega)

/-- **Deadlines miss no change of the output**, in every mode but 2.  If there is no deadline, the
output stays as it is; otherwise the deadline is later than the present, and the output is the same
until then. -/
theorem output_constant_until_deadline {time : BitVec 64} (hmode : s.mode ≠ 2)
    (hcount : 1 ≤ s.count ∧ s.count ≤ 65536) (hzero : 0 ≤ s.countLoadTime.toInt)
    (hload : s.countLoadTime.toInt ≤ time.toInt) (htime : time.toInt < 2 ^ 62) :
    if pitGetNextTransitionTime s time = -1 then
      ∀ t : BitVec 64, time.toInt ≤ t.toInt → pitGetOut s t = pitGetOut s time
    else
      time.toInt < (pitGetNextTransitionTime s time).toInt ∧
      ∀ t : BitVec 64, time.toInt ≤ t.toInt → t.toInt < (pitGetNextTransitionTime s time).toInt →
        pitGetOut s t = pitGetOut s time := by
  obtain ⟨hload', -⟩ := toInt_eq_toNat hzero
  obtain ⟨htime', -⟩ := toInt_eq_toNat (hzero.trans hload)
  have hspec := @nextTransitionTime_spec s hmode hcount.1 hcount.2 time (by omega) (by omega)
  have hlater : ∀ t : BitVec 64, time.toInt ≤ t.toInt →
      t.toInt = t.toNat ∧ ticks s time ≤ ticks s t := by
    intro t ht
    obtain ⟨ht', -⟩ := toInt_eq_toNat ((hzero.trans hload).trans ht)
    refine ⟨ht', ?_⟩
    rw [ticks_of_le (show s.countLoadTime.toNat ≤ time.toNat by omega),
      ticks_of_le (show s.countLoadTime.toNat ≤ t.toNat by omega)]
    exact slow_mono (by omega)
  rcases hspec with ⟨hnone, hdeadline⟩ | ⟨next, hsome, hlt, hsmall, huntil⟩
  · rw [if_pos hdeadline]
    intro t ht
    refine out_of_changeAt hmode hcount.1 (hlater t ht).2 fun next hnext ↦ ?_
    exact absurd (hnone.symm.trans hnext) nofun
  · have hne : pitGetNextTransitionTime s time ≠ -1 := by
      intro h
      rw [h] at hsmall
      exact absurd hsmall (by decide)
    have hint : (pitGetNextTransitionTime s time).toInt =
        (pitGetNextTransitionTime s time).toNat := by
      rw [BitVec.toInt_eq_toNat_cond, if_pos (by omega)]
    rw [if_neg hne, hint, htime']
    refine ⟨by omega, fun t ht hbefore ↦ ?_⟩
    obtain ⟨ht', hticks⟩ := hlater t (by omega)
    rcases huntil t (by omega) (by omega) with hsame | hbelow
    · rw [hsame]
    · refine out_of_changeAt hmode hcount.1 hticks fun next' hnext' ↦ ?_
      have heq : next = next' := Option.some.inj (hsome.symm.trans hnext')
      omega

/-- A square wave of 1000 ticks, 100 ns after the load. -/
theorem output_constant_until_deadline_square :
    let s := { zeroChannel with mode := 3, count := 1000 }
    pitGetNextTransitionTime s 100 = 419047 ∧
      ∀ t : BitVec 64, (100 : BitVec 64).toInt ≤ t.toInt → t.toInt < (419047 : BitVec 64).toInt →
        pitGetOut s t = pitGetOut s 100 := by
  have h := @output_constant_until_deadline { zeroChannel with mode := 3, count := 1000 } 100
    (by decide) (by decide) (by decide) (by decide) (by decide)
  have hdeadline :
      pitGetNextTransitionTime { zeroChannel with mode := 3, count := 1000 } 100 = 419047 := by
    decide
  rw [hdeadline, if_neg (by decide)] at h
  exact ⟨hdeadline, h.2⟩

end

end Pit
end CamkesVm
