import CamkesVm.Lib.Edges
import CamkesVm.Lib.Resample
import CamkesVm.Pit.Runs
import Mathlib.Logic.Function.Iterate
import Mathlib.Tactic.NormNum.GCD

/-!
# The periodic tick of the PIT

In mode 2 the output of a channel is high for one tick out of every `count`.  The handler of
`TIMER_PIT` sees the output only at the times it has armed the timer for, and these are ticks
converted to nanoseconds, rounded down: looking at the clock, the handler finds itself one tick
before the one it aimed at.  The source makes up for this.  From a low output it aims at one tick
past the next multiple of `count`, and sees the multiple; from there it aims at the next multiple,
and sees the tick before that, at which the output is low again.

But one conversion in 596591 is exact, and then the handler sees the tick it aimed at
(`seen`).  If that happens on the way up it looks one tick too late and misses the pulse; if it
happens on the way down it finds the output high still, and there is no edge.  `Beat` is the
handler's view of the run, the tick aimed at and the level of the line; the first `K` edges come
when they should exactly if none of the first `K` pulses is met by such a conversion
(`ticksRight_iff`).  For every count one is, before long.

This file is about the beat alone, as a machine on pairs of a tick and a level; that the device
follows it is in `CamkesVm.Pit.Ticks`.
-/

set_option autoImplicit false

namespace CamkesVm
namespace Pit

open Transition EffectLog Resample Edges

/-! ## What the handler sees -/

/-- Half of `PIT_FREQ`: the conversion of a tick is exact if this divides it. -/
def exactTick : ℕ := 596591

/-- The tick the handler sees when it aims at tick `t`. -/
def seen (t : ℕ) : ℕ := if exactTick ∣ t then t else t - 1

/-- The level of the output at tick `d`, for the count `n`. -/
def levelAt (n d : ℕ) : ℕ := if d % n = 0 ∧ d ≠ 0 then 1 else 0

/-- The tick the handler aims at when it sees tick `d`. -/
def aim (n d : ℕ) : ℕ :=
  if d - roundDown d n = 0 ∧ d ≠ 0 then roundDown d n + n else roundDown d n + n + 1

/-- The tick aimed at and the level of the line. -/
structure Beat where
  /-- The tick aimed at. -/
  target : ℕ
  /-- The level of the line. -/
  level : ℕ

/-- One completion of the timer. -/
def Beat.next (n : ℕ) (b : Beat) : Beat where
  target := aim n (seen b.target)
  level := levelAt n (seen b.target)

/-- The start: the count was just loaded. -/
def Beat.start (n : ℕ) : Beat := { target := n + 1, level := 0 }

/-- The ticks seen at the rising edges of the first `m` completions. -/
def Beat.rising (n : ℕ) : Beat → ℕ → List ℕ := rises Beat.level (fun b ↦ seen b.target) (next n)

/-- The conversion of a tick is exact if `exactTick` divides it. -/
theorem seen_eq (t : ℕ) : slow nsInS pitFreq (fast nsInS pitFreq t) = seen t := by
  have hcop : Nat.Coprime exactTick 500000000 := by
    rw [exactTick]
    norm_num
  have hiff : pitFreq ∣ t * nsInS ↔ exactTick ∣ t := by
    have hfreq : pitFreq = 2 * exactTick := rfl
    have hns : t * nsInS = 2 * (t * 500000000) := by
      rw [nsInS]
      omega
    rw [hfreq, hns, Nat.mul_dvd_mul_iff_left (by decide)]
    exact hcop.dvd_mul_right
  rw [resample_eq (by decide) (by decide), seen]
  simp only [hiff]

/-! ## The beat -/

section

variable {n k : ℕ}

/-- The conversions that meet pulse `k` are not exact. -/
def Good (n k : ℕ) : Prop := ¬exactTick ∣ k * n ∧ ¬exactTick ∣ k * n + 1

theorem seen_of_dvd {t : ℕ} (h : exactTick ∣ t) : seen t = t := if_pos h

theorem seen_of_not_dvd {t : ℕ} (h : ¬exactTick ∣ t) : seen t = t - 1 := if_neg h

/-- At a pulse. -/
theorem at_pulse (hn : 2 ≤ n) (hk : 1 ≤ k) :
    levelAt n (k * n) = 1 ∧ aim n (k * n) = (k + 1) * n := by
  have hpos : k * n ≠ 0 := Nat.mul_ne_zero (by omega) (by omega)
  have hdown : roundDown (k * n) n = k * n := by rw [roundDown, Nat.mul_mod_left, Nat.sub_zero]
  refine ⟨if_pos ⟨Nat.mul_mod_left k n, hpos⟩, ?_⟩
  rw [aim, hdown, if_pos ⟨Nat.sub_self _, hpos⟩, Nat.succ_mul]

/-- Between two pulses. -/
theorem between_pulses {d : ℕ} (hlo : k * n < d) (hhi : d < (k + 1) * n) :
    levelAt n d = 0 ∧ aim n d = (k + 1) * n + 1 := by
  have hdiv : d / n = k := Nat.div_eq_of_lt_le hlo.le hhi
  have hsum := Nat.div_add_mod d n
  rw [hdiv, Nat.mul_comm] at hsum
  have hmod : d % n ≠ 0 := by omega
  have hdown : roundDown d n = k * n := by
    rw [roundDown]
    omega
  refine ⟨if_neg fun h ↦ hmod h.1, ?_⟩
  rw [aim, hdown, if_neg fun h ↦ by omega, Nat.succ_mul]

/-- **On the way down**: aiming at pulse `k + 1`, the handler sees the tick before it. -/
theorem next_down (hn : 2 ≤ n) {b : Beat} (hb : b.target = (k + 1) * n)
    (hgood : ¬exactTick ∣ (k + 1) * n) :
    b.next n = { target := (k + 1) * n + 1, level := 0 } := by
  have hsucc : (k + 1) * n = k * n + n := Nat.succ_mul k n
  obtain ⟨hlevel, haim⟩ := between_pulses (n := n) (k := k) (d := (k + 1) * n - 1) (by omega)
    (by omega)
  rw [Beat.next, hb, seen_of_not_dvd hgood, hlevel, haim]

/-- **On the way up**: aiming one tick past pulse `k`, the handler sees the pulse. -/
theorem next_up (hn : 2 ≤ n) (hk : 1 ≤ k) {b : Beat} (hb : b.target = k * n + 1)
    (hgood : ¬exactTick ∣ k * n + 1) :
    b.next n = { target := (k + 1) * n, level := 1 } ∧ seen b.target = k * n := by
  have hseen : seen b.target = k * n := by
    rw [hb, seen_of_not_dvd hgood, Nat.add_sub_cancel]
  obtain ⟨hlevel, haim⟩ := at_pulse hn hk
  exact ⟨by rw [Beat.next, hseen, hlevel, haim], hseen⟩

/-- The pulses `1` to `k`. -/
def pulses (n k : ℕ) : List ℕ := (List.range k).map fun j ↦ (j + 1) * n

theorem pulses_succ : pulses n (k + 1) = pulses n k ++ [(k + 1) * n] := by
  rw [pulses, pulses, List.range_succ, List.map_append]
  rfl

/-- **While all goes well** the handler is at pulse `k` after `2 * k - 1` completions, and has seen
one edge for each pulse. -/
theorem beat_at_pulse (hn : 2 ≤ n) (hgood : ∀ j, 1 ≤ j → j ≤ k + 1 → Good n j) :
    (Beat.next n)^[2 * k + 1] (Beat.start n) = { target := (k + 2) * n, level := 1 } ∧
      (Beat.start n).rising n (2 * k + 1) = pulses n (k + 1) := by
  induction k with
  | zero =>
    have hone := (hgood 1 (le_refl _) (le_refl _)).2
    rw [Nat.one_mul] at hone
    obtain ⟨hup, hseen⟩ := next_up (n := n) (k := 1) (b := Beat.start n) hn (le_refl _)
      (by rw [Nat.one_mul]; rfl) (by rw [Nat.one_mul]; exact hone)
    refine ⟨hup, ?_⟩
    have hlevel : ((Beat.start n).next n).level = 1 := by rw [hup]
    have hrises : (Beat.start n).rising n 1 = [] ++ [seen (Beat.start n).target] := by
      rw [Beat.rising, rises, rises]
      exact congrArg _ (if_pos ⟨rfl, hlevel⟩)
    rw [hrises, hseen]
    rfl
  | succ k ih =>
    obtain ⟨hat, hrising⟩ := ih fun j h1 hj ↦ hgood j h1 (by omega)
    obtain ⟨hdown, hup⟩ := hgood (k + 2) (by omega) (le_refl _)
    have h₁ := next_down hn (b := { target := (k + 2) * n, level := 1 }) rfl hdown
    obtain ⟨h₂, hseen⟩ := next_up (k := k + 2) (b := { target := (k + 2) * n + 1, level := 0 }) hn
      (by omega) rfl hup
    refine ⟨?_, ?_⟩
    · rw [show 2 * (k + 1) + 1 = 2 * k + 1 + 2 by omega, Function.iterate_succ_apply',
        Function.iterate_succ_apply', hat, h₁, h₂]
    · have hrun := rises_add_two Beat.level (fun b ↦ seen b.target) hat h₁ h₂
      rw [show 2 * (k + 1) + 1 = 2 * k + 1 + 2 by omega, Beat.rising, hrun, hseen,
        pulses_succ (k := k + 1)]
      change (Beat.start n).rising n (2 * k + 1) ++ [] ++ [(k + 2) * n] = _
      rw [hrising, List.append_nil]

/-- **The first conversion that goes wrong costs the handler a pulse**: it is back at the next one
three completions later, with no edge in between. -/
theorem beat_past_pulse (hn : 2 ≤ n) (hlt : n + 1 < exactTick)
    (hgood : ∀ j, 1 ≤ j → j ≤ k + 1 → Good n j) (hbad : ¬Good n (k + 2)) :
    ((Beat.next n)^[2 * k + 4] (Beat.start n)).target = (k + 4) * n ∧
      (Beat.start n).rising n (2 * k + 4) = pulses n (k + 1) ++ [(k + 3) * n] := by
  obtain ⟨hat, hrising⟩ := beat_at_pulse hn hgood
  have hthree : (k + 3) * n = (k + 2) * n + n := Nat.succ_mul (k + 2) n
  -- the conversions around the next pulse cannot be exact as well
  have hno : ∀ d, 0 < d → d < exactTick → ∀ t, exactTick ∣ t → ¬exactTick ∣ t + d :=
    fun d hpos hd t ht h ↦ by
      have hdvd := (Nat.dvd_add_right ht).mp h
      exact absurd (Nat.le_of_dvd hpos hdvd) (by omega)
  -- either way the handler finds no edge twice and aims past pulse `k + 3`
  have hmiss : ∃ b₁ : Beat, Beat.next n { target := (k + 2) * n, level := 1 } = b₁ ∧
      b₁.next n = { target := (k + 3) * n + 1, level := 0 } ∧
      ¬exactTick ∣ (k + 3) * n + 1 := by
    by_cases hdown : exactTick ∣ (k + 2) * n
    · -- on the way down: the output is high still
      have haim := (at_pulse (k := k + 2) hn (by omega)).2
      have hnext := hno n (by omega) (by omega) _ hdown
      have hpast := hno (n + 1) (by omega) hlt _ hdown
      rw [← hthree] at hnext
      rw [← Nat.add_assoc, ← hthree] at hpast
      refine ⟨_, rfl, next_down hn ?_ hnext, hpast⟩
      rw [Beat.next, seen_of_dvd hdown, haim]
    · -- on the way up: the output is low again
      have hup : exactTick ∣ (k + 2) * n + 1 := by
        by_contra h
        exact hbad ⟨hdown, h⟩
      have hpast := hno n (by omega) (by omega) _ hup
      have hhi : (k + 2) * n + 1 < (k + 3) * n := by omega
      obtain ⟨hlevel, haim⟩ := between_pulses (n := n) (k := k + 2) (Nat.lt_succ_self _) hhi
      refine ⟨_, next_down hn rfl hdown, ?_, ?_⟩
      · rw [Beat.next, seen_of_dvd hup, hlevel, haim]
      · rw [hthree]
        exact (show (k + 2) * n + n + 1 = (k + 2) * n + 1 + n by omega) ▸ hpast
  obtain ⟨b₁, h₁, h₂, hpast⟩ := hmiss
  obtain ⟨h₃, hseen⟩ := next_up (k := k + 3) (b := { target := (k + 3) * n + 1, level := 0 }) hn
    (by omega) rfl hpast
  have hat₂ : (Beat.next n)^[2 * k + 3] (Beat.start n) =
      { target := (k + 3) * n + 1, level := 0 } := by
    rw [Function.iterate_succ_apply', Function.iterate_succ_apply', hat, h₁, h₂]
  refine ⟨by rw [Function.iterate_succ_apply', hat₂, h₃], ?_⟩
  have hrun := rises_add_two Beat.level (fun b ↦ seen b.target) hat h₁ h₂
  have hlow : ((Beat.next n)^[2 * k + 3] (Beat.start n)).level = 0 := by rw [hat₂]
  have hhigh : ((Beat.next n)^[2 * k + 3 + 1] (Beat.start n)).level = 1 := by
    rw [Function.iterate_succ_apply', hat₂, h₃]
  rw [Beat.rising, show 2 * k + 4 = 2 * k + 3 + 1 by omega, rises, if_pos ⟨hlow, hhigh⟩, hat₂,
    hseen, show 2 * k + 3 = 2 * k + 1 + 2 by omega, hrun]
  change (Beat.start n).rising n (2 * k + 1) ++ [] ++ (if b₁.level = 0 ∧ 0 = 1 then _ else []) ++
    [(k + 3) * n] = _
  rw [hrising, if_neg fun h ↦ absurd h.2 (by omega)]
  simp

end

end Pit
end CamkesVm
