import Mathlib.Algebra.Order.Group.Nat
import Mathlib.Tactic.Ring

/-!
# Converting between two clocks

A slow clock makes `b` ticks in the time a fast clock makes `a`.  A number of slow ticks is
converted to fast ones, and back, by multiplying and dividing, and each division rounds down.  Going
there and back loses a tick, except for the numbers of ticks that convert exactly (`resample_eq`).

## What is here

* `fast` and `slow` — the two conversions, each of which multiplies first and divides afterwards.
* `resample_eq` — the tick that comes back from a round trip, with the exact condition for losing
  one.
* `slow_fast_succ` — the fast tick after the converted one comes back to the tick it started from,
  so rounding up would have been right.
* `fast_lt_fast`, `slow_lt_of_lt_fast`, `fast_slow_add`, `exists_slow_eq` — order and sums, for the
  sequences of deadlines that are computed in this way.

It is about natural numbers: that the products fit the words a program computes with is a fact about
the program. The ratio need not be in lowest terms.
-/

set_option autoImplicit false

namespace Resample

variable {a b : ℕ}

/-- `t` slow ticks in fast ticks, rounded down. -/
def fast (a b t : ℕ) : ℕ := t * a / b

/-- `n` fast ticks in slow ticks, rounded down. -/
def slow (a b n : ℕ) : ℕ := n * b / a

/-- **There and back**: a tick is lost, unless the conversion is exact. -/
theorem resample_eq (hb : 0 < b) (hab : b ≤ a) (t : ℕ) :
    slow a b (fast a b t) = if b ∣ t * a then t else t - 1 := by
  have ha : 0 < a := hb.trans_le hab
  have hdiv := Nat.div_add_mod (t * a) b
  have hmod := Nat.mod_lt (t * a) hb
  rw [slow, fast, Nat.mul_comm]
  split
  · rename_i hdvd
    rw [Nat.mod_eq_zero_of_dvd hdvd, Nat.add_zero] at hdiv
    rw [hdiv, Nat.mul_div_cancel _ ha]
  · rename_i hno
    have hpos : 0 < t * a % b := Nat.pos_of_ne_zero fun h ↦ hno (Nat.dvd_of_mod_eq_zero h)
    have ht : 0 < t := by
      refine Nat.pos_of_ne_zero fun h ↦ ?_
      rw [h, Nat.zero_mul, Nat.zero_mod] at hpos
      exact lt_irrefl 0 hpos
    obtain ⟨m, rfl⟩ := Nat.exists_eq_succ_of_ne_zero ht.ne'
    -- what is lost is less than one fast second over the slow one
    have hsucc : (m + 1) * a = m * a + a := Nat.succ_mul m a
    rw [Nat.succ_sub_one]
    refine Nat.div_eq_of_lt_le ?_ ?_
    · rw [Nat.succ_eq_add_one] at *
      omega
    · rw [Nat.succ_eq_add_one] at *
      omega

/-- **Rounding up instead**: the time just after a converted tick converts back to the tick. -/
theorem slow_fast_succ (hb : 0 < b) (hab : b < a) (t : ℕ) : slow a b (fast a b t + 1) = t := by
  have hdiv := Nat.div_add_mod (t * a) b
  have hmod := Nat.mod_lt (t * a) hb
  have hround : (t * a / b + 1) * b = b * (t * a / b) + b := by ring
  rw [slow, fast, hround]
  refine Nat.div_eq_of_lt_le ?_ ?_
  · omega
  · rw [Nat.succ_mul]
    omega

/-- More slow ticks are more fast ones. -/
theorem fast_lt_fast (hb : 0 < b) (hab : b ≤ a) {t t' : ℕ} (h : t < t') :
    fast a b t < fast a b t' := by
  have hle : t * a + b ≤ t' * a := by
    calc t * a + b ≤ t * a + a := Nat.add_le_add_left hab _
      _ = (t + 1) * a := (Nat.succ_mul t a).symm
      _ ≤ t' * a := Nat.mul_le_mul_right a h
  calc t * a / b < t * a / b + 1 := Nat.lt_succ_self _
    _ = (t * a + b) / b := (Nat.add_div_right _ hb).symm
    _ ≤ t' * a / b := Nat.div_le_div_right hle

/-- A fast time before the converted tick is before the tick. -/
theorem slow_lt_of_lt_fast (hb : 0 < b) {n t : ℕ} (h : n < fast a b t) : slow a b n < t := by
  have hmul : (n + 1) * b ≤ t * a := (Nat.le_div_iff_mul_le hb).mp h
  have hlt : n * b < t * a := (Nat.mul_lt_mul_of_pos_right (Nat.lt_succ_self n) hb).trans_le hmul
  exact Nat.div_lt_of_lt_mul (by rwa [Nat.mul_comm a t])

/-- Some slow ticks further on is not later than the same number of ticks, converted, further on. -/
theorem fast_slow_add (hb : 0 < b) (x c : ℕ) :
    fast a b (slow a b x + c) ≤ x + fast a b c := by
  have hround : x * b / a * a ≤ x * b := Nat.div_mul_le_self _ _
  calc (x * b / a + c) * a / b
      ≤ (x * b + c * a) / b := Nat.div_le_div_right (by rw [Nat.add_mul]; omega)
    _ = x + c * a / b := by rw [Nat.mul_comm x b, Nat.mul_add_div hb]

/-- A slow clock skips no tick. -/
theorem exists_slow_eq (hab : b ≤ a) {x j : ℕ} (h : j ≤ slow a b x) : ∃ y ≤ x, slow a b y = j := by
  induction x with
  | zero =>
    have hzero : slow a b 0 = 0 := by rw [slow, Nat.zero_mul, Nat.zero_div]
    exact ⟨0, le_rfl, by omega⟩
  | succ x ih =>
    by_cases hle : j ≤ slow a b x
    · obtain ⟨y, hy, hj⟩ := ih hle
      exact ⟨y, Nat.le_succ_of_le hy, hj⟩
    · have hstep : slow a b (x + 1) ≤ slow a b x + 1 := by
        rcases Nat.eq_zero_or_pos a with rfl | ha
        · simp [slow]
        · calc (x + 1) * b / a
              ≤ (x * b + a) / a := Nat.div_le_div_right (by rw [Nat.succ_mul]; omega)
            _ = x * b / a + 1 := Nat.add_div_right _ ha
      exact ⟨x + 1, le_rfl, by omega⟩

end Resample
