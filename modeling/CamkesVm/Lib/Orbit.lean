import CamkesVm.Lib.FuelLoop
import Mathlib.Data.BitVec
import Mathlib.Tactic.Ring

/-!
# Stepping round the clock

Adding a fixed word `p` over and over walks round the words of `w` bits.  If `p` is not zero the
walk comes to a word that is not negative as a two's complement number, from wherever it starts
(`exists_msb_false`): a step of less than half the circle cannot jump over the non-negative half on
the way up, and a step of at least half of it is a step of at most half down.

A loop that goes on while such a sum is negative therefore ends unless it stands still
(`ends_iff_step`), at the first place that is not negative (`exists_walk_of_whileFuel`).  With a
step of less than half the circle that place is less than a step from zero (`toNat_walk_lt`).

## What is here

* `walk p d k` — the word after `k` steps, and what its number is.
* `exists_msb_false` — every walk with a step other than zero meets a word that is not negative.
* `ends_iff_step`, `exists_walk_of_whileFuel` — when a loop that advances a value by `p` while it
  lies behind ends, and where.
* `toNat_walk_lt` — how far behind zero it can have gone.

Loops of this kind catch up with a clock: they add a period to a deadline until the deadline is no
longer in the past, where *in the past* is the sign of a difference of words. Nothing is assumed of
the width, or of how far behind the deadline is.
-/

set_option autoImplicit false

namespace Orbit

variable {w : ℕ}

/-- The word reached after `k` steps of `p` from `d`. -/
def walk (p d : BitVec w) (k : ℕ) : BitVec w := d + BitVec.ofNat w k * p

@[simp] theorem walk_zero (p d : BitVec w) : walk p d 0 = d := by simp [walk]

theorem walk_succ (p d : BitVec w) (k : ℕ) : walk p d (k + 1) = walk p d k + p := by
  rw [walk, walk, BitVec.ofNat_add, BitVec.add_mul, BitVec.add_assoc]
  simp

theorem toNat_walk (p d : BitVec w) (k : ℕ) :
    (walk p d k).toNat = (d.toNat + k * p.toNat) % 2 ^ w := by
  simp [walk, Nat.mul_mod, Nat.add_mod]

/-- Small steps: the first multiple of `p` that carries `d` past the end lands in the lower half. -/
theorem exists_lt_of_small {p d h : ℕ} (hp : 0 < p) (hph : p ≤ h) (hd : d < 2 * h) :
    ∃ k, (d + k * p) % (2 * h) < h := by
  obtain ⟨q, r, hr, hqr⟩ : ∃ q r, r < p ∧ 2 * h - d = q * p + r :=
    ⟨(2 * h - d) / p, (2 * h - d) % p, Nat.mod_lt _ hp, (Nat.div_add_mod' _ _).symm⟩
  rcases Nat.eq_zero_or_pos r with rfl | hr0
  · refine ⟨q, ?_⟩
    rw [show d + q * p = 2 * h by omega, Nat.mod_self]
    omega
  · refine ⟨q + 1, ?_⟩
    have hsum : d + (q + 1) * p = 2 * h + (p - r) := by rw [Nat.add_mul]; omega
    rw [hsum, Nat.add_mod_left, Nat.mod_eq_of_lt (by omega)]
    omega

/-- Large steps are small steps down: the first one that takes `d` below the middle stays above
zero. -/
theorem exists_lt_of_large {p d h : ℕ} (hp : h ≤ p) (hp' : p < 2 * h) (hd : d < 2 * h) :
    ∃ k, (d + k * p) % (2 * h) < h := by
  rcases Nat.lt_or_ge d h with hdh | hdh
  · exact ⟨0, by rw [Nat.zero_mul, Nat.add_zero, Nat.mod_eq_of_lt hd]; exact hdh⟩
  · -- `k` steps of `p` are `k` steps of `2 * h - p` down, up to `k` turns
    have hq : 0 < 2 * h - p := by omega
    let k := (d - h) / (2 * h - p) + 1
    have hk : (d - h) / (2 * h - p) * (2 * h - p) ≤ d - h := Nat.div_mul_le_self _ _
    have hk' : d - h < k * (2 * h - p) := by
      have := Nat.lt_div_mul_add (a := d - h) hq
      simpa [k, Nat.add_mul] using this
    have hkd : k * (2 * h - p) ≤ d := by
      simp only [k, Nat.add_mul, Nat.one_mul]
      omega
    refine ⟨k, ?_⟩
    have hsplit : k * (2 * h) = k * (2 * h - p) + k * p := by
      rw [← Nat.mul_add]; congr 1; omega
    have hsum : d + k * p = (d - k * (2 * h - p)) + k * (2 * h) := by omega
    rw [hsum, Nat.add_mul_mod_self_right, Nat.mod_eq_of_lt (by omega)]
    omega

/-- **A walk with a step other than zero comes to a non-negative word.** -/
theorem exists_msb_false {p : BitVec w} (hp : p ≠ 0) (d : BitVec w) :
    ∃ k, (walk p d k).msb = false := by
  cases w with
  | zero => exact absurd (Subsingleton.elim p 0) hp
  | succ w =>
    have hp0 : 0 < p.toNat :=
      Nat.pos_of_ne_zero fun h ↦ hp (BitVec.eq_of_toNat_eq (by simpa using h))
    have hpow : 2 ^ (w + 1) = 2 * 2 ^ w := by rw [Nat.pow_succ, Nat.mul_comm]
    have hpl : p.toNat < 2 * 2 ^ w := hpow ▸ p.isLt
    have hdl : d.toNat < 2 * 2 ^ w := hpow ▸ d.isLt
    have hk : ∃ k, (d.toNat + k * p.toNat) % (2 * 2 ^ w) < 2 ^ w := by
      rcases Nat.le_total p.toNat (2 ^ w) with h | h
      · exact exists_lt_of_small hp0 h hdl
      · exact exists_lt_of_large h hpl hdl
    obtain ⟨k, hk⟩ := hk
    refine ⟨k, ?_⟩
    rw [BitVec.msb_eq_decide, toNat_walk, hpow]
    simpa using hk

/-! ## Loops -/

/-- **A step over zero** is a step to a word below the step. -/
theorem toNat_add_lt {x p : BitVec w} (hx : x.msb = true) (hp : p.msb = false)
    (h : (x + p).msb = false) : (x + p).toNat < p.toNat := by
  have hxlt := x.isLt
  rw [BitVec.msb_eq_decide, decide_eq_true_eq] at hx
  rw [BitVec.msb_eq_decide, decide_eq_false_iff_not] at hp h
  rw [BitVec.toNat_add] at h ⊢
  rcases Nat.lt_or_ge (x.toNat + p.toNat) (2 ^ w) with hlt | hge
  · rw [Nat.mod_eq_of_lt hlt] at h
    omega
  · have hpos : 2 ^ w ≤ 2 ^ (w - 1) + 2 ^ (w - 1) := by
      cases w with
      | zero => decide
      | succ w => rw [Nat.succ_sub_one, pow_succ]; omega
    rw [Nat.mod_eq_sub_mod hge, Nat.mod_eq_of_lt (by omega)]
    omega

/-- The first word of a walk that is not negative is less than a step from zero, if the walk begins
at a negative word and its steps are not negative. -/
theorem toNat_walk_lt {p d : BitVec w} (hp : p.msb = false) {k : ℕ} (hk : 0 < k)
    (hbefore : ∀ j < k, (walk p d j).msb = true) (h : (walk p d k).msb = false) :
    (walk p d k).toNat < p.toNat := by
  obtain ⟨j, rfl⟩ := Nat.exists_eq_succ_of_ne_zero hk.ne'
  rw [Nat.succ_eq_add_one, walk_succ] at h ⊢
  exact toNat_add_lt (hbefore j (Nat.lt_succ_self j)) hp h

section

universe u

variable {α : Type u} {f : α → α} {g : α → BitVec w} {p : BitVec w}

/-- A function that advances some reading of its argument by `p` walks it by `p`. -/
theorem iterate_eq_walk (h : ∀ x, g (f x) = g x + p) (x : α) (k : ℕ) :
    g (f^[k] x) = walk p (g x) k := by
  induction k with
  | zero => rw [Function.iterate_zero, id, walk_zero]
  | succ k ih => rw [Function.iterate_succ_apply', h, ih, walk_succ]

/-- **Where a loop over a walk ends**: a loop that advances `g` by `p` for as long as `g` is
negative ends at the first place of the walk that is not negative. -/
theorem exists_walk_of_whileFuel (h : ∀ x, g (f x) = g x + p) {fuel : ℕ} {a b : α}
    (hloop : FuelLoop.whileFuel (fun x ↦ (g x).msb) f fuel a = some b) :
    ∃ k, b = f^[k] a ∧ (walk p (g a) k).msb = false ∧ ∀ j < k, (walk p (g a) j).msb = true := by
  obtain ⟨k, rfl, hend, hbefore⟩ := FuelLoop.exists_iterate_of_whileFuel hloop
  refine ⟨k, rfl, ?_, fun j hj ↦ ?_⟩
  · rw [← iterate_eq_walk h]
    exact hend
  · rw [← iterate_eq_walk h]
    exact hbefore j hj

/-- **When a loop over a walk ends**: a loop that advances `g` by `p` for as long as `g` is negative
ends if and only if it moves, or has no round to do. -/
theorem ends_iff_step (h : ∀ x, g (f x) = g x + p) (a : α) :
    FuelLoop.Ends (fun x ↦ (g x).msb) f a ↔ p ≠ 0 ∨ (g a).msb = false := by
  rw [FuelLoop.ends_iff]
  simp only [iterate_eq_walk h]
  constructor
  · rintro ⟨k, hk⟩
    by_cases hp : p = 0
    · right
      simpa [hp, walk] using hk
    · exact .inl hp
  · rintro (hp | h0)
    · exact exists_msb_false hp (g a)
    · exact ⟨0, by rwa [walk_zero]⟩

end

end Orbit
