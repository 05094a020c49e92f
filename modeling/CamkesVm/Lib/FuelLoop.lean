import Mathlib.Logic.Function.Iterate
import Mathlib.Data.Nat.Find

/-!
# While loops that may not end

`whileFuel c f fuel a` runs `while (c(a)) a = f(a)` for at most `fuel` rounds and returns the value
the loop leaves, or `none` if it is still going.  The fuel is there to make the loop a function; it
is never part of a result.  `Ends c f a` says that some amount of fuel is enough, and
`ends_iff` turns this into a statement about the iterates of `f` alone.

## What is here

* `exists_iterate_of_whileFuel` — the value is the first iterate of `f` that fails the test, which
  is how loops are reasoned about from the outside.
* `whileFuel_mono` — more fuel does no harm, so the value of a loop that ended does not depend on
  it.
* `whileFuel_isSome` and `ends_iff` — how much fuel is enough, and that a loop ends if and only if
  some iterate fails its test.

A program that contains such a loop takes the fuel as an argument; that it returns is then stated as
the existence of some fuel, and never assumed.
-/

set_option autoImplicit false

namespace FuelLoop

universe u

variable {α : Type u} (c : α → Bool) (f : α → α)

/-- `while (c(a)) a = f(a)`, for at most `fuel` rounds. -/
def whileFuel : ℕ → α → Option α
  | 0, a => if c a then none else some a
  | fuel + 1, a => if c a then whileFuel fuel (f a) else some a

/-- The loop ends when it is started on `a`. -/
def Ends (a : α) : Prop := ∃ fuel, (whileFuel c f fuel a).isSome

variable {c f}

/-- A loop that ended stopped at the first iterate that fails the test. -/
theorem exists_iterate_of_whileFuel {fuel : ℕ} {a b : α} (h : whileFuel c f fuel a = some b) :
    ∃ k, b = f^[k] a ∧ c b = false ∧ ∀ j < k, c (f^[j] a) = true := by
  induction fuel generalizing a with
  | zero =>
    rw [whileFuel] at h
    split at h
    · exact absurd h (by simp)
    · rename_i hc
      cases h
      exact ⟨0, rfl, by simpa using hc, by simp⟩
  | succ fuel ih =>
    rw [whileFuel] at h
    split at h
    · rename_i hc
      obtain ⟨k, hb, hcb, hall⟩ := ih h
      refine ⟨k + 1, hb, hcb, fun j hj ↦ ?_⟩
      cases j with
      | zero => exact hc
      | succ j => exact hall j (by omega)
    · rename_i hc
      cases h
      exact ⟨0, rfl, by simpa using hc, by simp⟩

/-- More fuel does no harm. -/
theorem whileFuel_mono {fuel fuel' : ℕ} {a b : α} (h : whileFuel c f fuel a = some b)
    (hle : fuel ≤ fuel') : whileFuel c f fuel' a = some b := by
  induction fuel generalizing a fuel' with
  | zero =>
    rw [whileFuel] at h
    split at h
    · exact nomatch h
    · rename_i hc
      cases fuel' with
      | zero => rwa [whileFuel, if_neg hc]
      | succ fuel' => rwa [whileFuel, if_neg hc]
  | succ fuel ih =>
    cases fuel' with
    | zero => exact absurd hle (Nat.not_succ_le_zero fuel)
    | succ fuel' =>
      rw [whileFuel] at h ⊢
      split at h
      · rename_i hc
        rw [if_pos hc]
        exact ih h (Nat.le_of_succ_le_succ hle)
      · rename_i hc
        rwa [if_neg hc]

/-- The loop ends within `k` rounds if the `k`-th iterate fails the test. -/
theorem whileFuel_isSome {k : ℕ} {a : α} (h : c (f^[k] a) = false) :
    (whileFuel c f k a).isSome := by
  induction k generalizing a with
  | zero =>
    rw [Function.iterate_zero, id] at h
    simp [whileFuel, h]
  | succ k ih =>
    rw [whileFuel]
    split
    · exact ih h
    · rfl

/-- **A loop ends exactly when some iterate fails its test.** -/
theorem ends_iff {a : α} : Ends c f a ↔ ∃ k, c (f^[k] a) = false := by
  constructor
  · rintro ⟨fuel, h⟩
    obtain ⟨b, hb⟩ := Option.isSome_iff_exists.mp h
    obtain ⟨k, rfl, hk, -⟩ := exists_iterate_of_whileFuel hb
    exact ⟨k, hk⟩
  · rintro ⟨k, hk⟩
    exact ⟨k, whileFuel_isSome hk⟩

end FuelLoop
