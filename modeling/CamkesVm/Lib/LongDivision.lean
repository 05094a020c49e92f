import Mathlib.Data.Nat.Digits.Defs

/-!
# Long multiplication and division by a short number

A number written in some base, lowest digit first, is multiplied by a number digit by digit from
below, and divided by one from above.  Both pass something on: the multiplication the carry, the
division the remainder.  Programs do this with the halves of a word where they have no type for the
product.

The highest digit is treated as such programs treat it.  The multiplication leaves the last carry in
it, so it may be larger than a digit, and the division takes it as it is.  That does no harm: only
the digits below it have to be digits for the quotient's digits below the highest to be digits
(`div_lt_base`).

## What is here

* `scale` and `divide` — the two procedures, by recursion on the digits.
* `ofDigits_scale` — the product, for every base and whatever carry comes in.
* `ofDigits_divide`, `divide_snd_lt` and `ofDigits_divide_fst` — what is divided is the quotient
  times the divisor and a remainder below it, so the quotient is the one rounded down.
* `div_lt_base` — that the quotient's digits are digits.

`Nat.ofDigits` is Mathlib's. A program with words of a fixed width has the base for its bound, and
the only thing left to show about it is that its intermediate results fit, which these bounds give.
-/

set_option autoImplicit false

namespace LongDivision

variable {base c r d : ℕ}

/-- The digits times `b`, with what comes from below; the last carry stays in the highest digit. -/
def scale (base b : ℕ) : ℕ → List ℕ → List ℕ
  | _, [] => []
  | carry, [d] => [d * b + carry]
  | carry, d :: ds => (d * b + carry) % base :: scale base b ((d * b + carry) / base) ds

/-- The digits of the quotient, and the remainder. -/
def divide (base c : ℕ) : List ℕ → List ℕ × ℕ
  | [] => ([], 0)
  | d :: ds =>
    let (qs, r) := divide base c ds
    ((r * base + d) / c :: qs, (r * base + d) % c)

/-- **The product.**  The induction is on the digits, with the carry that reaches them. -/
theorem ofDigits_scale (base b : ℕ) {ds : List ℕ} (hds : ds ≠ []) (carry : ℕ) :
    Nat.ofDigits base (scale base b carry ds) = Nat.ofDigits base ds * b + carry := by
  induction ds generalizing carry with
  | nil => exact absurd rfl hds
  | cons d ds ih =>
    cases ds with
    | nil => rw [scale, Nat.ofDigits_singleton, Nat.ofDigits_singleton]
    | cons e ds =>
      have hstep := ih (List.cons_ne_nil e ds) ((d * b + carry) / base)
      have hsplit := Nat.mod_add_div (d * b + carry) base
      have hcons : Nat.ofDigits base (d :: e :: ds) = d + base * Nat.ofDigits base (e :: ds) :=
        Nat.ofDigits_cons
      rw [scale, Nat.ofDigits_cons, hstep, hcons]
      · calc (d * b + carry) % base +
            base * (Nat.ofDigits base (e :: ds) * b + (d * b + carry) / base)
            = (d * b + carry) % base + base * ((d * b + carry) / base) +
              base * (Nat.ofDigits base (e :: ds) * b) := by rw [Nat.mul_add]; omega
          _ = d * b + carry + base * Nat.ofDigits base (e :: ds) * b := by
              rw [hsplit, Nat.mul_assoc]
          _ = (d + base * Nat.ofDigits base (e :: ds)) * b + carry := by rw [Nat.add_mul]; omega
      · exact List.cons_ne_nil e ds

/-- What is divided is the quotient times the divisor, and the remainder. -/
theorem ofDigits_divide (base c : ℕ) (ds : List ℕ) :
    c * Nat.ofDigits base (divide base c ds).1 + (divide base c ds).2 = Nat.ofDigits base ds := by
  induction ds with
  | nil => simp [divide]
  | cons d ds ih =>
    have hsplit := Nat.div_add_mod ((divide base c ds).2 * base + d) c
    simp only [divide, Nat.ofDigits_cons]
    rw [← ih]
    generalize Nat.ofDigits base (divide base c ds).1 = q
    generalize (divide base c ds).2 = r at hsplit ⊢
    calc c * ((r * base + d) / c + base * q) + (r * base + d) % c
        = c * ((r * base + d) / c) + (r * base + d) % c + c * (base * q) := by
          rw [Nat.mul_add]; omega
      _ = r * base + d + base * (c * q) := by rw [hsplit, Nat.mul_left_comm]
      _ = d + base * (c * q + r) := by rw [Nat.mul_add, Nat.mul_comm base r]; omega

theorem divide_snd_lt (hc : 0 < c) (base : ℕ) (ds : List ℕ) : (divide base c ds).2 < c := by
  cases ds with
  | nil => exact hc
  | cons d ds => exact Nat.mod_lt _ hc

/-- **The quotient**, rounded down. -/
theorem ofDigits_divide_fst (hc : 0 < c) (base : ℕ) (ds : List ℕ) :
    Nat.ofDigits base (divide base c ds).1 = Nat.ofDigits base ds / c := by
  rw [← ofDigits_divide base c ds, Nat.mul_add_div hc, Nat.div_eq_of_lt (divide_snd_lt hc base ds),
    Nat.add_zero]

/-- A number below `c * base` comes of a remainder and a digit, -/
theorem add_lt_mul (hr : r < c) (hd : d < base) : r * base + d < c * base := by
  calc r * base + d < r * base + base := Nat.add_lt_add_left hd _
    _ = (r + 1) * base := (Nat.succ_mul r base).symm
    _ ≤ c * base := Nat.mul_le_mul_right base hr

/-- **and what it gives is a digit.** -/
theorem div_lt_base (hr : r < c) (hd : d < base) : (r * base + d) / c < base :=
  Nat.div_lt_of_lt_mul (add_lt_mul hr hd)

end LongDivision
