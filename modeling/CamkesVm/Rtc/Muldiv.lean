import CamkesVm.Lib.LongDivision
import CamkesVm.Rtc.Port

/-!
# The division behind every deadline of the RTC

The RTC converts between nanoseconds and ticks of its 32 kHz clock with `muldiv64`, which multiplies
a word of 64 bits by one of 32 bits and divides by another, without a type for the 96 bits of the
product.  It works on the two halves of the word: it multiplies from below, carries, and divides
from above.  `Rtc.Port` has the value that comes of it; here is the computation, on words, with
every product, sum and shift cut off where C cuts it off.

`muldiv64_exact` says that nothing is ever cut off, except for the upper half of the quotient, which
is where the result is reduced modulo `2 ^ 64`.

## What is here

* `Halves`, `rl`, `rh`, `rest`, `res`, `muldiv64` — the variables of the source, one definition
  each, in its order.
* `Exact`, `exact_of_pos` — each of the operations, and that none is cut off. The bounds are those
  of long division, in the library.
* `muldiv64_exact` — the value.
* `muldiv64_eq`, `nextPeriod_eq` — the connection to `CamkesVm.Rtc.Port`, and to the deadline of the
  periodic interrupt.

The multiplier and the divisor are any words of 32 bits but that the divisor is not 0, for which the
source would be stopped by the processor.
-/

set_option autoImplicit false

namespace CamkesVm
namespace Rtc

open LongDivision

namespace Muldiv

/-! ## The computation -/

/-- The `union` of a word and its two halves.  (On a big-endian host the halves are declared the
other way round.) -/
structure Halves where
  /-- The lower half. -/
  low : BitVec 32
  /-- The upper half. -/
  high : BitVec 32

/-- The halves of `ll`. -/
def Halves.of (ll : BitVec 64) : Halves := ⟨ll.setWidth 32, (ll >>> 32).setWidth 32⟩

/-- The word with these halves. -/
def Halves.ll (l : Halves) : BitVec 64 := l.high ++ l.low

variable (a : BitVec 64) (b c : BitVec 32)

/-- `rl` -/
def rl : BitVec 64 := (Halves.of a).low.setWidth 64 * b.setWidth 64

/-- `rh`, before the carry. -/
def rhProduct : BitVec 64 := (Halves.of a).high.setWidth 64 * b.setWidth 64

/-- `rh` -/
def rh : BitVec 64 := rhProduct a b + rl a b >>> 32

/-- What the lower half of the result is computed from: the remainder of the upper half, and the
lower half of the product. -/
def rest : BitVec 64 := (rh a b % c.setWidth 64) <<< 32 + (rl a b &&& 0xffffffff)

/-- `res` -/
def res : Halves where
  high := (rh a b / c.setWidth 64).setWidth 32
  low := (rest a b c / c.setWidth 64).setWidth 32

/-- `muldiv64` -/
def muldiv64 : BitVec 64 := (res a b c).ll

/-! ## Nothing is cut off -/

/-- Each operation gives the number it would give without a bound on the numbers. -/
structure Exact : Prop where
  /-- The lower product. -/
  lower : (rl a b).toNat = (Halves.of a).low.toNat * b.toNat
  /-- The upper product. -/
  upper : (rhProduct a b).toNat = (Halves.of a).high.toNat * b.toNat
  /-- The upper product with the carry. -/
  carried : (rh a b).toNat = (rhProduct a b).toNat + (rl a b >>> 32).toNat
  /-- The remainder, shifted. -/
  shifted : ((rh a b % c.setWidth 64) <<< 32).toNat = (rh a b % c.setWidth 64).toNat * 2 ^ 32
  /-- The remainder with the lower half of the product. -/
  joined : (rest a b c).toNat =
    ((rh a b % c.setWidth 64) <<< 32).toNat + (rl a b &&& 0xffffffff).toNat
  /-- The lower part of the quotient is a half of a word. -/
  low : (rest a b c / c.setWidth 64).toNat < 2 ^ 32

variable {a b c}

theorem toNat_low (a : BitVec 64) : (Halves.of a).low.toNat = a.toNat % 2 ^ 32 :=
  BitVec.toNat_setWidth 32 a

theorem toNat_high (a : BitVec 64) : (Halves.of a).high.toNat = a.toNat / 2 ^ 32 := by
  have hlt := a.isLt
  rw [Halves.of, BitVec.toNat_setWidth, BitVec.toNat_ushiftRight, Nat.shiftRight_eq_div_pow]
  exact Nat.mod_eq_of_lt (by omega)

/-- The halves are the digits of the word. -/
theorem ofDigits_halves (a : BitVec 64) :
    Nat.ofDigits (2 ^ 32) [(Halves.of a).low.toNat, (Halves.of a).high.toNat] = a.toNat := by
  rw [toNat_low, toNat_high, Nat.ofDigits_cons, Nat.ofDigits_singleton, Nat.mod_add_div]

/-- A product of halves is a word, and leaves room for a carry. -/
theorem mul_halves_le (x y : BitVec 32) : x.toNat * y.toNat ≤ (2 ^ 32 - 1) * (2 ^ 32 - 1) :=
  Nat.mul_le_mul (Nat.le_sub_one_of_lt x.isLt) (Nat.le_sub_one_of_lt y.isLt)

theorem toNat_mul_halves (x y : BitVec 32) :
    (x.setWidth 64 * y.setWidth 64).toNat = x.toNat * y.toNat := by
  have hle := mul_halves_le x y
  rw [BitVec.toNat_mul, BitVec.toNat_setWidth_of_le (by decide),
    BitVec.toNat_setWidth_of_le (by decide)]
  exact Nat.mod_eq_of_lt (by omega)

theorem toNat_carry (x : BitVec 64) : (x >>> 32).toNat = x.toNat / 2 ^ 32 := by
  rw [BitVec.toNat_ushiftRight, Nat.shiftRight_eq_div_pow]

theorem toNat_lower (x : BitVec 64) : (x &&& 0xffffffff).toNat = x.toNat % 2 ^ 32 :=
  Nat.and_two_pow_sub_one_eq_mod x.toNat 32

theorem toNat_divisor (c : BitVec 32) : (c.setWidth 64).toNat = c.toNat :=
  BitVec.toNat_setWidth_of_le (by decide)

theorem toNat_mod_divisor (x : BitVec 64) (c : BitVec 32) :
    (x % c.setWidth 64).toNat = x.toNat % c.toNat := by
  rw [BitVec.toNat_umod, toNat_divisor]

theorem toNat_div_divisor (x : BitVec 64) (c : BitVec 32) :
    (x / c.setWidth 64).toNat = x.toNat / c.toNat := by
  rw [BitVec.toNat_udiv, toNat_divisor]

/-- **Nothing is cut off.** -/
theorem exact_of_pos (hc : 0 < c.toNat) (a : BitVec 64) (b : BitVec 32) : Exact a b c := by
  have hlow := toNat_mul_halves (Halves.of a).low b
  have hhigh := toNat_mul_halves (Halves.of a).high b
  have hrem : (rh a b % c.setWidth 64).toNat < c.toNat := by
    rw [toNat_mod_divisor]
    exact Nat.mod_lt _ hc
  have hclt := c.isLt
  have hshift : ((rh a b % c.setWidth 64) <<< 32).toNat =
      (rh a b % c.setWidth 64).toNat * 2 ^ 32 := by
    rw [BitVec.toNat_shiftLeft, Nat.shiftLeft_eq]
    exact Nat.mod_eq_of_lt (by omega)
  have hcarry : (rl a b &&& 0xffffffff).toNat < 2 ^ 32 := by
    rw [toNat_lower]
    exact Nat.mod_lt _ (Nat.two_pow_pos 32)
  have hfit := add_lt_mul hrem hcarry
  have hrest : (rest a b c).toNat = ((rh a b % c.setWidth 64) <<< 32).toNat +
      (rl a b &&& 0xffffffff).toNat := by
    have hle : c.toNat * 2 ^ 32 ≤ 2 ^ 64 := by omega
    rw [rest, BitVec.toNat_add, hshift]
    exact Nat.mod_eq_of_lt (hfit.trans_le hle)
  refine ⟨hlow, hhigh, ?_, hshift, hrest, ?_⟩
  · have hle := mul_halves_le (Halves.of a).high b
    have hlt := (rl a b).isLt
    rw [rh, BitVec.toNat_add, toNat_carry]
    refine Nat.mod_eq_of_lt ?_
    rw [rhProduct, hhigh]
    omega
  · rw [toNat_div_divisor, hrest, hshift]
    exact div_lt_base hrem hcarry

/-! ## What comes of it -/

/-- The upper product with the carry and the lower half of the lower product are the digits of the
product. -/
theorem ofDigits_product (h : Exact a b c) :
    Nat.ofDigits (2 ^ 32) [(rl a b &&& 0xffffffff).toNat, (rh a b).toNat] =
      a.toNat * b.toNat := by
  have hscale := ofDigits_scale (2 ^ 32) b.toNat
    (List.cons_ne_nil (Halves.of a).low.toNat [(Halves.of a).high.toNat]) 0
  rw [ofDigits_halves, Nat.add_zero] at hscale
  rw [← hscale, h.carried, h.upper, toNat_carry, toNat_lower, h.lower]
  rfl

/-- The two divisions are the long division of the product. -/
theorem ofDigits_quotient (h : Exact a b c) (hc : 0 < c.toNat) :
    Nat.ofDigits (2 ^ 32) [(rest a b c / c.setWidth 64).toNat, (rh a b / c.setWidth 64).toNat] =
      a.toNat * b.toNat / c.toNat := by
  have hdivide := ofDigits_divide_fst hc (2 ^ 32)
    [(rl a b &&& 0xffffffff).toNat, (rh a b).toNat]
  rw [ofDigits_product h] at hdivide
  rw [← hdivide, toNat_div_divisor, toNat_div_divisor, h.joined, h.shifted, toNat_mod_divisor]
  simp [divide]

/-- A word is its two halves. -/
theorem Halves.toNat_ll (l : Halves) :
    l.ll.toNat = Nat.ofDigits (2 ^ 32) [l.low.toNat, l.high.toNat] := by
  rw [Halves.ll, BitVec.toNat_append, ← Nat.shiftLeft_add_eq_or_of_lt l.low.isLt,
    Nat.shiftLeft_eq, Nat.ofDigits_cons, Nat.ofDigits_singleton]
  omega

theorem toNat_muldiv64 (hc : 0 < c.toNat) (a : BitVec 64) (b : BitVec 32) :
    (muldiv64 a b c).toNat = a.toNat * b.toNat / c.toNat % 2 ^ 64 := by
  have hexact := exact_of_pos hc a b
  have hlow : (res a b c).low.toNat = (rest a b c / c.setWidth 64).toNat := by
    rw [res, BitVec.toNat_setWidth]
    exact Nat.mod_eq_of_lt hexact.low
  -- only the upper half of the quotient may have more digits than there is room for
  have hhigh : (res a b c).high.toNat = (rh a b / c.setWidth 64).toNat % 2 ^ 32 := by
    rw [res, BitVec.toNat_setWidth]
  have hlt := hexact.low
  rw [muldiv64, Halves.toNat_ll, hlow, hhigh, ← ofDigits_quotient hexact hc]
  simp only [Nat.ofDigits_cons, Nat.ofDigits_nil]
  omega

/-- **`muldiv64` is exact**: it gives the product over the divisor, rounded down, modulo `2 ^ 64`;
no product, sum or shift on the way needs more than 64 bits, and the lower part of the quotient
needs no more than 32. -/
theorem muldiv64_exact (a : BitVec 64) (b c : BitVec 32) (hc : 0 < c.toNat) :
    (muldiv64 a b c).toNat = a.toNat * b.toNat / c.toNat % 2 ^ 64 ∧ Exact a b c :=
  ⟨toNat_muldiv64 hc a b, exact_of_pos hc a b⟩

/-- The theorem at the edge: the largest operands, over the least divisor. -/
theorem muldiv64_exact_max :
    (muldiv64 (-1) (-1) 1).toNat = (2 ^ 64 - 1) * (2 ^ 32 - 1) / 1 % 2 ^ 64 ∧
      Exact (-1) (-1) 1 :=
  muldiv64_exact (-1) (-1) 1 (by decide)

end Muldiv

/-! ## The deadlines -/

/-- `get_ticks_per_sec()`, as `muldiv64` gets it. -/
def ticksPerSec : BitVec 32 := BitVec.ofInt 32 getTicksPerSec

/-- **What the model of the ports divides is what the computation divides.** -/
theorem muldiv64_eq (a : BitVec 64) (b : BitVec 32) {c : BitVec 32} (hc : 0 < c.toNat) :
    muldiv64 a b.toNat c.toNat = Muldiv.muldiv64 a b c := by
  refine BitVec.eq_of_toNat_eq ?_
  rw [muldiv64, BitVec.toNat_ofNat, Muldiv.toNat_muldiv64 hc]

/-- From nanoseconds to ticks. -/
theorem muldiv64_ticks (time : BitVec 64) :
    muldiv64 time 32768 getTicksPerSec.toNat = Muldiv.muldiv64 time 32768 ticksPerSec :=
  muldiv64_eq (c := ticksPerSec) time 32768 (by decide)

/-- From ticks to nanoseconds. -/
theorem muldiv64_nanoseconds (ticks : BitVec 64) :
    muldiv64 ticks getTicksPerSec.toNat 32768 = Muldiv.muldiv64 ticks ticksPerSec 32768 :=
  muldiv64_eq (c := 32768) ticks ticksPerSec (by decide)

/-- **The next deadline of the periodic interrupt**, as `rtc_timer_update` computes it. -/
theorem nextPeriod_eq (period : ℕ) (currentTime : BitVec 64) :
    nextPeriod period currentTime =
      Muldiv.muldiv64 ((Muldiv.muldiv64 currentTime 32768 ticksPerSec &&&
        ~~~BitVec.ofNat 64 (period - 1)) + BitVec.ofNat 64 period) ticksPerSec 32768 + 1 := by
  rw [nextPeriod, muldiv64_ticks, muldiv64_nanoseconds]

/-- The deadline of the timer for the interrupts that the guest was too slow for. -/
theorem rtcCoalescedTimerUpdate_eq {s : RTCDevice} (h : s.irqCoalesced ≠ 0) (now : BitVec 64) :
    rtcCoalescedTimerUpdate s now = s.request (.coalescedTimer (now +
      Muldiv.muldiv64 (BitVec.ofNat 64 (s.period.toNat / (min s.irqCoalesced.toNat 7 + 1)))
        ticksPerSec 32768)) := by
  rw [rtcCoalescedTimerUpdate, if_neg h]
  dsimp only
  rw [muldiv64_nanoseconds]

end Rtc
end CamkesVm
