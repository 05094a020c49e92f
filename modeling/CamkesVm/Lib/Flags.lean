import Mathlib.Data.BitVec

/-!
# Flags in a word

Setting and clearing some bits of a word, and testing others: the test sees what was set or cleared
if it is about those bits, and what was there before if it is about other ones.

## What is here

Four rules for one word, one mask that is set or cleared, and one that is tested:
`or_and_of_disjoint` and `and_and_of_disjoint` where the two masks have no bit in common,
`or_and_of_subset` and `and_and_of_subset` where the tested bits are among the others. The side
conditions are closed words, so `decide` proves them, and nothing has to be evaluated over all
values of the word.

`toNat_and_not_low` goes with them: clearing the low bits of an address rounds it down to a
multiple.
-/

set_option autoImplicit false

namespace Flags

variable {w : ℕ} (x : BitVec w) {m k : BitVec w}

/-- Setting other bits. -/
theorem or_and_of_disjoint (h : m &&& k = 0) : (x ||| m) &&& k = x &&& k := by
  rw [BitVec.and_or_distrib_right, h]
  simp

/-- Clearing other bits. -/
theorem and_and_of_subset (h : m &&& k = k) : (x &&& m) &&& k = x &&& k := by
  rw [BitVec.and_assoc, h]

/-- Setting the bits themselves. -/
theorem or_and_of_subset (h : m &&& k = k) : (x ||| m) &&& k = k := by
  rw [BitVec.and_or_distrib_right, h]
  ext i hi
  simp only [BitVec.getElem_or, BitVec.getElem_and]
  cases x[i] <;> cases k[i] <;> rfl

/-- Clearing the bits themselves. -/
theorem and_and_of_disjoint (h : m &&& k = 0) : (x &&& m) &&& k = 0 := by
  rw [BitVec.and_assoc, h]
  simp

/-- **Rounding down**: clearing the low bits gives the multiple of their number below. -/
theorem toNat_and_not_low (j : ℕ) :
    (x &&& ~~~BitVec.ofNat w (2 ^ j - 1)).toNat = x.toNat / 2 ^ j * 2 ^ j := by
  have hshift : x &&& ~~~BitVec.ofNat w (2 ^ j - 1) = (x >>> j) <<< j := by
    refine BitVec.eq_of_getLsbD_eq fun i hi ↦ ?_
    simp only [BitVec.getLsbD_and, BitVec.getLsbD_not, BitVec.getLsbD_ofNat, hi, decide_true,
      Bool.true_and, BitVec.getLsbD_shiftLeft, BitVec.getLsbD_ushiftRight,
      Nat.testBit_two_pow_sub_one]
    by_cases h : i < j
    · simp [h]
    · simp [h, Nat.add_sub_cancel' (Nat.le_of_not_lt h)]
  have hle : x.toNat / 2 ^ j * 2 ^ j ≤ x.toNat := Nat.div_mul_le_self _ _
  rw [hshift, BitVec.toNat_shiftLeft, BitVec.toNat_ushiftRight, Nat.shiftLeft_eq,
    Nat.shiftRight_eq_div_pow, Nat.mod_eq_of_lt (hle.trans_lt x.isLt)]

/-- Two words that differ in none of some bits agree on each of them. -/
theorem and_eq_of_xor_and {y : BitVec w} (h : (x ^^^ y) &&& m = 0) (hk : m &&& k = k) :
    x &&& k = y &&& k := by
  have hbool : ∀ a b c : Bool, ((a ^^ b) && c) = false → (a && c) = (b && c) := by decide
  have hm : x &&& m = y &&& m := by
    refine BitVec.eq_of_getLsbD_eq fun i _ ↦ ?_
    have hbit : ((x ^^^ y) &&& m).getLsbD i = false := by
      rw [h]
      exact BitVec.getLsbD_zero
    rw [BitVec.getLsbD_and, BitVec.getLsbD_xor] at hbit
    rw [BitVec.getLsbD_and, BitVec.getLsbD_and]
    exact hbool _ _ _ hbit
  rw [← hk, ← BitVec.and_assoc, hm, BitVec.and_assoc]

end Flags
