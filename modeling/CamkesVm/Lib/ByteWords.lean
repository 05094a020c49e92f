import Mathlib.Data.List.Basic

/-!
# Words and the bytes they are made of

A word is its bytes, the least significant one first: `ofBytes` puts a word together and `byte`
takes it apart, and as long as the word is no wider than its bytes two words are equal if their
bytes are (`eq_of_byte_eq`).  `overlay` is what a copy of a few bytes into the middle of others
leaves behind.

## What is here

* `byte i x` — byte `i` of a word, and `eq_of_byte_eq`: two words of no more bits than their bytes
  have are equal if their bytes are. This is the direction a proof uses, since it turns an equation
  of words into one equation for each byte.
* `ofBytes n f` — the word made of the first `n` values of `f`. Its bytes are those values
  (`byte_ofBytes`), so taking apart and putting together are inverse to each other.
* `overlay` — the bytes after a copy, with the cases inside and outside of what was copied.

Bytes and words are numbered and cut as they lie in a little-endian memory, and the width of the
word is a parameter; nothing is evaluated bit by bit.
-/

set_option autoImplicit false

namespace ByteWords

universe u

variable {w : ℕ}

/-! ## Taking a word apart -/

/-- Byte `i` of a word. -/
def byte (x : BitVec w) (i : ℕ) : BitVec 8 := x.extractLsb' (8 * i) 8

theorem getLsbD_byte (x : BitVec w) (i : ℕ) {j : ℕ} (hj : j < 8) :
    (byte x i).getLsbD j = x.getLsbD (8 * i + j) := by
  rw [byte, BitVec.getLsbD_extractLsb', decide_eq_true hj, Bool.true_and]

/-- The first byte of a word. -/
theorem byte_zero (x : BitVec w) : byte x 0 = x.setWidth 8 := by
  refine BitVec.eq_of_getLsbD_eq fun j hj ↦ ?_
  rw [getLsbD_byte _ _ hj, BitVec.getLsbD_setWidth, decide_eq_true hj, Nat.mul_zero, Nat.zero_add,
    Bool.true_and]

theorem byte_and (x y : BitVec w) (i : ℕ) : byte (x &&& y) i = byte x i &&& byte y i := by
  refine BitVec.eq_of_getLsbD_eq fun j hj ↦ ?_
  rw [BitVec.getLsbD_and, getLsbD_byte _ _ hj, getLsbD_byte _ _ hj, getLsbD_byte _ _ hj,
    BitVec.getLsbD_and]

/-- **A word is its bytes**, if it has no more bits than they have. -/
theorem eq_of_byte_eq {n : ℕ} (hw : w ≤ 8 * n) {x y : BitVec w}
    (h : ∀ i, i < n → byte x i = byte y i) : x = y := by
  refine BitVec.eq_of_getLsbD_eq fun j hj ↦ ?_
  have hbit := congrArg (fun b : BitVec 8 ↦ b.getLsbD (j % 8)) (h (j / 8) (by omega))
  have hmod : j % 8 < 8 := Nat.mod_lt _ (by decide)
  simpa only [getLsbD_byte _ _ hmod, Nat.div_add_mod] using hbit

/-! ## Putting one together -/

/-- The word made of `n` bytes. -/
def ofBytes (w : ℕ) (f : ℕ → BitVec 8) : ℕ → BitVec w
  | 0 => 0
  | n + 1 => ofBytes w f n ||| (f n).setWidth w <<< (8 * n)

theorem getLsbD_ofBytes (f : ℕ → BitVec 8) (n j : ℕ) : (ofBytes w f n).getLsbD j =
    (decide (j < w) && decide (j < 8 * n) && (f (j / 8)).getLsbD (j % 8)) := by
  induction n with
  | zero => simp [ofBytes]
  | succ n ih =>
    rw [ofBytes, BitVec.getLsbD_or, ih, BitVec.getLsbD_shiftLeft, BitVec.getLsbD_setWidth]
    by_cases hw : j < w
    · rcases Nat.lt_trichotomy (j / 8) n with hlt | rfl | hgt
      · have h₁ : j < 8 * n := by omega
        have h₂ : j < 8 * (n + 1) := by omega
        simp [hw, h₁, h₂]
      · -- the bit is one of the byte that was added
        have h₁ : ¬j < 8 * (j / 8) := by omega
        have h₂ : j < 8 * (j / 8 + 1) := by omega
        have h₃ : j - 8 * (j / 8) = j % 8 := by omega
        have h₄ : j % 8 < w := by omega
        simp [hw, h₁, h₂, h₃, h₄]
      · have h₁ : ¬j < 8 * n := by omega
        have h₂ : ¬j < 8 * (n + 1) := by omega
        have h₃ : (f n).getLsbD (j - 8 * n) = false := BitVec.getLsbD_of_ge _ _ (by omega)
        simp [h₁, h₂, h₃]
    · simp [hw]

/-- Taking it apart again. -/
theorem byte_ofBytes (f : ℕ → BitVec 8) {n i : ℕ} (hw : 8 * n ≤ w) (hi : i < n) :
    byte (ofBytes w f n) i = f i := by
  refine BitVec.eq_of_getLsbD_eq fun j hj ↦ ?_
  have h₁ : 8 * i + j < w := by omega
  have h₂ : 8 * i + j < 8 * n := by omega
  have h₃ : (8 * i + j) / 8 = i := by omega
  have h₄ : (8 * i + j) % 8 = j := by omega
  rw [getLsbD_byte _ _ hj, getLsbD_ofBytes, h₃, h₄, decide_eq_true h₁, decide_eq_true h₂,
    Bool.true_and, Bool.true_and]

/-- Only the bytes it is made of matter. -/
theorem ofBytes_congr {f g : ℕ → BitVec 8} {n : ℕ} (h : ∀ i, i < n → f i = g i) :
    ofBytes w f n = ofBytes w g n := by
  induction n with
  | zero => rfl
  | succ n ih => rw [ofBytes, ofBytes, ih fun i hi ↦ h i (by omega), h n (by omega)]

/-! ## Copying bytes -/

section

variable {α : Type u}

/-- `dst` after `len` values of `src` are copied into it from `pos` on. -/
def overlay (dst : ℕ → α) (pos : ℕ) (src : ℕ → α) (len : ℕ) : ℕ → α := fun k ↦
  if pos ≤ k ∧ k < pos + len then src (k - pos) else dst k

theorem overlay_of_mem (dst : ℕ → α) {pos : ℕ} (src : ℕ → α) {len k : ℕ}
    (h : pos ≤ k ∧ k < pos + len) : overlay dst pos src len k = src (k - pos) := if_pos h

theorem overlay_of_not_mem (dst : ℕ → α) {pos : ℕ} (src : ℕ → α) {len k : ℕ}
    (h : ¬(pos ≤ k ∧ k < pos + len)) : overlay dst pos src len k = dst k := if_neg h

end

end ByteWords
