import Mathlib.Data.List.Basic

/-!
# Words and what is lost when two of them are joined

Two words that are written one behind the other can only be told apart by the place where the first
one ends.  This file says exactly how much is lost without it.

* Two joined pairs of words are the same word if they are the same pair, or if one of them is the
  other with its joint moved over a block (`append_eq_append_iff_shifted`).
* A pair and the pair the other way round give the same word exactly if both of its words are
  repetitions of one block (`append_comm_iff`).

## How it is used

Keys that are made by writing one number behind the other collide exactly where these two statements
say. Numbers are words of digits without a leading zero, so the block that is moved over the joint
is found by comparing lengths, and for two numbers of equal length there is none.

The letters are of any type. `List.append_eq_append_iff` of the core library gives the block that is
moved; the second statement is an induction on the sum of the lengths, in which the shorter word is
taken off the longer one, and what remains of it commutes with the shorter
(`exists_repeated_of_append_comm`).
-/

set_option autoImplicit false

namespace Words

universe u

variable {α : Type u} {u v x y w : List α}

/-! ## Moving the joint -/

/-- The pair `(x, y)` is the pair `(u, v)` with a block moved from the second word to the first. -/
def Shifted (u v x y : List α) : Prop := ∃ w, w ≠ [] ∧ x = u ++ w ∧ v = w ++ y

theorem Shifted.append_eq (h : Shifted u v x y) : u ++ v = x ++ y := by
  obtain ⟨w, -, rfl, rfl⟩ := h
  rw [List.append_assoc]

/-- Moving the joint makes the first word longer. -/
theorem Shifted.length_lt (h : Shifted u v x y) : u.length < x.length := by
  obtain ⟨w, hw, rfl, -⟩ := h
  have hpos := List.length_pos_of_ne_nil hw
  rw [List.length_append]
  omega

theorem Shifted.ne (h : Shifted u v x y) : u ≠ x := by
  intro hux
  exact Nat.ne_of_lt h.length_lt (congrArg List.length hux)

/-- **Two joined pairs are the same word** if they are the same pair, or one has its joint further
on. -/
theorem append_eq_append_iff_shifted :
    u ++ v = x ++ y ↔ (u = x ∧ v = y) ∨ Shifted u v x y ∨ Shifted x y u v := by
  constructor
  · intro h
    rcases List.append_eq_append_iff.mp h with ⟨w, hx, hv⟩ | ⟨w, hu, hy⟩
    · by_cases hw : w = []
      · rw [hw] at hx hv
        exact .inl ⟨by simpa using hx.symm, hv⟩
      · exact .inr (.inl ⟨w, hw, hx, hv⟩)
    · by_cases hw : w = []
      · rw [hw] at hu hy
        exact .inl ⟨by simpa using hu, hy.symm⟩
      · exact .inr (.inr ⟨w, hw, hu, hy⟩)
  · rintro (⟨rfl, rfl⟩ | h | h)
    · rfl
    · exact h.append_eq
    · exact h.append_eq.symm

/-! ## Repetitions of a block -/

/-- A block written a number of times. -/
def repeated (w : List α) (n : ℕ) : List α := (List.replicate n w).flatten

theorem repeated_add (w : List α) (m n : ℕ) :
    repeated w (m + n) = repeated w m ++ repeated w n := by
  rw [repeated, repeated, repeated, ← List.flatten_append, List.replicate_append_replicate]

/-- Repetitions of one block commute. -/
theorem repeated_comm (w : List α) (m n : ℕ) :
    repeated w m ++ repeated w n = repeated w n ++ repeated w m := by
  rw [← repeated_add, ← repeated_add, Nat.add_comm]

/-- Two words that commute are repetitions of one block.  The induction is on the lengths: if
neither word is empty, the longer one begins with the other, and what remains of it commutes with
the shorter. -/
theorem exists_repeated_of_append_comm :
    ∀ k (u v : List α), u.length + v.length ≤ k → u ++ v = v ++ u →
      ∃ w m n, u = repeated w m ∧ v = repeated w n := by
  intro k
  induction k with
  | zero =>
    intro u v hk _
    have hu : u = [] := List.length_eq_zero_iff.mp (by omega)
    have hv : v = [] := List.length_eq_zero_iff.mp (by omega)
    exact ⟨[], 0, 0, hu, hv⟩
  | succ k ih =>
    intro u v hk h
    by_cases hu : u = []
    · exact ⟨v, 0, 1, hu, by simp [repeated]⟩
    · by_cases hv : v = []
      · exact ⟨u, 1, 0, by simp [repeated], hv⟩
      · have hulen := List.length_pos_of_ne_nil hu
        have hvlen := List.length_pos_of_ne_nil hv
        rcases List.append_eq_append_iff.mp h with ⟨r, hr, hr'⟩ | ⟨r, hr, hr'⟩
        · -- `v` is `u` with `r` behind it, and also with `r` in front
          have hlen : u.length + r.length ≤ k := by
            have := congrArg List.length hr
            rw [List.length_append] at this
            omega
          obtain ⟨w, m, n, hum, hrn⟩ := ih u r hlen (hr.symm.trans hr')
          exact ⟨w, m, m + n, hum, by rw [hr, repeated_add, ← hum, ← hrn]⟩
        · have hlen : v.length + r.length ≤ k := by
            have := congrArg List.length hr
            rw [List.length_append] at this
            omega
          obtain ⟨w, n, m, hvn, hrm⟩ := ih v r hlen (hr.symm.trans hr')
          exact ⟨w, n + m, n, by rw [hr, repeated_add, ← hvn, ← hrm], hvn⟩

/-- **Two words commute exactly if they are repetitions of one block.** -/
theorem append_comm_iff :
    u ++ v = v ++ u ↔ ∃ w m n, u = repeated w m ∧ v = repeated w n := by
  constructor
  · exact exists_repeated_of_append_comm _ u v (Nat.le_refl _)
  · rintro ⟨w, m, n, rfl, rfl⟩
    exact repeated_comm w m n

end Words
