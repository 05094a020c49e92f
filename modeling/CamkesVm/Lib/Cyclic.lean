import Mathlib.Data.List.Basic
import Mathlib.Data.Nat.ModEq
import Mathlib.Logic.Function.Basic

/-!
# Windows of a cyclic buffer

A cyclic buffer of `n` slots is a function from slot numbers to values together with the rule that
slot numbers are read modulo `n`.  What such a buffer *holds* is a window: the values of `len`
consecutive slots from some position on.  This file has the facts every queue over a cyclic buffer
needs, whatever bookkeeping it uses for its ends:

* taking the first value off moves the window by one (`window_succ`);
* storing a value in the slot just past a window that is not full extends it, and disturbs nothing
  that was in it (`window_update_succ`);
* storing a value over the oldest one of a full window disturbs no other (`tail_window_update`);
* a queue that keeps its two ends as slot numbers, and not as a length, reads the length back off
  them with `span` — correctly as long as it never holds `n` values (`span_mod`).

The last restriction is real: `span` cannot tell a full buffer from an empty one.

## How it is used

A queue gives its contents as `window n buf head (span n head tail)`, or with a length in place of
the span, and each operation is then a rewriting of windows: a get is `window_succ`, a put is
`window_update_succ`, and advancing an end is `span_succ_left` or `span_succ_right`, which say by
how much the length changes. The slot behind a window that is not full is told apart from those in
it with `slot_ne`.

Nothing is said of the values, and the function from slots to values is total: the slots beyond the
buffer are simply never looked at.
-/

set_option autoImplicit false

namespace Cyclic

universe u

variable {α : Type u} {n : ℕ}

/-- The `len` consecutive values from slot `pos` on, slots counted modulo `n`. -/
def window (n : ℕ) (buf : ℕ → α) (pos len : ℕ) : List α :=
  (List.range len).map fun j ↦ buf ((pos + j) % n)

@[simp] theorem length_window (buf : ℕ → α) (pos len : ℕ) :
    (window n buf pos len).length = len := by
  simp [window]

@[simp] theorem window_zero (buf : ℕ → α) (pos : ℕ) : window n buf pos 0 = [] := rfl

/-- Only the position modulo `n` matters. -/
theorem window_mod (buf : ℕ → α) (pos len : ℕ) :
    window n buf (pos % n) len = window n buf pos len := by
  simp [window, Nat.mod_add_mod]

/-- **Taking off the first value** leaves the window one slot further on. -/
theorem window_succ (buf : ℕ → α) (pos len : ℕ) :
    window n buf pos (len + 1) = buf (pos % n) :: window n buf (pos + 1) len := by
  simp [window, List.range_succ_eq_map, Nat.add_assoc, Nat.add_comm 1, Function.comp_def]

theorem window_succ' (buf : ℕ → α) (pos len : ℕ) :
    window n buf pos (len + 1) = window n buf pos len ++ [buf ((pos + len) % n)] := by
  simp [window, List.range_succ]

/-- Two slots of a window of at most `n` slots are different slots. -/
theorem slot_ne {pos j k : ℕ} (hjk : j < k) (hk : k < n) : (pos + j) % n ≠ (pos + k) % n := by
  intro h
  have hmod : j ≡ k [MOD n] := Nat.ModEq.add_left_cancel' pos h
  have hjk' := Nat.ModEq.eq_of_lt_of_lt hmod (hjk.trans hk) hk
  omega

/-- Storing past the end of a window that is not full disturbs nothing in it. -/
theorem window_update (buf : ℕ → α) {pos len : ℕ} (x : α) (h : len < n) :
    window n (Function.update buf ((pos + len) % n) x) pos len = window n buf pos len := by
  refine List.map_congr_left fun j hj ↦ ?_
  rw [List.mem_range] at hj
  rw [Function.update_of_ne (slot_ne hj h)]

/-- **Storing past the end of a window that is not full extends it.** -/
theorem window_update_succ (buf : ℕ → α) {pos len : ℕ} (x : α) (h : len < n) :
    window n (Function.update buf ((pos + len) % n) x) pos (len + 1)
      = window n buf pos len ++ [x] := by
  rw [window_succ', window_update buf x h, Function.update_self]

/-- **Storing over the first value of a window of all slots** changes no other value. -/
theorem tail_window_update (buf : ℕ → α) (pos : ℕ) (x : α) :
    (window n (Function.update buf (pos % n) x) pos n).tail = (window n buf pos n).tail := by
  cases n with
  | zero => rfl
  | succ m =>
    -- the first slot is also the one past the end of the others
    have hslot : pos % (m + 1) = (pos + 1 + m) % (m + 1) := by
      rw [Nat.add_assoc, Nat.add_comm 1, Nat.add_mod_right]
    rw [window_succ, window_succ, List.tail_cons, List.tail_cons, hslot]
    exact window_update buf x (Nat.lt_succ_self m)

/-- How many slots there are from slot `pos` up to slot `stop`, walking forward modulo `n`. -/
def span (n pos stop : ℕ) : ℕ := (stop + n - pos) % n

/-- **The two ends determine the length** of a window that is not full. -/
theorem span_mod {d f : ℕ} (hdf : d ≤ f) (hf : f < d + n) : span n (d % n) (f % n) = f - d := by
  have hn : 0 < n := by omega
  have hd : d % n < n := Nat.mod_lt _ hn
  have key : (f % n + n - d % n) ≡ f - d [MOD n] := by
    have h1 : (f % n + n - d % n) + d ≡ (f - d) + d [MOD n] := by
      calc (f % n + n - d % n) + d ≡ (f % n + n - d % n) + d % n [MOD n] :=
            Nat.ModEq.add_left _ (Nat.mod_modEq d n).symm
        _ = f % n + n := by omega
        _ ≡ f [MOD n] := by simp [Nat.ModEq]
        _ = (f - d) + d := by omega
    exact Nat.ModEq.add_right_cancel' d h1
  rw [span, key, Nat.mod_eq_of_lt (by omega)]

/-- The length read off two ends is less than the number of slots. -/
theorem span_lt (hn : 0 < n) (pos stop : ℕ) : span n pos stop < n := Nat.mod_lt _ hn

/-- Walking that far from one end leads to the other. -/
theorem add_span_mod {pos stop : ℕ} (hp : pos < n) (hs : stop < n) :
    (pos + span n pos stop) % n = stop := by
  rw [span, Nat.add_mod_mod, show pos + (stop + n - pos) = stop + n by omega, Nat.add_mod_right,
    Nat.mod_eq_of_lt hs]

/-- Nothing lies between two ends exactly when they are the same slot. -/
theorem span_eq_zero_iff {pos stop : ℕ} (hp : pos < n) (hs : stop < n) :
    span n pos stop = 0 ↔ pos = stop := by
  refine ⟨fun h ↦ ?_, fun h ↦ ?_⟩
  · have hend := add_span_mod hp hs
    rwa [h, Nat.add_zero, Nat.mod_eq_of_lt hp] at hend
  · rw [span, h, Nat.add_sub_cancel_left, Nat.mod_self]

/-- Moving the first end on by one shortens a window that is not empty. -/
theorem span_succ_left {pos stop : ℕ} (hp : pos < n) (hs : stop < n) (hne : pos ≠ stop) :
    span n pos stop = span n ((pos + 1) % n) stop + 1 := by
  have hlt := span_lt (n := n) (by omega) pos stop
  have hpos : span n pos stop ≠ 0 := fun h ↦ hne ((span_eq_zero_iff hp hs).mp h)
  have hend := add_span_mod hp hs
  have key := span_mod (n := n) (d := pos + 1) (f := pos + span n pos stop) (by omega) (by omega)
  rw [hend] at key
  omega

/-- Moving the second end on by one makes a window longer, if one slot more than it holds is
free. -/
theorem span_succ_right {pos stop : ℕ} (hp : pos < n) (hs : stop < n)
    (hne : (stop + 1) % n ≠ pos) : span n pos ((stop + 1) % n) = span n pos stop + 1 := by
  have hlt := span_lt (n := n) (by omega) pos stop
  have hend := add_span_mod hp hs
  have hnext : (pos + (span n pos stop + 1)) % n = (stop + 1) % n := by
    rw [← Nat.add_assoc, Nat.add_mod, hend, Nat.add_mod_mod]
  have hroom : span n pos stop + 1 < n := by
    by_contra hno
    have heq : span n pos stop + 1 = n := by omega
    rw [heq, Nat.add_mod_right, Nat.mod_eq_of_lt hp] at hnext
    exact hne hnext.symm
  have key := span_mod (n := n) (d := pos) (f := pos + (span n pos stop + 1)) (by omega) (by omega)
  rw [Nat.mod_eq_of_lt hp, hnext] at key
  omega

end Cyclic
