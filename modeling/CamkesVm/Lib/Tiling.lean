import CamkesVm.Lib.Extent
import Mathlib

/-!
# Tilings

Extents tile a stretch of places when every place of the stretch is in one of them, no other place
is, and no two of them overlap.  An allocator that cuts a range into blocks promises this of the
blocks, and a layout that puts one extent behind the other has it by construction (`Chain.tiling`).

Blocks cut from several ranges, one range after the other, cover what the ranges cover
(`covered_flatMap_iff`) and overlap exactly where the ranges do (`pairwise_apart_flatMap_iff`).

## What is here

* `Covered`, `Tiling` — what extents cover, and when they tile the places from `lo` to `hi`.
* `Chain` — each extent starts where the one before it ends, which is what a loop that lays extents
  out maintains; `Chain.tiling` is what it has achieved in the end.
* `covered_flatMap_iff`, `pairwise_apart_flatMap_iff` — blocks cut from several ranges.

The cutter is a parameter of the last two: all that is used of it is that it tiles each range, so
they hold whatever sizes it chooses.
-/

set_option autoImplicit false

namespace Extent

/-- The place is in one of the extents. -/
def Covered (es : List Extent) (x : ℕ) : Prop := ∃ e ∈ es, x ∈ e

theorem covered_cons {e : Extent} {es : List Extent} {x : ℕ} :
    Covered (e :: es) x ↔ x ∈ e ∨ Covered es x := by
  simp [Covered]

/-- The extents tile the places from `lo` up to `hi`. -/
structure Tiling (es : List Extent) (lo hi : ℕ) : Prop where
  /-- They cover these places and no others. -/
  covered_iff : ∀ x, Covered es x ↔ lo ≤ x ∧ x < hi
  /-- They do not overlap. -/
  apart : es.Pairwise Extent.Apart

theorem Apart.symm {e e' : Extent} (h : e.Apart e') : e'.Apart e := fun x hx' hx ↦ h x hx hx'

/-- Where no two extents of a list overlap, a place is in one of them only. -/
theorem eq_of_mem_of_pairwise {α : Type*} {l : List α} {f : α → Extent}
    (h : (l.map f).Pairwise Extent.Apart) {a b : α} (ha : a ∈ l) (hb : b ∈ l) {x : ℕ}
    (hxa : x ∈ f a) (hxb : x ∈ f b) : a = b := by
  have : Std.Symm fun a b ↦ (f a).Apart (f b) := ⟨fun _ _ hab ↦ hab.symm⟩
  by_contra hne
  exact (List.pairwise_map.1 h).forall ha hb hne x hxa hxb

/-! ## One extent behind the other -/

/-- Each extent starts where the one before it ends, from `lo` to `hi`. -/
def Chain : ℕ → List Extent → ℕ → Prop
  | lo, [], hi => lo = hi
  | lo, e :: es, hi => e.first = lo ∧ Chain e.past es hi

theorem Chain.le {lo hi : ℕ} {es : List Extent} (h : Chain lo es hi) : lo ≤ hi := by
  induction es generalizing lo with
  | nil => exact Nat.le_of_eq h
  | cons e es ih =>
    obtain ⟨rfl, hrest⟩ := h
    exact Nat.le_trans (Nat.le_add_right _ _) (ih hrest)

/-- **Extents laid one behind the other tile** what lies between the two ends. -/
theorem Chain.tiling {lo hi : ℕ} {es : List Extent} (h : Chain lo es hi) : Tiling es lo hi := by
  induction es generalizing lo with
  | nil =>
    obtain rfl : lo = hi := h
    refine ⟨fun x ↦ ?_, .nil⟩
    simp only [Covered, List.not_mem_nil, false_and, exists_false, false_iff]
    omega
  | cons e es ih =>
    obtain ⟨rfl, hrest⟩ := h
    have htiling := ih hrest
    have hpast : e.first ≤ e.past := Nat.le_add_right _ _
    have hle := hrest.le
    refine ⟨fun x ↦ ?_, List.pairwise_cons.2 ⟨fun e' he' x hx hx' ↦ ?_, htiling.apart⟩⟩
    · rw [covered_cons, htiling.covered_iff]
      change (e.first ≤ x ∧ x < e.past) ∨ _ ↔ _
      omega
    · have hlo := ((htiling.covered_iff x).1 ⟨e', he', hx'⟩).1
      exact absurd hx.2 (Nat.not_lt.2 hlo)

/-! ## Blocks cut from several ranges -/

section

variable {α : Type*} {ranges : List α} {range : α → Extent} {blocks : α → List Extent}

/-- The blocks cover what the ranges cover. -/
theorem covered_flatMap_iff
    (h : ∀ r ∈ ranges, Tiling (blocks r) (range r).first (range r).past) (x : ℕ) :
    Covered (ranges.flatMap blocks) x ↔ ∃ r ∈ ranges, x ∈ range r := by
  simp only [Covered, List.mem_flatMap]
  constructor
  · rintro ⟨e, ⟨r, hr, he⟩, hx⟩
    exact ⟨r, hr, ((h r hr).covered_iff x).1 ⟨e, he, hx⟩⟩
  · rintro ⟨r, hr, hx⟩
    obtain ⟨e, he, hxe⟩ := ((h r hr).covered_iff x).2 hx
    exact ⟨e, ⟨r, hr, he⟩, hxe⟩

/-- **The blocks overlap exactly where the ranges do.** -/
theorem pairwise_apart_flatMap_iff
    (h : ∀ r ∈ ranges, Tiling (blocks r) (range r).first (range r).past) :
    (ranges.flatMap blocks).Pairwise Extent.Apart ↔
      (ranges.map range).Pairwise Extent.Apart := by
  rw [List.pairwise_flatMap, List.pairwise_map]
  have hcross : ∀ r ∈ ranges, ∀ r' ∈ ranges,
      ((∀ e ∈ blocks r, ∀ e' ∈ blocks r', e.Apart e') ↔ (range r).Apart (range r')) := by
    intro r hr r' hr'
    constructor
    · intro hblocks x hx hx'
      obtain ⟨e, he, hxe⟩ := ((h r hr).covered_iff x).2 hx
      obtain ⟨e', he', hxe'⟩ := ((h r' hr').covered_iff x).2 hx'
      exact hblocks e he e' he' x hxe hxe'
    · intro hrange e he e' he' x hx hx'
      exact hrange x (((h r hr).covered_iff x).1 ⟨e, he, hx⟩)
        (((h r' hr').covered_iff x).1 ⟨e', he', hx'⟩)
  rw [and_iff_right fun r hr ↦ (h r hr).apart]
  exact List.Pairwise.iff_of_mem fun {r r'} hr hr' ↦ hcross r hr r' hr'

end

end Extent
