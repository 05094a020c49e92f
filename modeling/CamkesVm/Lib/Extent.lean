import Mathlib.Data.Set.Basic

/-!
# Extents

An extent is a stretch of consecutive places: blocks of a disk, bytes of a memory.  What is said
here about extents is what one needs to follow a request that starts inside an extent somebody owns
and may run on behind its end.

## What is here

* `Extent` — first place and length; membership is a pair of inequalities (`mem_def`), and `past` is
  the first place behind it.
* `Apart` — no place is in both.
* `forall_mem` — a property of all places of an extent is one of all offsets into it.
* `forall_mem_iff_past` — the rule for a request that starts in an extent `e`: if all of `e` has a
  property, the request has it as soon as the part of it behind `e` has.

Lengths may be zero, and an empty extent is apart from every other. Places are natural numbers, so
an extent does not wrap round; where the numbers of a program do, that is for the program to say.
-/

set_option autoImplicit false

/-- The places `first, …, first + length - 1`. -/
structure Extent where
  /-- The first place. -/
  first : ℕ
  /-- How many places there are. -/
  length : ℕ
  deriving DecidableEq, Repr

namespace Extent

/-- The first place behind the extent. -/
def past (e : Extent) : ℕ := e.first + e.length

instance : Membership ℕ Extent := ⟨fun e x ↦ e.first ≤ x ∧ x < e.past⟩

theorem mem_def {e : Extent} {x : ℕ} : x ∈ e ↔ e.first ≤ x ∧ x < e.first + e.length := Iff.rfl

theorem mem_mk {first length x : ℕ} :
    x ∈ Extent.mk first length ↔ first ≤ x ∧ x < first + length := Iff.rfl

instance (e : Extent) (x : ℕ) : Decidable (x ∈ e) :=
  inferInstanceAs (Decidable (e.first ≤ x ∧ x < e.past))

/-- No place is in both. -/
def Apart (e e' : Extent) : Prop := ∀ x ∈ e, x ∉ e'

/-- The places of an extent, counted from its first. -/
theorem forall_mem {e : Extent} {Q : ℕ → Prop} :
    (∀ x ∈ e, Q x) ↔ ∀ i < e.length, Q (e.first + i) := by
  refine ⟨fun h i hi ↦ ?_, fun h x hx ↦ ?_⟩
  · exact h _ (mem_def.2 ⟨by omega, by omega⟩)
  · obtain ⟨hlo, hhi⟩ := mem_def.1 hx
    have := h (x - e.first) (by omega)
    rwa [Nat.add_sub_cancel' hlo] at this

/-- **A run that starts in an extent is decided by what is behind the extent.**  Where all of `e`
has the property, all of `r` has it as soon as the part of `r` behind `e` does. -/
theorem forall_mem_iff_past {e r : Extent} {Q : ℕ → Prop} (hfirst : e.first ≤ r.first)
    (he : ∀ x ∈ e, Q x) : (∀ x ∈ r, Q x) ↔ ∀ x ∈ r, e.past ≤ x → Q x := by
  refine ⟨fun h x hx _ ↦ ?_, fun h x hx ↦ ?_⟩
  · exact h x hx
  · rcases Nat.lt_or_ge x e.past with hlt | hge
    · exact he x ⟨Nat.le_trans hfirst hx.1, hlt⟩
    · exact h x hx hge

end Extent
