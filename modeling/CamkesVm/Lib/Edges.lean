import Mathlib.Data.List.Basic
import Mathlib.Logic.Function.Iterate

/-!
# Rising edges

A system steps by a function, and at each state something can be read off it: a level, and a label
for the step about to be taken.  `rises` lists the labels of the steps that raise the level from 0
to 1.  The list only grows as more steps are taken, so the `k`-th entry, once there, is what it is
(`eq_of_rises`), and a simulation carries the list of one system over to another (`rises_map`).

## How it is used

To compare two systems that raise their levels at different times, one proves that they do the same
between two edges and lets `rises_map` turn the simulation into an equality of the two lists. To
compute one edge, one runs the system up to it once; `eq_of_rises` then says that no longer run
gives another answer.

A level that is raised while it is high already is no edge, and the lowering of the level is not
recorded at all, since whoever counts the edges does not see it.
-/

set_option autoImplicit false

namespace Edges

universe u v

variable {σ σ' : Type u} {τ τ' : Type v}

/-- The labels of the steps, among the first `m`, that raise the level from 0 to 1. -/
def rises (level : σ → ℕ) (label : σ → τ) (f : σ → σ) (s : σ) : ℕ → List τ
  | 0 => []
  | m + 1 =>
    rises level label f s m ++
      if level (f^[m] s) = 0 ∧ level (f^[m + 1] s) = 1 then [label (f^[m] s)] else []

variable {level : σ → ℕ} {label : σ → τ} {f : σ → σ} {s : σ}

/-- More steps, more edges. -/
theorem rises_prefix {m m' : ℕ} (h : m ≤ m') :
    rises level label f s m <+: rises level label f s m' := by
  induction h with
  | refl => exact List.prefix_rfl
  | step _ ih => exact ih.trans (List.prefix_append _ _)

/-- **An edge, once there, stays**: whatever the number of steps, the `k`-th one has one label. -/
theorem eq_of_rises {m m' k : ℕ} {x y : τ} (hx : (rises level label f s m)[k]? = some x)
    (hy : (rises level label f s m')[k]? = some y) : x = y := by
  rcases Nat.le_total m m' with h | h
  · obtain ⟨es, hes⟩ : rises level label f s m <+: rises level label f s m' := rises_prefix h
    have hk := (List.getElem?_eq_some_iff.mp hx).1
    rw [← hes, List.getElem?_append_left hk, hx] at hy
    exact Option.some.inj hy
  · obtain ⟨es, hes⟩ : rises level label f s m' <+: rises level label f s m := rises_prefix h
    have hk := (List.getElem?_eq_some_iff.mp hy).1
    rw [← hes, List.getElem?_append_left hk, hy] at hx
    exact (Option.some.inj hx).symm

/-- **A simulation carries the edges over**: two systems whose levels agree, and whose labels agree
up to `g`, have the same edges up to `g`. -/
theorem rises_map {level' : σ' → ℕ} {label' : σ' → τ'} {f' : σ' → σ'} {s' : σ'} {g : τ → τ'} {m : ℕ}
    (hlevel : ∀ j ≤ m, level (f^[j] s) = level' (f'^[j] s'))
    (hlabel : ∀ j < m, g (label (f^[j] s)) = label' (f'^[j] s')) :
    (rises level label f s m).map g = rises level' label' f' s' m := by
  induction m with
  | zero => rfl
  | succ m ih =>
    have hbefore := ih (fun j hj ↦ hlevel j (by omega)) fun j hj ↦ hlabel j (by omega)
    rw [rises, rises, List.map_append, hbefore, hlevel m (by omega), hlevel (m + 1) (Nat.le_refl _)]
    split
    · rw [List.map_singleton, hlabel m (by omega)]
    · rfl

/-- Two more steps, from a low level. -/
theorem rises_add_two (level : σ → ℕ) (label : σ → τ) {m : ℕ} {s₀ s₁ s₂ : σ}
    (h₀ : f^[m] s = s₀) (h₁ : f s₀ = s₁) (h₂ : f s₁ = s₂) :
    rises level label f s (m + 2) = rises level label f s m ++
      (if level s₀ = 0 ∧ level s₁ = 1 then [label s₀] else []) ++
      (if level s₁ = 0 ∧ level s₂ = 1 then [label s₁] else []) := by
  have hone : f^[m + 1] s = s₁ := by rw [Function.iterate_succ_apply', h₀, h₁]
  have htwo : f^[m + 2] s = s₂ := by rw [Function.iterate_succ_apply', hone, h₂]
  rw [rises, rises, h₀, hone, htwo]

end Edges
