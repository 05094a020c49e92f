import Mathlib.Data.List.Basic

/-!
# Labelled runs and their invariants

A system is a relation `step s a t`: in state `s` the action `a` may lead to `t`.  `Run step s as t`
says that the actions `as`, taken in order, lead from `s` to `t`.  Actions are kept as a list, and
not forgotten as a reflexive-transitive closure would, because a statement about a run often speaks
of what happened in it: the bytes written, the steps that met some condition.

The rules here are the ones every safety argument uses:

* `Run.invariant` — a property of the start that every step preserves holds at the end.  Since a
  prefix of a run is a run, that is "in every state reached";
* `Run.invariant_guarded` — the same when only steps meeting a condition on the state before them
  are taken;
* `Run.guarded_iff` — where that condition is exactly what a step needs to preserve the property, a
  run meets it throughout if and only if every state it visits has the property;
* `Run.guarded_iff_of_invariant` — the same where this exactness needs facts that hold in every run;
* `Run.guarded_iff_of_outcome` — the same where the property is one of the states and of what the
  steps do; `Run.guarded_iff_of_promise`, where the latter follows from the condition;
* `Run.length_add_le` — a measure that every step makes smaller bounds the length of a run;
* `Run.project` — a run of a system is, for each of its parts, a run of that part.

Most systems are functions with a condition on when they apply; `Does` is the step relation of
such a system, and `run_foldl` finds its runs by evaluation.
-/

set_option autoImplicit false

namespace Transition

universe u v

variable {σ : Type u} {α : Type v}

/-- `Run step s as t`: the actions `as`, in order, lead from `s` to `t`.  The last action is the
outermost one, so an induction on a run sees the state before its last step. -/
inductive Run (step : σ → α → σ → Prop) (s : σ) : List α → σ → Prop
  | nil : Run step s [] s
  | snoc {as : List α} {t u : σ} {a : α} (h : Run step s as t) (hs : step t a u) :
      Run step s (as ++ [a]) u

variable {step : σ → α → σ → Prop} {s t u : σ} {a : α} {as bs : List α}

theorem Run.single (h : step s a t) : Run step s [a] t := Run.snoc .nil h

theorem Run.append (h : Run step s as t) (h' : Run step t bs u) : Run step s (as ++ bs) u := by
  induction h' with
  | nil => simpa using h
  | snoc _ hs ih => rw [← List.append_assoc]; exact ih.snoc hs

theorem Run.cons (hs : step s a t) (h : Run step t as u) : Run step s (a :: as) u :=
  (Run.single hs).append h

/-- Only the actions a run really takes matter to what it reaches. -/
theorem Run.mono {step' : σ → α → σ → Prop} (hle : ∀ s a t, step s a t → step' s a t)
    (h : Run step s as t) : Run step' s as t := by
  induction h with
  | nil => exact .nil
  | snoc _ hs ih => exact ih.snoc (hle _ _ _ hs)

/-- **The invariant rule**: what holds at the start and survives every step holds at the end. -/
theorem Run.invariant {I : σ → Prop} (h : Run step s as t) (h0 : I s)
    (hstep : ∀ s a t, I s → step s a t → I t) : I t := by
  induction h with
  | nil => exact h0
  | snoc _ hs ih => exact hstep _ _ _ ih hs

/-- The steps of `step` that meet the condition `C` on the state before them and the action. -/
def Guarded (C : σ → α → Prop) (step : σ → α → σ → Prop) (s : σ) (a : α) (t : σ) : Prop :=
  C s a ∧ step s a t

/-- The invariant rule for runs all of whose steps meet a condition. -/
theorem Run.invariant_guarded {C : σ → α → Prop} {I : σ → Prop}
    (h : Run (Guarded C step) s as t) (h0 : I s)
    (hstep : ∀ s a t, I s → C s a → step s a t → I t) : I t :=
  h.invariant h0 fun s a t hi hs ↦ hstep s a t hi hs.1 hs.2

/-- **The exact guard**: if, from states with the property `I`, a step leads to another such state
exactly when it meets `C`, then the runs that meet `C` are those all of whose states have `I`. -/
theorem Run.guarded_iff {C : σ → α → Prop} {I : σ → Prop} (h0 : I s)
    (hstep : ∀ s a t, I s → step s a t → (C s a ↔ I t)) :
    Run (Guarded C step) s as t ↔ Run (Guarded (fun s _ ↦ I s) step) s as t ∧ I t := by
  constructor
  · intro h
    induction h with
    | nil => exact ⟨.nil, h0⟩
    | snoc _ hs ih => exact ⟨ih.1.snoc ⟨ih.2, hs.2⟩, (hstep _ _ _ ih.2 hs.2).mp hs.1⟩
  · rintro ⟨h, ht⟩
    induction h with
    | nil => exact .nil
    | snoc _ hs ih => exact (ih hs.1).snoc ⟨(hstep _ _ _ hs.1 hs.2).mpr ht, hs.2⟩

/-- **The exact guard, with an invariant**: from states with the properties `I` and `J` a step leads
to a state with `J`, and to one with `I` exactly when it meets `C`. -/
theorem Run.guarded_iff_of_invariant {C : σ → α → Prop} {I J : σ → Prop} (hI : I s) (h0 : J s)
    (hJ : ∀ s a t, J s → I s → step s a t → J t)
    (hstep : ∀ s a t, J s → I s → step s a t → (C s a ↔ I t)) :
    Run (Guarded C step) s as t ↔ Run (Guarded (fun s _ ↦ I s) step) s as t ∧ I t := by
  have hboth : ∀ s a t, I s ∧ J s → step s a t → (C s a ↔ I t ∧ J t) := fun s a t hs ht ↦
    (hstep s a t hs.2 hs.1 ht).trans (iff_self_and.mpr fun _ ↦ hJ s a t hs.2 hs.1 ht)
  rw [Run.guarded_iff (I := fun s ↦ I s ∧ J s) ⟨hI, h0⟩ hboth]
  constructor
  · rintro ⟨h, ht⟩
    exact ⟨h.mono fun _ _ _ hs ↦ ⟨hs.1.1, hs.2⟩, ht.1⟩
  · rintro ⟨h, ht⟩
    -- the invariant need not be asked of the states: it follows along the run
    have key : Run (Guarded (fun s _ ↦ I s ∧ J s) step) s as t ∧ J t := by
      clear ht
      induction h with
      | nil => exact ⟨.nil, h0⟩
      | snoc _ hs ih => exact ⟨ih.1.snoc ⟨⟨hs.1, ih.2⟩, hs.2⟩, hJ _ _ _ ih.2 hs.1 hs.2⟩
    exact ⟨key.1, ht, key.2⟩

/-- **The exact guard, with an outcome**: if, from states with the property `I`, a step has the
outcome `D` and leads to another such state exactly when it meets `C`, then the runs that meet `C`
are those whose steps all have the outcome and whose states all have `I`. -/
theorem Run.guarded_iff_of_outcome {C D : σ → α → Prop} {I : σ → Prop} (h0 : I s)
    (hstep : ∀ s a t, I s → step s a t → (C s a ↔ D s a ∧ I t)) :
    Run (Guarded C step) s as t ↔ Run (Guarded (fun s a ↦ I s ∧ D s a) step) s as t ∧ I t := by
  constructor
  · intro h
    induction h with
    | nil => exact ⟨.nil, h0⟩
    | snoc _ hs ih =>
      obtain ⟨hd, hi⟩ := (hstep _ _ _ ih.2 hs.2).mp hs.1
      exact ⟨ih.1.snoc ⟨⟨ih.2, hd⟩, hs.2⟩, hi⟩
  · rintro ⟨h, ht⟩
    induction h with
    | nil => exact .nil
    | snoc _ hs ih => exact (ih hs.1.1).snoc ⟨(hstep _ _ _ hs.1.1 hs.2).mpr ⟨hs.1.2, ht⟩, hs.2⟩

/-- **The exact guard, with a promise**: if the steps that meet `C` also keep the promise `D`, which
may speak of the whole step, then so do all steps of a run that meets `C`. -/
theorem Run.guarded_iff_of_promise {C D : σ → α → Prop} {I : σ → Prop} (h0 : I s)
    (hstep : ∀ s a t, I s → step s a t → (C s a ↔ I t))
    (hD : ∀ s a t, I s → step s a t → C s a → D s a) :
    Run (Guarded C step) s as t ↔ Run (Guarded (fun s a ↦ I s ∧ D s a) step) s as t ∧ I t :=
  Run.guarded_iff_of_outcome h0 fun s a t hi hs ↦
    ⟨fun hc ↦ ⟨hD s a t hi hs hc, (hstep s a t hi hs).mp hc⟩, fun h ↦ (hstep s a t hi hs).mpr h.2⟩

/-- Conditions that agree on every step a run can take guard the same runs. -/
theorem Run.guarded_congr {C C' : σ → α → Prop}
    (hC : ∀ as t a u, Run step s as t → step t a u → (C t a ↔ C' t a)) :
    Run (Guarded C step) s as t ↔ Run (Guarded C' step) s as t := by
  have himp : ∀ {C C' : σ → α → Prop},
      (∀ as t a u, Run step s as t → step t a u → C t a → C' t a) →
      Run (Guarded C step) s as t → Run (Guarded C' step) s as t := by
    intro C C' hC h
    induction h with
    | nil => exact .nil
    | snoc h hs ih => exact ih.snoc ⟨hC _ _ _ _ (h.mono fun _ _ _ hs ↦ hs.2) hs.2 hs.1, hs.2⟩
  exact ⟨himp fun as t a u h hs ↦ (hC as t a u h hs).mp,
    himp fun as t a u h hs ↦ (hC as t a u h hs).mpr⟩

/-- **A measure that every step makes smaller** bounds the length of a run. -/
theorem Run.length_add_le {measure : σ → ℕ} (h : Run step s as t)
    (hstep : ∀ s a t, step s a t → measure t < measure s) :
    as.length + measure t ≤ measure s := by
  induction h with
  | nil => simp
  | snoc _ hs ih =>
    have hlt := hstep _ _ _ hs
    rw [List.length_append, List.length_singleton]
    omega

/-- **A part of a system**: if each action is an action of the part or leaves the part alone, the
part goes through a run of its own. -/
theorem Run.project {τ : Type*} {β : Type*} {part : τ → β → τ → Prop} {f : σ → τ}
    {g : α → Option β}
    (hstep : ∀ s a t, step s a t →
      (∃ b, g a = some b ∧ part (f s) b (f t)) ∨ (g a = none ∧ f t = f s))
    (h : Run step s as t) : Run part (f s) (as.filterMap g) (f t) := by
  induction h with
  | nil => exact .nil
  | snoc _ hs ih =>
    rw [List.filterMap_append]
    rcases hstep _ _ _ hs with ⟨b, hb, hpart⟩ | ⟨hb, hsame⟩
    · rw [List.filterMap_cons_some hb]
      exact ih.snoc hpart
    · rw [List.filterMap_cons_none hb, List.filterMap_nil, List.append_nil, hsame]
      exact ih

/-! ## Functions with a condition -/

/-- The step relation of a function and a condition on when it applies. -/
def Does (enabled : σ → α → Prop) (next : σ → α → σ) (s : σ) (a : α) (t : σ) : Prop :=
  enabled s a ∧ t = next s a

/-- Each of the actions, taken in order, applies. -/
def AllEnabled (enabled : σ → α → Prop) (next : σ → α → σ) : σ → List α → Prop
  | _, [] => True
  | s, a :: as => enabled s a ∧ AllEnabled enabled next (next s a) as

instance AllEnabled.decidable {enabled : σ → α → Prop} [∀ s a, Decidable (enabled s a)]
    {next : σ → α → σ} : (s : σ) → (as : List α) → Decidable (AllEnabled enabled next s as)
  | _, [] => inferInstanceAs (Decidable True)
  | s, a :: as =>
    have : Decidable (AllEnabled enabled next (next s a) as) := AllEnabled.decidable (next s a) as
    inferInstanceAs (Decidable (_ ∧ _))

theorem AllEnabled.of_forall {enabled : σ → α → Prop} {next : σ → α → σ} {s : σ} {as : List α}
    (h : ∀ s a, enabled s a) : AllEnabled enabled next s as := by
  induction as generalizing s with
  | nil => trivial
  | cons a as ih => exact ⟨h s a, ih⟩

/-- **A run is the fold of its actions**, if each applies. -/
theorem run_foldl {enabled : σ → α → Prop} {next : σ → α → σ} {s : σ} {as : List α}
    (h : AllEnabled enabled next s as) : Run (Does enabled next) s as (as.foldl next s) := by
  induction as generalizing s with
  | nil => exact .nil
  | cons a as ih => exact .cons ⟨h.1, rfl⟩ (ih h.2)

/-- The same for runs all of whose steps meet a condition. -/
theorem run_guarded_foldl {C enabled : σ → α → Prop} {next : σ → α → σ} {s : σ} {as : List α}
    (h : AllEnabled (fun s a ↦ C s a ∧ enabled s a) next s as) :
    Run (Guarded C (Does enabled next)) s as (as.foldl next s) :=
  (run_foldl h).mono fun _ _ _ hs ↦ ⟨hs.1.1, hs.1.2, hs.2⟩

/-- The same for a function that may have no result. -/
theorem run_foldlM {enabled : σ → α → Prop} [∀ s a, Decidable (enabled s a)]
    {next : σ → α → Option σ}
    (h : as.foldlM (fun s a ↦ if enabled s a then next s a else none) s = some t) :
    Run (fun s a t ↦ enabled s a ∧ next s a = some t) s as t := by
  induction as generalizing s with
  | nil =>
    obtain rfl := Option.some.inj h
    exact .nil
  | cons a as ih =>
    rw [List.foldlM_cons] at h
    obtain ⟨u, hu, h⟩ := Option.bind_eq_some_iff.mp h
    split at hu
    · next hen => exact .cons ⟨hen, hu⟩ (ih h)
    · exact nomatch hu

/-- A run of a function ends at the fold of its actions. -/
theorem Run.eq_foldl {enabled : σ → α → Prop} {next : σ → α → σ} {s t : σ} {as : List α}
    (h : Run (Does enabled next) s as t) : t = as.foldl next s := by
  induction h with
  | nil => rfl
  | snoc _ hs ih => rw [List.foldl_append, List.foldl_cons, List.foldl_nil, ← ih, hs.2]

end Transition
