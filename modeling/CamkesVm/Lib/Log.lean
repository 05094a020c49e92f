import Mathlib.Data.List.Basic

/-!
# Logs of effects

A device that acts on the world keeps a log of what it did, oldest first, and only ever appends to
it.  `news` is what one call appended, and `latest` is the value something was last set to: the
level of an interrupt line, say, where some effects set it and the others do not.

`Sets` says which values a call sets, whatever else it does and in whatever order; the calls made
one after the other set what each of them sets (`Sets.trans`).

## How it is used

* A call that appends `es` has `news before after = es` (`news_append`), which is how the commands
  among the effects of a device get to whoever obeys them.
* The level of a line is `latest value d log`: `latest_concat` for one more effect,
  `latest_append_of_same` for effects that set it to what it is.
* Where a call is a sequence of smaller ones, what it sets is the union of what they set:
  `Sets.refl`, `Sets.concat`, `Sets.trans`, and `Sets.congr` to tidy up.

What is not in a log cannot be spoken of, so a device logs each call it makes, also the ones that
change nothing.
-/

set_option autoImplicit false

namespace EffectLog

universe u v

variable {ε : Type u} {β : Type v}

/-- The effects of a call, from the logs before and after it. -/
def news (before after : List ε) : List ε := after.drop before.length

@[simp] theorem news_append (before es : List ε) : news before (before ++ es) = es :=
  List.drop_left

/-- The value last set in a log, or `d` if none was; `value e` is the value that `e` sets. -/
def latest (value : ε → Option β) (d : β) : List ε → β
  | [] => d
  | e :: es => latest value ((value e).getD d) es

variable {value : ε → Option β} {d : β}

theorem latest_append (es es' : List ε) :
    latest value d (es ++ es') = latest value (latest value d es) es' := by
  induction es generalizing d with
  | nil => rfl
  | cons e es ih => exact ih

/-- **The last effect decides**, if it sets the value. -/
theorem latest_concat (es : List ε) (e : ε) :
    latest value d (es ++ [e]) = (value e).getD (latest value d es) := latest_append es [e]

/-- Setting the value to what it is. -/
theorem latest_append_of_same {es es' : List ε}
    (h : ∀ e ∈ es', ∀ v, value e = some v → v = latest value d es) :
    latest value d (es ++ es') = latest value d es := by
  rw [latest_append]
  generalize latest value d es = d' at h ⊢
  induction es' with
  | nil => rfl
  | cons e es' ih =>
    have hd : (value e).getD d' = d' := by
      cases hv : value e with
      | none => rfl
      | some v => exact h e List.mem_cons_self v hv
    rw [latest, hd]
    exact ih fun e' he' ↦ h e' (List.mem_cons_of_mem _ he')

/-! ## The values a call sets -/

/-- The log is continued by effects that set exactly the values `S`. -/
def Sets (value : ε → Option β) (before after : List ε) (S : β → Prop) : Prop :=
  ∃ es, after = before ++ es ∧ ∀ v, (∃ e ∈ es, value e = some v) ↔ S v

namespace Sets

variable {l l' l'' : List ε} {S S' : β → Prop}

theorem refl (l : List ε) : Sets value l l fun _ ↦ False :=
  ⟨[], (List.append_nil l).symm, fun _ ↦ iff_of_false (by simp) id⟩

/-- One effect. -/
theorem concat (l : List ε) (e : ε) : Sets value l (l ++ [e]) fun v ↦ value e = some v :=
  ⟨[e], rfl, fun v ↦ by simp⟩

/-- **One call after the other.** -/
theorem trans (h : Sets value l l' S) (h' : Sets value l' l'' S') :
    Sets value l l'' fun v ↦ S v ∨ S' v := by
  obtain ⟨es, hl, hS⟩ := h
  obtain ⟨es', hl', hS'⟩ := h'
  refine ⟨es ++ es', by rw [hl', hl, List.append_assoc], fun v ↦ ?_⟩
  simp only [List.mem_append, or_and_right, exists_or, hS, hS']

theorem congr (h : Sets value l l' S) (hS : ∀ v, S v ↔ S' v) : Sets value l l' S' := by
  obtain ⟨es, hl, hes⟩ := h
  exact ⟨es, hl, fun v ↦ (hes v).trans (hS v)⟩

/-- An effect that sets nothing, at the end. -/
theorem concat_of_none (h : Sets value l l' S) {e : ε} (he : value e = none) :
    Sets value l (l' ++ [e]) S :=
  (h.trans (concat l' e)).congr fun v ↦ by simp [he]

/-- **What a call sets** can be read off the effects it adds. -/
theorem mem_news (h : Sets value l l' S) (v : β) :
    v ∈ (news l l').filterMap value ↔ S v := by
  obtain ⟨es, rfl, hes⟩ := h
  rw [news_append, List.mem_filterMap]
  exact hes v

end Sets

end EffectLog
