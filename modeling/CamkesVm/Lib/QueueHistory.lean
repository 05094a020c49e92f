import Mathlib.Data.List.Basic

/-!
# Queues and what went through them

A queue in a program is some state with operations to put a value in, to get one out, and to throw
all of them away.  What it is for can be said without the state, by what went through it: the values
that come out are those that went in, in that order, and what has not come out is still in it.
`History` has what went in and what came out since the queue was last cleared, and `InOrder` is this
law.

An implementation may refuse a value, and it may have puts that it does not survive, say on a full
buffer.  `Represents` collects what has to be shown of one, operation by operation, where `Safe`
says which puts are meant; `Represents.run` is what follows for any sequence of operations.

## How it is used

One gives an `Impl`, a function for the contents of a state, and shows the three fields of
`Represents`, one for each operation; that is all the reasoning about slots and ends there is.
`Represents.run` then speaks of sequences of operations: what came out, followed by what is in the
queue, is what was taken in, since the queue was last cleared.

Two queues in one device are two instances, and a device's run is projected to the operations it
performs on each of them. Refused values do not get into the history, and values got out of an empty
queue do not either.
-/

set_option autoImplicit false

namespace QueueHistory

universe u v

variable {σ : Type u} {α : Type v}

/-- An implementation of a queue. -/
structure Impl (σ : Type u) (α : Type v) where
  /-- Put a value in. -/
  put : σ → α → σ
  /-- Get a value out. -/
  get : σ → α × σ
  /-- Throw all values away. -/
  clear : σ → σ
  /-- A put takes its value in. -/
  takes : σ → Bool
  /-- There is nothing to get. -/
  empty : σ → Bool

/-- The operations. -/
inductive Op (α : Type v)
  /-- Put a value in. -/
  | put (x : α)
  /-- Get a value out. -/
  | get
  /-- Throw all values away. -/
  | clear

/-- What went through a queue since it was last cleared. -/
structure History (α : Type v) where
  /-- The values that were taken in, oldest first. -/
  accepted : List α
  /-- The values that were got out, oldest first. -/
  returned : List α

/-- Nothing did yet. -/
def History.empty : History α := ⟨[], []⟩

namespace Impl

variable (Q : Impl σ α)

/-- What an operation does to the queue, -/
def apply (s : σ) : Op α → σ
  | .put x => Q.put s x
  | .get => (Q.get s).2
  | .clear => Q.clear s

/-- and what it adds to its history. -/
def observe (s : σ) (h : History α) : Op α → History α
  | .put x => if Q.takes s then { h with accepted := h.accepted ++ [x] } else h
  | .get => if Q.empty s then h else { h with returned := h.returned ++ [(Q.get s).1] }
  | .clear => .empty

/-- A sequence of operations. -/
def run (ops : List (Op α)) (s : σ) : σ := ops.foldl Q.apply s

/-- What it adds to the history. -/
def history : List (Op α) → σ → History α → History α
  | [], _, h => h
  | op :: ops, s, h => history ops (Q.apply s op) (Q.observe s h op)

@[simp] theorem run_nil (s : σ) : Q.run [] s = s := rfl

@[simp] theorem run_cons (op : Op α) (ops : List (Op α)) (s : σ) :
    Q.run (op :: ops) s = Q.run ops (Q.apply s op) := rfl

theorem run_append (ops ops' : List (Op α)) (s : σ) :
    Q.run (ops ++ ops') s = Q.run ops' (Q.run ops s) := List.foldl_append

/-- Each put of the sequence comes when it is safe. -/
def AllSafe (Safe : σ → Prop) : List (Op α) → σ → Prop
  | [], _ => True
  | .put x :: ops, s => Safe s ∧ AllSafe Safe ops (Q.put s x)
  | op :: ops, s => AllSafe Safe ops (Q.apply s op)

/-- If every put is safe, so are those. -/
theorem allSafe_of_forall {Safe : σ → Prop} (h : ∀ s, Safe s) (ops : List (Op α)) (s : σ) :
    Q.AllSafe Safe ops s := by
  induction ops generalizing s with
  | nil => exact trivial
  | cons op ops ih =>
    cases op with
    | put x => exact ⟨h s, ih _⟩
    | get => exact ih _
    | clear => exact ih _

end Impl

/-- What came out and what is in it went in, in that order. -/
def InOrder (contents : σ → List α) (s : σ) (h : History α) : Prop :=
  h.accepted = h.returned ++ contents s

/-- The state, as far as it is valid, is the list of its contents: what has to be shown of each
operation. -/
structure Represents (Q : Impl σ α) (Valid Safe : σ → Prop) (contents : σ → List α) : Prop where
  /-- A safe put appends its value, if it takes it in. -/
  put : ∀ s x, Valid s → Safe s →
    Valid (Q.put s x) ∧ contents (Q.put s x) = contents s ++ if Q.takes s then [x] else []
  /-- A get takes off the oldest value. -/
  get : ∀ s, Valid s → Q.empty s = false →
    Valid (Q.get s).2 ∧ contents s = (Q.get s).1 :: contents (Q.get s).2
  /-- A get with nothing to get does nothing. -/
  get_empty : ∀ s, Q.empty s = true → (Q.get s).2 = s
  /-- A cleared queue is empty. -/
  clear : ∀ s, Valid (Q.clear s) ∧ contents (Q.clear s) = []

namespace Represents

variable {Q : Impl σ α} {Valid Safe : σ → Prop} {contents : σ → List α} {s : σ} {h : History α}

theorem apply_put (hQ : Represents Q Valid Safe contents) (hs : Valid s)
    (hh : InOrder contents s h) (hsafe : Safe s) (x : α) :
    Valid (Q.put s x) ∧ InOrder contents (Q.put s x) (Q.observe s h (.put x)) := by
  obtain ⟨hvalid, hcontents⟩ := hQ.put s x hs hsafe
  refine ⟨hvalid, ?_⟩
  rw [InOrder, hcontents, Impl.observe]
  split
  · rw [← List.append_assoc, ← hh]
  · rw [List.append_nil, hh]

theorem apply_get (hQ : Represents Q Valid Safe contents) (hs : Valid s)
    (hh : InOrder contents s h) :
    Valid (Q.get s).2 ∧ InOrder contents (Q.get s).2 (Q.observe s h .get) := by
  rw [Impl.observe]
  cases hempty : Q.empty s with
  | true =>
    rw [hQ.get_empty s hempty]
    exact ⟨hs, hh⟩
  | false =>
    obtain ⟨hvalid, hcontents⟩ := hQ.get s hs hempty
    refine ⟨hvalid, ?_⟩
    change h.accepted = h.returned ++ [(Q.get s).1] ++ contents (Q.get s).2
    rw [List.append_assoc, List.singleton_append, ← hcontents]
    exact hh

theorem apply_clear (hQ : Represents Q Valid Safe contents) (s : σ) (h : History α) :
    Valid (Q.clear s) ∧ InOrder contents (Q.clear s) (Q.observe s h .clear) := by
  obtain ⟨hvalid, hcontents⟩ := hQ.clear s
  refine ⟨hvalid, ?_⟩
  rw [InOrder, hcontents]
  rfl

/-- **Any sequence of operations** whose puts are safe keeps the law. -/
theorem run (hQ : Represents Q Valid Safe contents) {ops : List (Op α)} (hs : Valid s)
    (hh : InOrder contents s h) (hsafe : Q.AllSafe Safe ops s) :
    Valid (Q.run ops s) ∧ InOrder contents (Q.run ops s) (Q.history ops s h) := by
  induction ops generalizing s h with
  | nil => exact ⟨hs, hh⟩
  | cons op ops ih =>
    cases op with
    | put x =>
      obtain ⟨hvalid, horder⟩ := hQ.apply_put hs hh hsafe.1 x
      exact ih hvalid horder hsafe.2
    | get =>
      obtain ⟨hvalid, horder⟩ := hQ.apply_get hs hh
      exact ih hvalid horder hsafe
    | clear =>
      obtain ⟨hvalid, horder⟩ := hQ.apply_clear s h
      exact ih hvalid horder hsafe

end Represents

end QueueHistory
