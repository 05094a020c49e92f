import Mathlib

/-!
# Queues of descriptors

A virtqueue joins a driver, who owns a fixed number of descriptors, and a device.  To send a message
the driver scatters it over some of its free descriptors and makes them available; the device takes
the available entries in order and, when it is done with one, puts it on the used ring; from there
the driver takes its descriptors back.

`Queue` has what is in the queue at one moment, with the number of descriptors of each entry in
place of the descriptors.  An entry that the device has taken is in the device's hands and nowhere
in the queue, so the two conservation laws are these: descriptors that are neither free nor
available nor used are in the device's hands (`circulating_getAvailable`, `circulating_addUsed`),
and the messages come out as they went in (`messages_send`, `messages_getAvailable`).

## What is here

* `Queue.send`, `Queue.getAvailable`, `Queue.addUsed`, `Queue.reclaim` — the four operations, two
  for each side. The first is given the number of descriptors that the message takes, since that
  depends on the sizes of buffers that are not modelled.
* `getAvailable_eq_some`, `reclaim_eq_some` — what an operation that found something has done.
* `circulating_send`, `circulating_getAvailable`, `circulating_addUsed`, `circulating_reclaim` —
  where the descriptors are.
* `messages_send`, `messages_getAvailable` — the order of the messages, which the used ring does not
  touch.

An operation that finds nothing returns `none`. That a driver sends only over descriptors it has is
a condition on the caller, because the queue itself does not look.
-/

set_option autoImplicit false

namespace Virtqueue

universe u

variable {μ : Type u}

/-- A message on its way, scattered over some descriptors. -/
structure Entry (μ : Type u) where
  /-- How many descriptors it has. -/
  descs : ℕ
  /-- The message. -/
  data : μ
  deriving DecidableEq

/-- A queue at one moment. -/
structure Queue (μ : Type u) where
  /-- How many descriptors the driver has. -/
  free : ℕ
  /-- The available ring, oldest first. -/
  available : List (Entry μ)
  /-- The used ring, oldest first. -/
  used : List (Entry μ)
  deriving DecidableEq

/-- All descriptors are the driver's. -/
def Queue.empty (size : ℕ) : Queue μ := ⟨size, [], []⟩

/-- The driver sends a message over `n` of its free descriptors. -/
def Queue.send (q : Queue μ) (n : ℕ) (data : μ) : Queue μ := { q with
  free := q.free - n
  available := q.available ++ [⟨n, data⟩] }

/-- The device takes the oldest available entry. -/
def Queue.getAvailable (q : Queue μ) : Option (Entry μ × Queue μ) :=
  match q.available with
  | [] => none
  | e :: rest => some (e, { q with available := rest })

/-- The device puts an entry on the used ring. -/
def Queue.addUsed (q : Queue μ) (e : Entry μ) : Queue μ := { q with used := q.used ++ [e] }

/-- The driver takes the descriptors of the oldest used entry back. -/
def Queue.reclaim (q : Queue μ) : Option (Queue μ) :=
  match q.used with
  | [] => none
  | e :: rest => some { q with free := q.free + e.descs, used := rest }

/-- The descriptors of the entries. -/
def descs (es : List (Entry μ)) : ℕ := (es.map Entry.descs).sum

@[simp] theorem descs_nil : descs ([] : List (Entry μ)) = 0 := rfl

@[simp] theorem descs_cons (e : Entry μ) (es : List (Entry μ)) :
    descs (e :: es) = e.descs + descs es := rfl

@[simp] theorem descs_append (es es' : List (Entry μ)) :
    descs (es ++ es') = descs es + descs es' := by
  simp [descs]

/-- The descriptors that are in the queue or free to get there. -/
def Queue.circulating (q : Queue μ) : ℕ := q.free + descs q.available + descs q.used

/-- The messages that are available. -/
def Queue.messages (q : Queue μ) : List μ := q.available.map Entry.data

variable {q q' : Queue μ} {e : Entry μ} {n : ℕ}

theorem getAvailable_eq_none_iff : q.getAvailable = none ↔ q.available = [] := by
  rw [Queue.getAvailable]
  split <;> simp_all

theorem getAvailable_eq_some (h : q.getAvailable = some (e, q')) :
    q = { q' with available := e :: q'.available } := by
  rw [Queue.getAvailable] at h
  split at h
  · exact nomatch h
  · rename_i hq
    obtain ⟨rfl, rfl⟩ := Prod.mk.inj (Option.some.inj h)
    rw [← hq]

theorem reclaim_eq_none_iff : q.reclaim = none ↔ q.used = [] := by
  rw [Queue.reclaim]
  split <;> simp_all

theorem reclaim_eq_some (h : q.reclaim = some q') :
    ∃ e, q.used = e :: q'.used ∧ q'.available = q.available ∧ q'.free = q.free + e.descs := by
  rw [Queue.reclaim] at h
  split at h
  · exact nomatch h
  · rename_i e rest hq
    obtain rfl := Option.some.inj h
    exact ⟨e, hq, rfl, rfl⟩

/-! ## Descriptors are conserved -/

/-- **A message that is sent keeps its descriptors circulating.** -/
theorem circulating_send (h : n ≤ q.free) (data : μ) :
    (q.send n data).circulating = q.circulating := by
  simp only [Queue.circulating, Queue.send, descs_append, descs_cons, descs_nil]
  omega

/-- **An entry that the device takes is out of circulation** … -/
theorem circulating_getAvailable (h : q.getAvailable = some (e, q')) :
    q'.circulating + e.descs = q.circulating := by
  rw [getAvailable_eq_some h]
  simp only [Queue.circulating, descs_cons]
  omega

/-- … **until it is on the used ring.** -/
@[simp] theorem circulating_addUsed (q : Queue μ) (e : Entry μ) :
    (q.addUsed e).circulating = q.circulating + e.descs := by
  simp only [Queue.circulating, Queue.addUsed, descs_append, descs_cons, descs_nil]
  omega

theorem circulating_reclaim (h : q.reclaim = some q') : q'.circulating = q.circulating := by
  obtain ⟨e, hused, havailable, hfree⟩ := reclaim_eq_some h
  simp only [Queue.circulating, hused, havailable, hfree, descs_cons]
  omega

/-! ## Messages keep their order -/

/-- **A message that is sent comes last.** -/
@[simp] theorem messages_send (q : Queue μ) (n : ℕ) (data : μ) :
    (q.send n data).messages = q.messages ++ [data] := by
  simp [Queue.messages, Queue.send]

/-- **The device gets the first message.** -/
theorem messages_getAvailable (h : q.getAvailable = some (e, q')) :
    q.messages = e.data :: q'.messages := by
  rw [getAvailable_eq_some h]
  rfl

@[simp] theorem messages_addUsed (q : Queue μ) (e : Entry μ) :
    (q.addUsed e).messages = q.messages := rfl

theorem messages_reclaim (h : q.reclaim = some q') : q'.messages = q.messages := by
  obtain ⟨e, -, havailable, -⟩ := reclaim_eq_some h
  rw [Queue.messages, havailable, Queue.messages]

end Virtqueue
