import CamkesVm.Events.Callbacks
import CamkesVm.Lib.Transition

/-!
# When a registration fails

`register_async_event_handler` makes room in `callback_arr` before it adds a handler, with `calloc`
for the first one and with `realloc` from then on.  It stores what they return in the only pointer
there is.  A `realloc` that fails leaves the old array where it is, but nobody knows where that is
any more, while `callback_idx` still counts the handlers in it.

`run_harmless_iff` says when that does no harm: when nothing has been registered yet.

## What is here

* `Registration`, `Registry` — a call, and the state: the array of `CamkesVm.Events.Callbacks`
  together with the handlers whose registration returned 0, which is what the modules believe.
* `Registry.Intact` — the array agrees with that belief: the counter, the room and the cells.
* `Spared` — what a call that fails should leave alone: the registered handlers, and what is
  dispatched for every badge. `Harmless` asks it of every call of a run.
* `intact_of_noMemory_iff`, `spared_iff_intact` — one call: the array is lost exactly if there was
  one.
* `run_harmless_iff` — the runs; the condition is on the state before each call that finds no
  memory.
* `not_intact_noMemory` — one registration that succeeds and one that does not.

A dispatch after that reads through a `NULL` pointer, as `callback_idx` is still positive: the
model's `handleAsyncEventArm` has no result then.
-/

set_option autoImplicit false

namespace CamkesVm
namespace Events

open Transition

variable {w : ℕ} {κ γ : Type}

/-! ## Calls -/

/-- A call of `register_async_event_handler`. -/
structure Registration (w : ℕ) (κ γ : Type) where
  /-- There is memory for the array. -/
  memory : Bool
  /-- The handler. -/
  handler : AsyncEventHandler w κ γ

/-- The array, with the handlers whose calls returned 0. -/
structure Registry (w : ℕ) (κ γ : Type) where
  /-- The variables of the program. -/
  callbacks : Callbacks w κ γ
  /-- The handlers that were registered, in order. -/
  registered : List (AsyncEventHandler w κ γ)

/-- Before the first call. -/
def Registry.initial : Registry w κ γ := ⟨noCallbacks, []⟩

/-- The cells of the array. -/
def Callbacks.cells (s : Callbacks w κ γ) : List (Option (AsyncEventHandler w κ γ)) :=
  s.callbackArr.getD []

/-- What a call returns. -/
def Registry.result (s : Registry w κ γ) (c : Registration w κ γ) : ℤ :=
  (registerAsyncEventHandler c.memory s.callbacks c.handler).1

/-- What a call does. -/
def Registry.register (s : Registry w κ γ) (c : Registration w κ γ) : Registry w κ γ where
  callbacks := (registerAsyncEventHandler c.memory s.callbacks c.handler).2
  registered := if s.result c = 0 then s.registered ++ [c.handler] else s.registered

/-- Any sequence of calls. -/
abbrev RegistryRun (s : Registry w κ γ) (cs : List (Registration w κ γ)) (t : Registry w κ γ) :
    Prop :=
  Run (Does (fun _ _ ↦ True) Registry.register) s cs t

/-- The array has the registered handlers. -/
structure Registry.Intact (s : Registry w κ γ) : Prop where
  /-- `callback_idx` counts them. -/
  callbackIdx : s.callbacks.callbackIdx = s.registered.length
  /-- The array has room for them. -/
  capacity : s.callbacks.callbackIdx ≤ s.callbacks.cells.length
  /-- They are its first entries, in order. -/
  entries : s.callbacks.cells.take s.callbacks.callbackIdx = s.registered.map some

/-- A call that fails changes nothing of what is registered and of what a badge does, and one that
succeeds writes within the array. -/
structure Harmless (s : Registry w κ γ) (c : Registration w κ γ) : Prop where
  /-- The handlers that are registered stay so. -/
  registered : s.result c = -1 → (s.register c).registered = s.registered
  /-- Every badge is dispatched as before. -/
  dispatch : s.result c = -1 → ∀ featureVusb badge label,
    handleAsyncEventArm featureVusb (s.register c).callbacks badge label =
      handleAsyncEventArm featureVusb s.callbacks badge label
  /-- The cell of the new handler is one of the array. -/
  within : s.result c = 0 → s.callbacks.callbackIdx < (s.register c).callbacks.cells.length

/-- The call finds memory, or nothing has been registered before it. -/
def Spared (s : Registry w κ γ) (c : Registration w κ γ) : Prop :=
  c.memory = true ∨ s.callbacks.callbackIdx = 0

/-! ## What a call does -/

section

variable {s : Registry w κ γ} {c : Registration w κ γ}

theorem register_of_memory (h : c.memory = true) :
    s.result c = 0 ∧ (s.register c).registered = s.registered ++ [c.handler] ∧
      (s.register c).callbacks.callbackIdx = s.callbacks.callbackIdx + 1 ∧
      (s.register c).callbacks.cells = (match s.callbacks.callbackArr with
        | none => [none]
        | some arr => arr.takeD (s.callbacks.callbackIdx + 1) none).set s.callbacks.callbackIdx
          (some c.handler) := by
  rw [Registry.register, Registry.result, registerAsyncEventHandler, h]
  cases s.callbacks.callbackArr <;> exact ⟨rfl, rfl, rfl, rfl⟩

theorem register_of_noMemory (h : c.memory = false) :
    s.result c = -1 ∧ (s.register c).registered = s.registered ∧
      (s.register c).callbacks = ⟨s.callbacks.callbackIdx, none⟩ := by
  rw [Registry.register, Registry.result, registerAsyncEventHandler, h]
  cases s.callbacks.callbackArr <;> exact ⟨rfl, rfl, rfl⟩

/-- Growing an array by one cell and writing that cell. -/
theorem set_takeD_succ {α : Type} {l : List α} {n : ℕ} (h : n ≤ l.length) (a b : α) :
    (l.takeD (n + 1) a).set n b = l.take n ++ [b] := by
  induction n generalizing l with
  | zero => cases l <;> rfl
  | succ n ih =>
    cases l with
    | nil => exact absurd h (by simp)
    | cons x l => simpa using ih (Nat.le_of_succ_le_succ h)

/-- **A call that finds memory** adds the handler behind the others. -/
theorem Registry.Intact.register (hs : s.Intact) (h : c.memory = true) :
    (s.register c).Intact ∧
      s.callbacks.callbackIdx < (s.register c).callbacks.cells.length := by
  obtain ⟨-, hregistered, hidx, hcells⟩ := register_of_memory (s := s) h
  have hgrown : (s.register c).callbacks.cells = (s.registered ++ [c.handler]).map some := by
    rw [hcells, List.map_append, ← hs.entries]
    have hcap := hs.capacity
    rw [Callbacks.cells] at hcap ⊢
    cases harr : s.callbacks.callbackArr with
    | none =>
      rw [harr] at hcap
      rw [Nat.le_zero.1 hcap]
      rfl
    | some arr =>
      rw [harr] at hcap
      exact set_takeD_succ hcap none _
  refine ⟨⟨?_, ?_, ?_⟩, ?_⟩
  · rw [hidx, hs.callbackIdx, hregistered, List.length_append, List.length_singleton]
  · rw [hidx, hs.callbackIdx, hgrown, List.length_map, List.length_append, List.length_singleton]
  · rw [hgrown, hregistered, hidx, hs.callbackIdx]
    exact List.take_of_length_le (by simp)
  · rw [hgrown, hs.callbackIdx]
    simp

/-- **A call that finds no memory** loses the array. -/
theorem intact_of_noMemory_iff (hs : s.Intact) (h : c.memory = false) :
    (s.register c).Intact ↔ s.callbacks.callbackIdx = 0 := by
  obtain ⟨-, hregistered, hcallbacks⟩ := register_of_noMemory (s := s) h
  constructor
  · intro hnew
    have hcap := hnew.capacity
    rw [hcallbacks] at hcap
    exact Nat.le_zero.1 hcap
  · intro hzero
    have hnil : s.registered = [] := List.length_eq_zero_iff.1 (hs.callbackIdx ▸ hzero)
    refine ⟨?_, ?_, ?_⟩
    · rw [hcallbacks, hregistered]
      exact hs.callbackIdx
    · rw [hcallbacks]
      exact Nat.le_of_eq hzero
    · rw [hcallbacks, hregistered, hnil]
      exact List.take_nil

/-- **The exact condition**, for one call. -/
theorem spared_iff_intact (hs : s.Intact) : Spared s c ↔ (s.register c).Intact := by
  cases h : c.memory with
  | true => exact iff_of_true (.inl h) (hs.register h).1
  | false =>
    rw [intact_of_noMemory_iff hs h, Spared, h]
    simp

/-- Without handlers the array is never looked at. -/
theorem runCallbacks_of_zero {s : Callbacks w κ γ} (h : s.callbackIdx = 0) (badge : BitVec w) :
    runCallbacks s badge = some [] := by
  rw [runCallbacks, h]
  rfl

theorem harmless_of_spared (hs : s.Intact) (h : Spared s c) : Harmless s c := by
  cases hmem : c.memory with
  | true =>
    obtain ⟨hzero, -⟩ := register_of_memory (s := s) hmem
    have hne : s.result c ≠ -1 := by
      rw [hzero]
      decide
    exact ⟨fun hfail ↦ absurd hfail hne, fun hfail ↦ absurd hfail hne,
      fun _ ↦ (hs.register hmem).2⟩
  | false =>
    obtain ⟨hfail, hregistered, hcallbacks⟩ := register_of_noMemory (s := s) hmem
    have hidx : s.callbacks.callbackIdx = 0 := h.resolve_left (by simp [hmem])
    refine ⟨fun _ ↦ hregistered, fun _ featureVusb badge label ↦ ?_, fun hzero ↦ ?_⟩
    · have hnone := runCallbacks_of_zero (s := (s.register c).callbacks)
        ((congrArg Callbacks.callbackIdx hcallbacks).trans hidx) badge
      rw [handleAsyncEventArm, handleAsyncEventArm, runCallbacks_of_zero hidx, hnone]
    · exact absurd (hfail.symm.trans hzero) (by decide)

end

/-! ## Every sequence of calls -/

/-- **When failing registrations are harmless.**  The sequences of calls in which none fails once a
handler is registered are those after each call of which the array has all registered handlers, and
in which every call that returns -1 changes nothing and every other call writes within the array. -/
theorem run_harmless_iff (cs : List (Registration w κ γ)) (t : Registry w κ γ) :
    Run (Guarded Spared (Does (fun _ _ ↦ True) Registry.register)) .initial cs t ↔
      Run (Guarded (fun s c ↦ s.Intact ∧ Harmless s c)
          (Does (fun _ _ ↦ True) Registry.register)) .initial cs t ∧ t.Intact := by
  refine Run.guarded_iff_of_promise ⟨rfl, Nat.le_refl 0, rfl⟩ ?_ ?_
  · rintro s c _ hs ⟨-, rfl⟩
    exact spared_iff_intact hs
  · rintro s c _ hs - h
    exact harmless_of_spared hs h

/-- **After a handler has been registered**, a call that finds no memory leaves `callback_idx` at 1
and no array. -/
theorem not_intact_noMemory :
    ¬ ∀ (cs : List (Registration 64 Unit Unit)) (t : Registry 64 Unit Unit),
      RegistryRun .initial cs t → t.Intact := by
  intro h
  have hintact := h [⟨true, ⟨1, (), ()⟩⟩, ⟨false, ⟨2, (), ()⟩⟩] _
    (run_foldl ⟨trivial, trivial, trivial⟩)
  exact absurd hintact.capacity (by decide)

end Events
end CamkesVm
