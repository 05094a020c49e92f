import CamkesVm.Events.Dispatch

/-!
# The events of an Arm VM

An Arm VM keeps a list of handlers, to which modules add theirs with `register_async_event_handler`,
and `handle_async_event` makes a subset test for each of them.  The list is an array that grows by
one with every handler; when memory runs out there is no list any more, and `-1` is returned.  A
list is `Built` from registrations that all returned 0.

A badge of 0 belongs to a message, and on one platform there is one more badge that is compared as a
whole.  Neither has bit 27, so both are out of the way of the sources.

`events_dispatched` is the law for both architectures.

## What is here

* `Callbacks`, `registerAsyncEventHandler`, `Built` — the list and its registrations. Memory may run
  out at any of them, which the flag of the function says.
* `runCallbacks`, `handleAsyncEventArm` — the dispatch, with the two badges that are not subsets.
* `Built.spec`, `handleAsyncEventArm_eq` — the list holds what was registered, in order, and the
  handlers that run are those whose badges are found in the word.
* `exact_callbacksRun` — the same law as for an x86 VM, for sources that have a bit of their own.
* `events_dispatched` — both architectures in one statement, over all orders of signals and
  dispatches: complete and exclusive, and so at the second level, for the timers of an x86 VM.

Modules of an Arm VM choose their own badges, so that each badge has a bit that no other has is a
condition here, `Marked`, where `CamkesVm.Events.Dispatch` can check the constants of the PIC.
-/

set_option autoImplicit false

namespace CamkesVm
namespace Events

open Coalesced Transition

variable {w : ℕ} {φ κ γ : Type}

/-! ## Registration -/

/-- A registered handler, `async_event_handler_t`. -/
structure AsyncEventHandler (w : ℕ) (κ γ : Type) where
  /-- The badge it is for. -/
  badge : BitVec w
  /-- The function to call. -/
  callback : κ
  /-- What to call it with. -/
  cookie : γ

/-- The handlers. -/
structure Callbacks (w : ℕ) (κ γ : Type) where
  /-- `callback_idx`: how many there are. -/
  callbackIdx : ℕ
  /-- `callback_arr`, if it is not `NULL`; a cell may not have been written yet. -/
  callbackArr : Option (List (Option (AsyncEventHandler w κ γ)))

/-- No handlers. -/
def noCallbacks : Callbacks w κ γ := { callbackIdx := 0, callbackArr := none }

/-- `register_async_event_handler`, with what it returns.  The flag says whether there is memory. -/
def registerAsyncEventHandler (memory : Bool) (s : Callbacks w κ γ)
    (handler : AsyncEventHandler w κ γ) : ℤ × Callbacks w κ γ :=
  let arr := match s.callbackArr with
    | none => if memory then some [none] else none
    | some arr => if memory then some (arr.takeD (s.callbackIdx + 1) none) else none
  match arr with
  | none => (-1, { s with callbackArr := none })
  | some arr =>
    (0, { callbackIdx := s.callbackIdx + 1, callbackArr := some (arr.set s.callbackIdx handler) })

/-- The handlers were registered one after the other, and each time 0 was returned. -/
inductive Built : Callbacks w κ γ → List (AsyncEventHandler w κ γ) → Prop
  | nil : Built noCallbacks []
  | register {s s' : Callbacks w κ γ} {hs : List (AsyncEventHandler w κ γ)} (h : Built s hs)
      {memory : Bool} {handler : AsyncEventHandler w κ γ}
      (hok : registerAsyncEventHandler memory s handler = (0, s')) : Built s' (hs ++ [handler])

/-- An array that grows by one cell. -/
theorem takeD_length_succ {α : Type} (l : List α) (a : α) :
    l.takeD (l.length + 1) a = l ++ [a] := by
  induction l with
  | nil => rfl
  | cons b l ih =>
    rw [List.length_cons, List.takeD_succ, List.tail_cons, ih]
    rfl

/-- **The list that was built** holds the handlers in the order of their registration. -/
theorem Built.spec {s : Callbacks w κ γ} {hs : List (AsyncEventHandler w κ γ)} (h : Built s hs) :
    s.callbackIdx = hs.length ∧
      (hs = [] ∧ s.callbackArr = none ∨ s.callbackArr = some (hs.map some)) := by
  induction h with
  | nil => exact ⟨rfl, .inl ⟨rfl, rfl⟩⟩
  | @register s s' hs h memory handler hok ih =>
    obtain ⟨hidx, harr⟩ := ih
    have hfst := congrArg Prod.fst hok
    have hsnd : s' = (registerAsyncEventHandler memory s handler).2 := (congrArg Prod.snd hok).symm
    rcases harr with ⟨rfl, hnull⟩ | hsome
    · rw [registerAsyncEventHandler, hnull] at hfst hsnd
      cases memory with
      | false => exact absurd (show (-1 : ℤ) = 0 from hfst) (by decide)
      | true =>
        rw [hsnd, hidx]
        exact ⟨rfl, .inr rfl⟩
    · rw [registerAsyncEventHandler, hsome] at hfst hsnd
      cases memory with
      | false => exact absurd (show (-1 : ℤ) = 0 from hfst) (by decide)
      | true =>
        have hgrown := takeD_length_succ (hs.map some) none
        rw [List.length_map] at hgrown
        have hlen : hs.length + 1 = (hs ++ [handler]).length := by
          rw [List.length_append, List.length_singleton]
        rw [hsnd, hidx]
        refine ⟨hlen, .inr ?_⟩
        change some (((hs.map some).takeD (hs.length + 1) none).set hs.length (some handler)) = _
        rw [hgrown, List.set_append_right _ _ (by simp)]
        simp

/-! ## Dispatch -/

/-- `IRQ_MESSAGE_LABEL` -/
def irqMessageLabel : ℕ := 0xCAFE

/-- `VUSB_NBADGE` -/
def vusbNbadge : ℕ := 0x123

/-- What `handle_async_event` of an Arm VM does. -/
inductive ArmCall (κ γ : Type)
  /-- `irq_server_handle_irq_ipc(_irq_server, tag)` -/
  | irqServerHandleIrqIpc
  /-- It reports an unknown label. -/
  | unknownLabel
  /-- `vusb_notify()` -/
  | vusbNotify
  /-- `callback_arr[i].callback(vm, cookie)` -/
  | callback (i : ℕ) (callback : κ) (cookie : γ)
  /-- It reports an unknown badge. -/
  | unknownBadge

/-- The loop over the handlers.  It is aborted if there is no array, or no handler in it. -/
def runCallbacks (s : Callbacks w κ γ) (badge : BitVec w) : Option (List (ArmCall κ γ)) := do
  let calls ← (List.range s.callbackIdx).mapM fun i ↦ do
    let arr ← s.callbackArr
    let handler ← arr.getD i none
    return if Finds badge handler.badge then [.callback i handler.callback handler.cookie] else []
  return calls.flatten

/-- `handle_async_event` of an Arm VM, with the label of the message.  The flag is
`FEATURE_VUSB`. -/
def handleAsyncEventArm (featureVusb : Bool) (s : Callbacks w κ γ) (badge label : BitVec w) :
    Option (List (ArmCall κ γ)) :=
  if badge = 0 then
    some [if label = BitVec.ofNat w irqMessageLabel then .irqServerHandleIrqIpc else .unknownLabel]
  else if featureVusb = true ∧ badge = BitVec.ofNat w vusbNbadge then some [.vusbNotify]
  else (runCallbacks s badge).map fun calls ↦ if calls.isEmpty then [.unknownBadge] else calls

/-- The handler that a call runs. -/
def ArmCall.source (n : ℕ) : ArmCall κ γ → Option (Fin n)
  | .callback i _ _ => if h : i < n then some ⟨i, h⟩ else none
  | .irqServerHandleIrqIpc | .unknownLabel | .vusbNotify | .unknownBadge => none

/-- The handlers that run, of `n` that are registered. -/
def callbacksRun (featureVusb : Bool) (n : ℕ) (s : Callbacks w κ γ) (badge label : BitVec w) :
    List (Fin n) :=
  ((handleAsyncEventArm featureVusb s badge label).getD []).filterMap (ArmCall.source n)

section

variable {s : Callbacks w κ γ} {hs : List (AsyncEventHandler w κ γ)}

/-- The loop runs the handlers whose badges are found. -/
theorem runCallbacks_of_built (h : Built s hs) (badge : BitVec w) :
    ∃ calls, runCallbacks s badge = some calls ∧ calls.filterMap (ArmCall.source hs.length) =
      (List.finRange hs.length).filter fun i ↦ Finds badge (hs.get i).badge := by
  obtain ⟨hidx, harr⟩ := h.spec
  have hloop : ∀ l : List (Fin hs.length), ∃ calls,
      ((l.map Fin.val).mapM fun i ↦ do
        let arr ← s.callbackArr
        let handler ← arr.getD i none
        return if Finds badge handler.badge
          then [ArmCall.callback i handler.callback handler.cookie] else []) = some calls ∧
      calls.flatten.filterMap (ArmCall.source hs.length) =
        l.filter fun i ↦ Finds badge (hs.get i).badge := by
    intro l
    induction l with
    | nil => exact ⟨[], rfl, rfl⟩
    | cons i l ih =>
      obtain ⟨calls, hcalls, hsource⟩ := ih
      have hsome : s.callbackArr = some (hs.map some) :=
        harr.resolve_left fun hnil ↦ absurd i.isLt (by simp [hnil.1])
      have hcell : (hs.map some).getD i.val none = some (hs.get i) := by
        simp [List.getD]
      refine ⟨(if Finds badge (hs.get i).badge
        then [.callback i (hs.get i).callback (hs.get i).cookie] else []) :: calls, ?_, ?_⟩
      · rw [List.map_cons, List.mapM_cons, hcalls, hsome]
        simp only [Option.bind_eq_bind, Option.bind_some, hcell]
        rfl
      · rw [List.flatten_cons, List.filterMap_append, hsource, List.filter_cons]
        by_cases hfinds : Finds badge (hs.get i).badge
        · rw [if_pos hfinds, if_pos (decide_eq_true hfinds)]
          simp [ArmCall.source]
        · rw [if_neg hfinds, if_neg (by simpa using hfinds)]
          rfl
  obtain ⟨calls, hcalls, hsource⟩ := hloop (List.finRange hs.length)
  refine ⟨calls.flatten, ?_, hsource⟩
  rw [runCallbacks, hidx, ← List.map_coe_finRange_eq_range, hcalls]
  rfl

/-- **The handlers that run are those whose badges are found.** -/
theorem handleAsyncEventArm_eq {bits : Fin hs.length → ℕ}
    (h : Marked 27 bits fun i ↦ (hs.get i).badge) (hw : 27 < w) (hbuilt : Built s hs)
    (featureVusb : Bool) (badge label : BitVec w) :
    ∃ calls, handleAsyncEventArm featureVusb s badge label = some calls ∧
      calls.filterMap (ArmCall.source hs.length) =
        (List.finRange hs.length).filter fun i ↦ Finds badge (hs.get i).badge := by
  have hnone : badge.getLsbD 27 = false →
      (List.finRange hs.length).filter (fun i ↦ Finds badge (hs.get i).badge) = [] := by
    intro hmark
    refine List.filter_eq_nil_iff.mpr fun i _ ↦ ?_
    simpa using h.not_finds_of_not_mark hw hmark i
  rw [handleAsyncEventArm]
  split
  · rename_i hzero
    refine ⟨_, rfl, ?_⟩
    rw [hnone (by rw [hzero]; exact BitVec.getLsbD_zero)]
    split <;> rfl
  · split
    · rename_i hvusb
      have hbit : (BitVec.ofNat w vusbNbadge).getLsbD 27 = false := by
        rw [BitVec.getLsbD_ofNat, show vusbNbadge.testBit 27 = false by decide, Bool.and_false]
      refine ⟨_, rfl, ?_⟩
      rw [hnone (by rw [hvusb.2]; exact hbit)]
      rfl
    · obtain ⟨calls, hcalls, hsource⟩ := runCallbacks_of_built hbuilt badge
      rw [hcalls]
      refine ⟨_, rfl, ?_⟩
      rw [← hsource]
      cases calls with
      | nil => rfl
      | cons call calls => rfl

/-- **The same law holds for the handlers of an Arm VM.** -/
theorem exact_callbacksRun {bits : Fin hs.length → ℕ}
    (h : Marked 27 bits fun i ↦ (hs.get i).badge) (hw : 27 < w) (hbuilt : Built s hs)
    (featureVusb : Bool) :
    Exact (fun i ↦ (hs.get i).badge) (callbacksRun featureVusb hs.length s) := by
  refine h.exact_filter (List.nodup_finRange _) List.mem_finRange fun badge label ↦ ?_
  obtain ⟨calls, hcalls, hsource⟩ := handleAsyncEventArm_eq h hw hbuilt featureVusb badge label
  rw [callbacksRun, hcalls]
  exact hsource

end

/-! ## The law -/

/-- **Events are dispatched completely and exclusively.**  On an x86 VM, whatever signals and
however the signals are merged: no handler is aborted, every handler runs after the last signal of
its source, once the word is taken, and no handler runs without a signal since it ran last; and
whenever the timer's mask is read, exactly the devices with a timer in it are entered, each once.
On an Arm VM the same holds of the handlers that were registered. -/
theorem events_dispatched (hw : 32 ≤ w) :
    (∀ (c : Notifications w φ) (bits : Source c.devices.length → ℕ), Wired c bits →
      (∀ badge completed, ∃ calls, handleAsyncEvent c badge completed = some calls) ∧
      (∀ es y, Run (Step c.badge (handlersRun c)) idle es y →
        Complete y.history ∧ Exclusive y.history) ∧
      ∀ badge completed calls, handleAsyncEvent c badge completed = some calls →
        (calls.filterMap Call.enters).Nodup ∧ ∀ m, m ∈ calls.filterMap Call.enters ↔
          .initTimerCompleted ∈ calls ∧ m.Due c.useHpet completed) ∧
    ∀ (s : Callbacks w κ γ) (hs : List (AsyncEventHandler w κ γ)) (bits : Fin hs.length → ℕ)
      (featureVusb : Bool), Built s hs → Marked 27 bits (fun i ↦ (hs.get i).badge) →
      (∀ badge label, ∃ calls, handleAsyncEventArm featureVusb s badge label = some calls) ∧
      ∀ es y,
        Run (Step (fun i ↦ (hs.get i).badge) (callbacksRun featureVusb hs.length s)) idle es y →
        Complete y.history ∧ Exclusive y.history := by
  refine ⟨fun c bits h ↦ ⟨fun badge completed ↦ ?_, fun es y hrun ↦ ?_, fun _ _ _ ↦
    filterMap_enters_handleAsyncEvent⟩, fun s hs bits featureVusb hbuilt h ↦
    ⟨fun badge label ↦ ?_, fun es y hrun ↦ ?_⟩⟩
  · obtain ⟨calls, hcalls, -⟩ :=
      handleAsyncEvent_eq (h.marked hw) (by omega) h.func badge completed
    exact ⟨calls, hcalls⟩
  · exact run_complete_exclusive (exact_handlersRun hw h) hrun
  · obtain ⟨calls, hcalls, -⟩ :=
      handleAsyncEventArm_eq h (by omega) hbuilt featureVusb badge label
    exact ⟨calls, hcalls⟩
  · exact run_complete_exclusive (exact_callbacksRun h (by omega) hbuilt featureVusb) hrun

/-- An x86 VM with one connection. -/
def oneConnection : Notifications 64 Unit where
  timerBadge := BitVec.twoPow 64 27 ||| BitVec.twoPow 64 0
  serialBadge := BitVec.twoPow 64 27 ||| BitVec.twoPow 64 17
  devices := [{ badge := BitVec.twoPow 32 27 ||| BitVec.twoPow 32 18, func := some () }]
  useHpet := true

/-- The bits of its sources. -/
def oneConnectionBits : Source 1 → ℕ
  | .timer => 0
  | .serial => 17
  | .pic irq => irq + 1
  | .device _ => 18

theorem wired_oneConnection : Wired oneConnection oneConnectionBits where
  timer := rfl
  serial := rfl
  pic _ := rfl
  device := (by decide : ∀ i : Fin 1, (oneConnection.devices.get i).badge =
    BitVec.twoPow 32 27 ||| BitVec.twoPow 32 18)
  func := (by decide : ∀ i : Fin 1, (oneConnection.devices.get i).func.isSome = true)
  injective s t h := by
    cases s <;> cases t <;> simp only [oneConnectionBits] at h ⊢ <;>
      first
      | omega
      | exact congrArg Source.pic (Fin.ext (by omega))
      | exact congrArg Source.device (@Subsingleton.elim (Fin 1) _ _ _)
  ne_mark s := by cases s <;> simp only [oneConnectionBits] <;> omega
  timer_lt := show 0 < 64 by decide
  serial_lt := show 17 < 64 by decide
  device_lt _ := show 18 < 32 by decide

/-- The timer and the connection signal, and their badges are merged. -/
def mergedSignals : List (Event (Source 1) (BitVec 32)) :=
  [.signal .timer, .signal (.device 0), .handle 1]

/-- Both are handled. -/
theorem events_dispatched_merged :
    Complete (mergedSignals.foldl (State.next oneConnection.badge (handlersRun oneConnection))
        idle).history ∧
      Exclusive (mergedSignals.foldl (State.next oneConnection.badge (handlersRun oneConnection))
        idle).history :=
  ((@events_dispatched 64 Unit Unit Unit (by decide)).1 oneConnection oneConnectionBits
    wired_oneConnection).2.1 mergedSignals _
    (run_foldl ⟨trivial, trivial, trivial, trivial⟩)

end Events
end CamkesVm
