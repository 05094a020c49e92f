import CamkesVm.Serial.DataReady
import CamkesVm.Serial.Stall

/-!
# The device between two steps

What can be said of the transmitter and the receiver in every state of every run (`Orderly`): a
transmit FIFO that holds a byte shows, the transmit timer will come while the guest is kept waiting,
and a receive FIFO with a character in it has `DR` set.  The converse of the last does not hold,
since a reset of the FIFO leaves `DR` as it was.

A transmitter at rest (`Transmitter.Clear`) has nothing on its way, and the next byte stored in it
is the next one it loads.

## What is here

* `Transmitter.Clear`, `Flagged` — a transmitter at rest, and the fact that a byte in the FIFO shows
  in the line status.
* `Clear.load_store`, `exists_load_store` — a byte stored at rest is the next one loaded, and only
  then: otherwise there is a byte for which it is not.
* `Receiver.Shown` — a receive FIFO that holds something has `DR` set.
* `Orderly`, `run_orderly` — all of it, in every state of every run.

What is shown here is used by the results about loopback, which start from any state that can be
reached.
-/

set_option autoImplicit false

namespace CamkesVm
namespace Serial

open Transition TimerService EffectLog

/-! ## The transmitter at rest -/

namespace Transmitter

variable {v : Transmitter}

/-- Nothing is on its way, and the next byte stored will be the next one loaded. -/
structure Clear (v : Transmitter) : Prop where
  /-- No byte waits in the shift register. -/
  retrying : v.retrying = false
  /-- The FIFO, if it is in use, is empty. -/
  count : v.enabled = true → v.fifo.count = 0
  /-- It is read where it is written. -/
  inStep : v.enabled = true → v.fifo.head = v.fifo.tail

/-- While the FIFO in use holds a byte, the holding register counts as full. -/
def Flagged (v : Transmitter) : Prop :=
  v.enabled = true → v.fifo.count ≠ 0 → v.empty = false

theorem Flagged.load (h : v.Flagged) : v.load.Flagged := by
  rw [Transmitter.load]
  split
  · exact h
  · split
    · rename_i he
      intro _ hc
      change (fifoGet v.fifo).2.count ≠ 0 at hc
      have hcount : v.fifo.count ≠ 0 := by
        intro h0
        rw [fifoGet, if_pos h0] at hc
        exact hc h0
      change (v.empty || decide ((fifoGet v.fifo).2.count = 0)) = false
      rw [h he hcount, decide_eq_false hc]
      rfl
    · rename_i he
      exact fun hyes ↦ absurd hyes he

theorem flagged_store (v : Transmitter) (c : BitVec 8) : (v.store c).Flagged := fun _ _ ↦ rfl

theorem Flagged.setFifo (h : v.Flagged) {flush enabled : Bool}
    (hsame : flush = false → enabled = v.enabled) : (v.setFifo flush enabled).Flagged := by
  cases flush with
  | true => exact fun _ hc ↦ absurd rfl hc
  | false => exact fun he hc ↦ h ((hsame rfl).symm.trans he) hc

/-- **A byte stored at rest** is the next one loaded, and then the transmitter is at rest again. -/
theorem Clear.load_store (h : v.Clear) (c : BitVec 8) :
    (v.store c).load.tsr = c ∧ (v.store c).load.empty = true ∧ (v.store c).load.Clear := by
  have hr : ¬(v.store c).retrying = true := by
    change ¬v.retrying = true
    simp [h.retrying]
  rw [Transmitter.load, if_neg hr]
  cases he : v.enabled with
  | false =>
    have hne : ¬(v.store c).enabled = true := by
      change ¬v.enabled = true
      simp [he]
    rw [if_neg hne]
    exact ⟨rfl, rfl, h.retrying, fun hyes ↦ absurd hyes hne, fun hyes ↦ absurd hyes hne⟩
  | true =>
    have he' : (v.store c).enabled = true := he
    have hfifo : (v.store c).fifo = { fifoStore v.fifo c with count := 1 } := by
      simp only [store, he, if_true]
      rw [if_pos (show (fifoStore v.fifo c).count < uartFifoLength by
        change v.fifo.count < _; rw [h.count he]; decide)]
      change { fifoStore v.fifo c with count := v.fifo.count + 1 } = _
      rw [h.count he]
    have hget : fifoGet { fifoStore v.fifo c with count := 1 } =
        (c, { fifoStore v.fifo c with
          tail := if v.fifo.tail + 1 = uartFifoLength then 0 else v.fifo.tail + 1
          count := 0 }) := by
      rw [fifoGet, if_neg Nat.one_ne_zero]
      change (Function.update v.fifo.data v.fifo.head c v.fifo.tail, _) = _
      rw [h.inStep he, Function.update_self]
      rfl
    rw [if_pos he', hfifo, hget]
    refine ⟨rfl, by simp, h.retrying, fun _ ↦ rfl, fun _ ↦ ?_⟩
    change (if v.fifo.head + 1 = uartFifoLength then 0 else v.fifo.head + 1) = _
    rw [h.inStep he]

/-- **Otherwise** what is loaded has nothing to do with what is stored. -/
theorem exists_load_store (h : v.retrying = true ∨
    v.enabled = true ∧ v.fifo.count = 0 ∧ v.fifo.head ≠ v.fifo.tail) :
    ∃ x, ∀ c, (v.store c).load.tsr = x := by
  cases hr : v.retrying with
  | true =>
    refine ⟨v.tsr, fun c ↦ ?_⟩
    rw [Transmitter.load, if_pos (show (v.store c).retrying = true from hr)]
    rfl
  | false =>
    obtain ⟨he, hcount, hends⟩ := h.resolve_left (by simp [hr])
    refine ⟨v.fifo.data v.fifo.tail, fun c ↦ ?_⟩
    have hr' : ¬(v.store c).retrying = true := by
      change ¬v.retrying = true
      simp [hr]
    rw [Transmitter.load, if_neg hr', if_pos (show (v.store c).enabled = true from he)]
    change (fifoGet (v.store c).fifo).1 = _
    simp only [store, he, if_true]
    rw [if_pos (show (fifoStore v.fifo c).count < uartFifoLength by
      change v.fifo.count < _; rw [hcount]; decide), fifoGet, if_neg (Nat.succ_ne_zero _)]
    exact Function.update_of_ne hends.symm c v.fifo.data

theorem Clear.setFifo (h : v.Clear) {flush enabled : Bool}
    (hsame : flush = false → enabled = v.enabled) : (v.setFifo flush enabled).Clear := by
  cases flush with
  | true => exact ⟨h.retrying, fun _ ↦ rfl, fun _ ↦ rfl⟩
  | false =>
    exact ⟨h.retrying, fun he ↦ h.count ((hsame rfl).symm.trans he),
      fun he ↦ h.inStep ((hsame rfl).symm.trans he)⟩

end Transmitter

/-! ## The receiver while `DR` is clear -/

/-- The FIFO is in order, and empty while `DR` is clear. -/
structure Receiver.Shown (r : Receiver) : Prop where
  /-- The FIFO is in order. -/
  fifoOk : FifoOk r.fifo
  /-- It is empty while `DR` is clear. -/
  ready : r.enabled = true → r.ready = false → r.fifo.count = 0

namespace Receiver.Shown

variable {r : Receiver}

theorem accept (h : r.Shown) (c : BitVec 8) : (r.accept c).Shown := by
  rw [Receiver.accept]
  split
  · split
    · rename_i hc
      exact ⟨(waiting_fifoStore h.fifoOk c hc).2, fun _ hno ↦ absurd hno (by simp)⟩
    · exact ⟨h.fifoOk, fun _ hno ↦ absurd hno (by simp)⟩
  · exact ⟨h.fifoOk, fun _ hno ↦ absurd hno (by simp)⟩

theorem foldl_accept (h : r.Shown) (cs : List (BitVec 8)) : (cs.foldl Receiver.accept r).Shown := by
  induction cs generalizing r with
  | nil => exact h
  | cons c cs ih => exact ih (h.accept c)

theorem read (h : r.Shown) : r.read.2.Shown := by
  refine ⟨Receiver.fifoOk_read h.fifoOk, ?_⟩
  rw [Receiver.read]
  split
  · intro he hready
    by_contra hc
    change (r.ready && decide ((fifoGet r.fifo).2.count ≠ 0)) = false at hready
    rw [decide_eq_true hc, Bool.and_true] at hready
    have hcount := h.ready he hready
    rw [fifoGet, if_pos hcount] at hc
    exact hc hcount
  · rename_i he
    exact fun hyes ↦ absurd hyes he

theorem clear (h : r.Shown) : r.clear.Shown := ⟨h.fifoOk, h.ready⟩

theorem setFifo (h : r.Shown) {flush enabled : Bool} (hsame : flush = false → enabled = r.enabled)
    (itl : ℕ) : (r.setFifo flush enabled itl).Shown := by
  refine ⟨Receiver.fifoOk_setFifo h.fifoOk flush enabled itl, ?_⟩
  cases flush with
  | true => exact fun _ _ ↦ rfl
  | false => exact fun he hready ↦ h.ready ((hsame rfl).symm.trans he) hready

/-- While `DR` is clear it says so, and there is nothing to read. -/
theorem agrees (h : r.Shown) (hready : r.ready = false) : r.Agrees ∧ r.unread = [] := by
  have hagrees : r.Agrees := fun he ↦
    iff_of_false (by simp [hready]) (not_not.mpr (h.ready he hready))
  exact ⟨hagrees, Receiver.unread_of_not_ready hagrees hready⟩

end Receiver.Shown

/-! ## What holds in every run -/

/-- What holds in every state. -/
structure Orderly (y : Machine) : Prop where
  /-- The device is sane. -/
  sane : Sane y.serial
  /-- While `THRE` is clear the transmit timer will come. -/
  driven : Driven y.timers y.serial
  /-- While the transmit FIFO holds a byte `THRE` is clear. -/
  flagged : (view y.serial).Flagged
  /-- While `DR` is clear the receive FIFO is empty. -/
  shown : (receiver y.serial).Shown

theorem flagged_serialXmit {s : SerialState} (h : (view s).Flagged) (t : Times) :
    (view (serialXmit s t)).Flagged := by
  cases hloop : anyBit s.mcr uartMcrLoop with
  | true =>
    rw [view_serialXmit_loop s t hloop]
    exact h.load
  | false =>
    rcases view_serialXmit s t hloop with hsent | ⟨retrying, hput⟩
    · rw [hsent]
      exact h.load
    · rw [hput]
      exact h.load

theorem Orderly.flagged_next {y : Machine} (h : Orderly y) (e : Event) :
    (view (y.next e).serial).Flagged := by
  cases e with
  | portIn addr now =>
    change (view (serialIoportRead y.serial now addr).2).Flagged
    rw [view_serialIoportRead]
    exact h.flagged
  | portOut addr val t =>
    change (view (serialIoportWrite y.serial t addr val)).Flagged
    rcases view_serialIoportWrite y.serial t addr val with
      ⟨-, -, hsent⟩ | ⟨-, flush, enabled, hview, hsame, -⟩
    · rw [hsent]
      refine flagged_serialXmit ?_ t
      rw [view_storeThr]
      exact Transmitter.flagged_store _ val
    · rw [hview]
      exact h.flagged.setFifo hsame
  | timer completed t =>
    change (view (GetcharBuf.serialTimerInterrupt y.serial completed t y.buffer).1).Flagged
    rw [GetcharBuf.serialTimerInterrupt_fst]
    obtain ⟨s', hsame, -, -, hview⟩ :=
      view_serialTimerInterrupt y.serial completed t y.buffer.contents
    rw [hview]
    split
    · exact flagged_serialXmit (hsame ▸ h.flagged) t
    · exact h.flagged
  | character now =>
    change (view (GetcharBuf.serialCharacterInterrupt y.serial now y.buffer).1).Flagged
    rw [GetcharBuf.serialCharacterInterrupt_fst, view_serialCharacterInterrupt]
    exact h.flagged
  | expire timer => exact h.flagged
  | enqueue c => exact h.flagged
  | signal => exact h.flagged

theorem Orderly.shown_next {y : Machine} (h : Orderly y) (e : Event) :
    (receiver (y.next e).serial).Shown := by
  cases e with
  | portIn addr now =>
    change (receiver (serialIoportRead y.serial now addr).2).Shown
    rcases receiver_serialIoportRead h.sane now addr with ⟨-, -, -, hread⟩ | ⟨-, hsame | hclear⟩
    · rw [hread]
      exact h.shown.read
    · rw [hsame]
      exact h.shown
    · rw [hclear]
      exact h.shown.clear
  | portOut addr val t =>
    obtain ⟨flush, enabled, itl, hset, hsame, -⟩ := receiver_serialIoportWrite h.sane t addr val
    change (receiver (serialIoportWrite y.serial t addr val)).Shown
    rw [hset]
    exact (h.shown.setFifo hsame itl).foldl_accept _
  | timer completed t =>
    rw [receiver_next_timer h.sane]
    exact h.shown.foldl_accept _
  | character now =>
    rw [receiver_next_character]
    exact h.shown.foldl_accept _
  | expire timer => exact h.shown
  | enqueue c => exact h.shown
  | signal => exact h.shown

theorem Orderly.next {y : Machine} (h : Orderly y) (e : Event) : Orderly (y.next e) :=
  ⟨h.sane.next e, h.driven.next h.sane e, h.flagged_next e, h.shown_next e⟩

theorem run_orderly {now : BitVec 64} {es : List Event} {y : Machine}
    (h : Run Machine.Step (Machine.init now) es y) : Orderly y := by
  have hdriven := run_driven (Run.nil : Run Machine.Step (Machine.init now) [] _)
  have hflagged : (view (serialPreInit now)).Flagged := by
    rw [view_serialPreInit]
    exact fun hno ↦ absurd hno Bool.false_ne_true
  have hshown : (receiver (serialPreInit now)).Shown := by
    rw [receiver_serialPreInit]
    exact ⟨fifoOk_fifoClear _, fun hno ↦ absurd hno Bool.false_ne_true⟩
  refine h.invariant ⟨hdriven.1, hdriven.2, hflagged, hshown⟩ ?_
  rintro y e - horderly ⟨-, rfl⟩
  exact horderly.next e

end Serial
end CamkesVm
