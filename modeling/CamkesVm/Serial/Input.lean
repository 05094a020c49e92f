import CamkesVm.Serial.Receiver

/-!
# Input, from the ring to the guest

A character for the guest is stored in the ring by the serial server, taken into the device when
the signal for it is handled, and read by the guest.  The device takes only what it has room for; if
it stops with characters left in the ring, it arms a timer to come back to them.

Outside loopback nothing goes wrong with this (`input_kept`).  The handlers overrun no character,
whatever the guest does.  As long as it resets the receive FIFO only while there is no character to
read, what it reads is what was stored, in order.  And while there is something in the ring, either
the server has a signal to send, or one is there to be handled, or the timer is armed or its
completion recorded.

## What is here

* `TookIn`, `receiveLoop`, `serialCharacterInterrupt` and the lemmas of that shape — what a handler
  moves from the ring to the receiver.
* `KeepsUnread`, `OutsideLoopback` — the two things asked of the guest, one event at a time.
* `NoOverrun`, `Delivered`, `Woken` — the three invariants, each with its step lemma: no overrun,
  the order, and somebody to come.
* `PlainStep`, `input_kept` — the runs, and all three together.

The guest may do everything else: it may disable the interrupts, change the trigger level, or never
read.
-/

set_option autoImplicit false

namespace CamkesVm
namespace Serial

open Transition TimerService EffectLog

/-! ## The handlers -/

/-- What a handler did with the characters in the ring: some were taken off, and are now the last
that the guest has yet to read. -/
structure TookIn (s s' : SerialState) (ring ring' : List (BitVec 8)) : Prop where
  /-- What was taken off the ring is now unread. -/
  unread : ∃ dequeued, ring = dequeued ++ ring' ∧
    (receiver s').unread = (receiver s).unread ++ dequeued
  /-- Nothing was overrun. -/
  overrun : (receiver s').overrun = (receiver s).overrun
  /-- The FIFO is in order. -/
  fifoOk : FifoOk (receiver s').fifo
  /-- `DR` still says whether there is a character. -/
  agrees : (receiver s).Agrees → (receiver s').Agrees

namespace TookIn

variable {s s' s'' : SerialState} {ring ring' : List (BitVec 8)}

/-- A call that leaves the receiver alone. -/
theorem of_receiver (h : receiver s' = receiver s) (hok : FifoOk (receiver s).fifo) :
    TookIn s s' ring ring :=
  ⟨⟨[], rfl, by rw [h, List.append_nil]⟩, by rw [h], h ▸ hok, by rw [h]; exact id⟩

/-- What follows such a call. -/
theorem after (h : receiver s' = receiver s) (h' : TookIn s' s'' ring ring') :
    TookIn s s'' ring ring' := by
  obtain ⟨hun, hover, hok, hagrees⟩ := h'
  rw [h] at hun hover hagrees
  exact ⟨hun, hover, hok, hagrees⟩

/-- **The loop takes in what there is room for**, and ends when the ring is empty or there is no
more room. -/
theorem receiveLoop (hok : FifoOk (receiver s).fifo) (now : BitVec 64) (ring : List (BitVec 8)) :
    TookIn s (receiveLoop s now ring).1 ring (receiveLoop s now ring).2 ∧
      ((receiveLoop s now ring).2 = [] ∨ serialCanReceive (receiveLoop s now ring).1 = 0) := by
  induction ring generalizing s with
  | nil => exact ⟨of_receiver rfl hok, .inl rfl⟩
  | cons c rest ih =>
    rw [Serial.receiveLoop]
    split
    · rename_i hfull
      exact ⟨of_receiver rfl hok, .inr hfull⟩
    · rename_i hroom
      obtain ⟨hun, hover, hok', hagrees⟩ :=
        Receiver.accept_of_room hok (room_of_canReceive hroom) c
      rw [← receiver_serialReceive1 s now c] at hun hover hok' hagrees
      obtain ⟨⟨⟨dequeued, hring, hread⟩, hover', hok'', hagrees'⟩, hend⟩ := ih hok'
      refine ⟨⟨⟨c :: dequeued, by rw [List.cons_append, ← hring], ?_⟩, hover'.trans hover, hok'',
        fun _ ↦ hagrees' hagrees⟩, hend⟩
      rw [hread, hun, List.append_assoc]
      rfl

/-- **Handling the signal.** -/
theorem serialCharacterInterrupt (hok : FifoOk (receiver s).fifo) (now : BitVec 64)
    (ring : List (BitVec 8)) : TookIn s (serialCharacterInterrupt s now ring).1 ring
      (serialCharacterInterrupt s now ring).2 := by
  have hloop := (receiveLoop hok now ring).1
  have hsame : receiver (Serial.serialCharacterInterrupt s now ring).1 =
      receiver (Serial.receiveLoop s now ring).1 := by
    rw [Serial.serialCharacterInterrupt]
    dsimp only
    split <;> rfl
  obtain ⟨hun, hover, hok', hagrees⟩ := hloop
  rw [← hsame] at hun hover hok' hagrees
  exact ⟨hun, hover, hok', hagrees⟩

end TookIn

/-- **Handling the completions of the timers for sending**: what the receiver is given is what the
transmitter sends in loopback. -/
theorem receiver_serialTimerInterrupt_of_noChars {s : SerialState} (hs : Sane s)
    {completed : Completed} (hno : completed.moreChars = false) (t : Times)
    (ring : List (BitVec 8)) :
    receiver (serialTimerInterrupt s completed t ring).1 =
      (if completed.transmit then looped s else []).foldl Receiver.accept (receiver s) := by
  have hothers : ∀ (s : SerialState) (others : Completed), Sane s → others.transmit = false →
      others.moreChars = false →
      receiver (serialTimerInterrupt s others t ring).1 = receiver s := by
    intro s others hs htransmit hmore
    have hkept := serialTimerInterrupt_rule (P := fun s' ↦ receiver s' = receiver s ∧ Sane s')
      ⟨rfl, hs⟩ others t ring
      (fun s' h ↦ ⟨(receiver_fifoTimeoutInt s').trans h.1, (Emits.fifoTimeoutInt [] s').sane h.2⟩)
      (fun hyes ↦ absurd (htransmit.symm.trans hyes) Bool.false_ne_true)
      (fun s' h ↦ by rwa [h.2.serialUpdateMsl])
      (fun hyes ↦ absurd (hmore.symm.trans hyes) Bool.false_ne_true)
    exact hkept.1
  cases htransmit : completed.transmit with
  | false => exact hothers s completed hs htransmit hno
  | true =>
    have hfirst : receiver (if completed.fifoTimeout then fifoTimeoutInt s else s) = receiver s ∧
        looped (if completed.fifoTimeout then fifoTimeoutInt s else s) = looped s ∧
        Sane (if completed.fifoTimeout then fifoTimeoutInt s else s) := by
      split
      · have hem := Emits.fifoTimeoutInt [] s
        exact ⟨receiver_fifoTimeoutInt s, looped_of_view (view_fifoTimeoutInt s) hem.mcr,
          hem.sane hs⟩
      · exact ⟨rfl, rfl, hs⟩
    rw [serialTimerInterrupt_of_transmit htransmit]
    generalize (if completed.fifoTimeout then fifoTimeoutInt s else s) = first at hfirst ⊢
    obtain ⟨hsame, hlooped, hs'⟩ := hfirst
    have hreset : Sane { first with charsSent := 0 } := ⟨hs'.tsrRetry, hs'.pollMsl, hs'.msr⟩
    have hem := Emits.serialXmit [.fifoTimeout, .transmit] _ t hreset (by decide) (by decide)
    have hlooped' : looped { first with charsSent := 0 } = looped first := looped_of_view rfl rfl
    have hrest := hothers (serialXmit { first with charsSent := 0 } t)
      { completed with fifoTimeout := false, transmit := false } (hem.sane hreset) rfl hno
    refine hrest.trans ?_
    rw [receiver_serialXmit, hlooped', hlooped, if_pos rfl, ← hsame]
    rfl

/-- **The timer handler up to the received characters.** -/
theorem serialTimerInterrupt_stages {s : SerialState} (hs : Sane s) (completed : Completed)
    (t : Times) (ring : List (BitVec 8)) :
    ∃ s', receiver s' =
        (if completed.transmit then looped s else []).foldl Receiver.accept (receiver s) ∧
      Emits [.fifoTimeout, .moreChars, .transmit] s s' ∧
      serialTimerInterrupt s completed t ring = if completed.moreChars then
        serialCharacterInterrupt s' t.received ring else (s', ring) := by
  -- the other completions, handled alone
  let others : Completed := { completed with moreChars := false }
  have hreceiver : receiver (serialTimerInterrupt s others t ring).1 =
      (if others.transmit then looped s else []).foldl Receiver.accept (receiver s) :=
    receiver_serialTimerInterrupt_of_noChars hs rfl t ring
  exact ⟨_, hreceiver, .serialTimerInterrupt _ s others t ring hs (by decide) (by decide)
    fun _ ↦ by decide, rfl⟩

/-- Outside loopback these leave the receiver alone. -/
theorem serialTimerInterrupt_stages_of_loopOff {s : SerialState} (hs : Sane s) (hloop : LoopOff s)
    (completed : Completed) (t : Times) (ring : List (BitVec 8)) :
    ∃ s', receiver s' = receiver s ∧ Emits [.fifoTimeout, .moreChars, .transmit] s s' ∧
      serialTimerInterrupt s completed t ring = if completed.moreChars then
        serialCharacterInterrupt s' t.received ring else (s', ring) := by
  obtain ⟨s', hreceiver, hrest⟩ := serialTimerInterrupt_stages hs completed t ring
  rw [looped_of_loopOff s hloop, ite_self] at hreceiver
  exact ⟨s', hreceiver, hrest⟩

/-- **Handling timer completions.** -/
theorem TookIn.serialTimerInterrupt {s : SerialState} (hs : Sane s) (hloop : LoopOff s)
    (hok : FifoOk (receiver s).fifo) (completed : Completed) (t : Times) (ring : List (BitVec 8)) :
    TookIn s (serialTimerInterrupt s completed t ring).1 ring
      (serialTimerInterrupt s completed t ring).2 := by
  obtain ⟨s', hsame, -, heq⟩ := serialTimerInterrupt_stages_of_loopOff hs hloop completed t ring
  rw [heq]
  split
  · exact after hsame (serialCharacterInterrupt (hsame ▸ hok) t.received ring)
  · exact of_receiver hsame hok

/-! ## The guest -/

/-- The receive FIFO is reset only while there is no character to read. -/
def KeepsUnread (y : Machine) : Event → Prop
  | .portOut addr val _ =>
    addr % 8 = 2 → ResetsRecv y.serial val → anyBit y.serial.lsr uartLsrDr = false
  | _ => True

instance (y : Machine) : (e : Event) → Decidable (KeepsUnread y e)
  | .portOut _ _ _ => inferInstanceAs (Decidable (_ → _ → _ = _))
  | .portIn _ _ | .expire _ | .timer _ _ | .enqueue _ | .signal | .character _ =>
    inferInstanceAs (Decidable True)

/-- Loopback is off. -/
def OutsideLoopback (y : Machine) (_ : Event) : Prop := LoopOff y.serial

instance (y : Machine) (e : Event) : Decidable (OutsideLoopback y e) :=
  inferInstanceAs (Decidable (LoopOff _))

/-- **A port read**: the receive register is read, or the line status, or the receiver is left
alone. -/
theorem receiver_serialIoportRead {s : SerialState} (hs : Sane s) (now : BitVec 64) (addr : ℕ) :
    (addr % 8 = 0 ∧ anyBit s.lcr uartLcrDlab = false ∧
      (serialIoportRead s now addr).1 = (receiver s).read.1 ∧
      receiver (serialIoportRead s now addr).2 = (receiver s).read.2) ∨
    (Machine.taken s now addr = [] ∧
      (receiver (serialIoportRead s now addr).2 = receiver s ∨
        receiver (serialIoportRead s now addr).2 = (receiver s).clear)) := by
  have hnone : addr % 8 ≠ 0 → Machine.taken s now addr = [] := fun hne ↦ if_neg fun h ↦ hne h.1
  rw [serialIoportRead]
  split
  · rename_i haddr
    cases hdlab : anyBit s.lcr uartLcrDlab with
    | true => exact .inr ⟨if_neg fun h ↦ by simp [hdlab] at h, .inl rfl⟩
    | false =>
      obtain ⟨hval, hread⟩ := receiver_readRbr s now
      exact .inl ⟨haddr, rfl, hval, hread⟩
  · refine .inr ⟨hnone (by omega), .inl ?_⟩
    split <;> rfl
  · refine .inr ⟨hnone (by omega), .inl ?_⟩
    dsimp only
    split <;> rfl
  · exact .inr ⟨hnone (by omega), .inl rfl⟩
  · exact .inr ⟨hnone (by omega), .inl rfl⟩
  · refine .inr ⟨hnone (by omega), ?_⟩
    dsimp only
    split
    · have hdr : anyBit (s.lsr &&& ~~~(uartLsrBi ||| uartLsrOe)) uartLsrDr =
          anyBit s.lsr uartLsrDr :=
        anyBit_and_of_subset s.lsr (by decide)
      have hoe : anyBit (s.lsr &&& ~~~(uartLsrBi ||| uartLsrOe)) uartLsrOe = false :=
        anyBit_and_of_disjoint s.lsr (by decide)
      exact .inr (Receiver.ext rfl hdr hoe rfl rfl)
    · exact .inl rfl
  · exact .inr ⟨hnone (by omega), .inl (receiver_readMsr s hs)⟩
  · rename_i hne _ _ _ _ _ _
    exact .inr ⟨hnone hne, .inl rfl⟩

/-- It leaves the FIFO in order. -/
theorem fifoOk_serialIoportRead {s : SerialState} (hs : Sane s) (hok : FifoOk (receiver s).fifo)
    (now : BitVec 64) (addr : ℕ) : FifoOk (receiver (serialIoportRead s now addr).2).fifo := by
  rcases receiver_serialIoportRead hs now addr with ⟨-, -, -, hread⟩ | ⟨-, hsame | hclear⟩
  · rw [hread]
    exact Receiver.fifoOk_read hok
  · rw [hsame]
    exact hok
  · rw [hclear]
    exact hok

/-- The characters that a port write gives the receiver: in loopback, the one sent. -/
def loopedOut (s : SerialState) (addr : ℕ) (val : BitVec 8) : List (BitVec 8) :=
  if addr % 8 = 0 ∧ anyBit s.lcr uartLcrDlab = false then looped (storeThr s val) else []

theorem loopedOut_of_loopOff {s : SerialState} (h : LoopOff s) (addr : ℕ) (val : BitVec 8) :
    loopedOut s addr val = [] := by
  rw [loopedOut]
  split
  · exact looped_of_loopOff _ ((Emits.storeThr [] s val).loopOff h)
  · rfl

theorem loopedOut_of_ne (s : SerialState) {addr : ℕ} (val : BitVec 8) (haddr : addr % 8 ≠ 0) :
    loopedOut s addr val = [] := if_neg fun h ↦ haddr h.1

/-- A port write other than to FIFO control leaves the receiver alone, but for loopback. -/
theorem receiver_serialIoportWrite_of_ne {s : SerialState} (hs : Sane s) (t : Times) {addr : ℕ}
    (val : BitVec 8) (hne : addr % 8 ≠ 2) : receiver (serialIoportWrite s t addr val) =
      (loopedOut s addr val).foldl Receiver.accept (receiver s) := by
  rw [serialIoportWrite]
  split
  · rename_i haddr
    rw [loopedOut]
    split
    · rename_i hdlab
      rw [if_neg fun h ↦ by simp [hdlab] at h]
      exact receiver_serialUpdateParameters _
    · rename_i hdlab
      rw [if_pos ⟨haddr, by simpa using hdlab⟩, receiver_serialXmit, receiver_storeThr]
  · rw [loopedOut_of_ne s val (by omega)]
    split
    · exact receiver_serialUpdateParameters _
    · exact receiver_writeIer s hs val
  · rename_i haddr
    exact absurd haddr hne
  · rw [loopedOut_of_ne s val (by omega)]
    exact receiver_serialUpdateParameters _
  · rw [loopedOut_of_ne s val (by omega)]
    rfl
  · rw [loopedOut_of_ne s val (by omega)]
    rfl
  · rename_i h0 _ _ _ _ _
    rw [loopedOut_of_ne s val h0]
    rfl

/-- **A port write**: the FIFO is set up, or the receiver is left alone, but for loopback. -/
theorem receiver_serialIoportWrite {s : SerialState} (hs : Sane s) (t : Times) (addr : ℕ)
    (val : BitVec 8) :
    ∃ flush enabled itl, receiver (serialIoportWrite s t addr val) =
        (loopedOut s addr val).foldl Receiver.accept ((receiver s).setFifo flush enabled itl) ∧
      (flush = false → enabled = (receiver s).enabled) ∧
      (flush = true ↔ addr % 8 = 2 ∧ s.fcr ≠ val ∧ ResetsRecv s val) := by
  by_cases haddr : addr % 8 = 2
  · obtain ⟨flush, enabled, itl, hset, hkeep, hreset⟩ := receiver_writeFcr s val
    refine ⟨flush, enabled, itl, ?_, hkeep, hreset.trans (and_iff_right haddr).symm⟩
    rw [loopedOut_of_ne s val (by omega), serialIoportWrite, haddr]
    exact hset
  · refine ⟨false, (receiver s).enabled, s.recvFifo.itl, ?_, fun _ ↦ rfl, ?_⟩
    · exact receiver_serialIoportWrite_of_ne hs t val haddr
    · exact iff_of_false Bool.false_ne_true fun hno ↦ haddr hno.1

/-! ## Overruns -/

/-- What holds outside loopback. -/
structure NoOverrun (y : Machine) : Prop where
  /-- The device is sane. -/
  sane : Sane y.serial
  /-- The FIFO is in order. -/
  fifoOk : FifoOk (receiver y.serial).fifo
  /-- No character was overrun. -/
  overrun : (receiver y.serial).overrun = false

/-- The events in which characters are taken off the ring. -/
def TakesIn : Event → Prop
  | .timer _ _ | .character _ => True
  | _ => False

/-- **A handler takes in characters** from the ring. -/
theorem NoOverrun.tookIn {y : Machine} (h : NoOverrun y) (hloop : LoopOff y.serial) {e : Event}
    (he : TakesIn e) : TookIn y.serial (y.next e).serial y.buffer.contents
      (y.next e).buffer.contents := by
  cases e with
  | timer completed t =>
    have htook := TookIn.serialTimerInterrupt h.sane hloop h.fifoOk completed t y.buffer.contents
    rw [← GetcharBuf.serialTimerInterrupt_eq] at htook
    exact htook
  | character now =>
    have htook := TookIn.serialCharacterInterrupt h.fifoOk now y.buffer.contents
    rw [← GetcharBuf.serialCharacterInterrupt_eq] at htook
    exact htook
  | _ => exact absurd he id

/-- Reading the receive register overruns nothing. -/
theorem Receiver.overrun_read (r : Receiver) : r.read.2.overrun = r.overrun := by
  rw [read]
  split <;> rfl

/-- **No event outside loopback overruns a character.** -/
theorem NoOverrun.next {y : Machine} (h : NoOverrun y) (hloop : LoopOff y.serial) (e : Event) :
    NoOverrun (y.next e) := by
  have htook : TakesIn e → NoOverrun (y.next e) := fun he ↦
    have htook := h.tookIn hloop he
    ⟨h.sane.next e, htook.fifoOk, htook.overrun.trans h.overrun⟩
  cases e with
  | portIn addr now =>
    refine ⟨h.sane.next _, fifoOk_serialIoportRead h.sane h.fifoOk now addr, ?_⟩
    change (receiver (serialIoportRead y.serial now addr).2).overrun = false
    rcases receiver_serialIoportRead h.sane now addr with ⟨-, -, -, hread⟩ | ⟨-, hsame | hclear⟩
    · rw [hread]
      exact (Receiver.overrun_read _).trans h.overrun
    · rw [hsame]
      exact h.overrun
    · rw [hclear]
      rfl
  | portOut addr val t =>
    obtain ⟨flush, enabled, itl, hset, -⟩ := receiver_serialIoportWrite h.sane t addr val
    rw [loopedOut_of_loopOff hloop] at hset
    have hserial : (y.next (.portOut addr val t)).serial = serialIoportWrite y.serial t addr val :=
      rfl
    refine ⟨h.sane.next _, ?_, ?_⟩
    · rw [hserial, hset]
      exact Receiver.fifoOk_setFifo h.fifoOk flush enabled itl
    · rw [hserial, hset]
      exact h.overrun
  | timer completed t => exact htook trivial
  | character now => exact htook trivial
  | expire timer => exact ⟨h.sane, h.fifoOk, h.overrun⟩
  | enqueue c => exact ⟨h.sane, h.fifoOk, h.overrun⟩
  | signal => exact ⟨h.sane, h.fifoOk, h.overrun⟩

theorem receiver_serialReset (s : SerialState) (now : BitVec 64) : receiver (serialReset s now) =
    { rbr := 0, ready := false, overrun := false, enabled := fifoEnabled s,
      fifo := fifoClear s.recvFifo } := by
  have hdr : anyBit (uartLsrTemt ||| uartLsrThre) uartLsrDr = false := by decide
  have hoe : anyBit (uartLsrTemt ||| uartLsrThre) uartLsrOe = false := by decide
  refine Receiver.ext rfl ?_ ?_ rfl rfl
  · exact show anyBit (serialReset s now).lsr uartLsrDr = false from hdr
  · exact show anyBit (serialReset s now).lsr uartLsrOe = false from hoe

theorem receiver_serialPreInit (now : BitVec 64) : receiver (serialPreInit now) =
    { rbr := 0, ready := false, overrun := false, enabled := false,
      fifo := fifoClear zeroFifo } := by
  have hfe : fifoEnabled { zeroState with baudbase := 115200 } = false := by decide
  rw [serialPreInit, (sane_serialReset _ now).serialUpdateMsl, receiver_serialReset, hfe]
  rfl

theorem noOverrun_init (now : BitVec 64) : NoOverrun (Machine.init now) := by
  refine ⟨sane_serialPreInit now, ?_, ?_⟩
  · change FifoOk (receiver (serialPreInit now)).fifo
    rw [receiver_serialPreInit]
    exact fifoOk_fifoClear _
  · change (receiver (serialPreInit now)).overrun = false
    rw [receiver_serialPreInit]

/-! ## What the guest reads -/

/-- Every character stored was read, is unread, or is still in the ring. -/
structure Delivered (y : Machine) : Prop where
  /-- `DR` says whether there is a character to read. -/
  agrees : (receiver y.serial).Agrees
  /-- The characters stored, in order. -/
  stored : y.enqueued = y.got ++ (receiver y.serial).unread ++ y.buffer.contents

/-- **What a port read takes** is the first of the characters yet to read, or nothing. -/
theorem taken_append_unread {s : SerialState} (hs : Sane s) (hok : FifoOk (receiver s).fifo)
    (hagrees : (receiver s).Agrees) (now : BitVec 64) (addr : ℕ) :
    Machine.taken s now addr ++ (receiver (serialIoportRead s now addr).2).unread =
        (receiver s).unread ∧
      (receiver (serialIoportRead s now addr).2).Agrees := by
  rcases receiver_serialIoportRead hs now addr with
    ⟨haddr, hdlab, hval, hread⟩ | ⟨hnone, hsame | hclear⟩
  · cases hready : anyBit s.lsr uartLsrDr with
    | true =>
      obtain ⟨hun, hagrees'⟩ := Receiver.read_of_ready hok hagrees hready
      rw [Machine.taken, if_pos ⟨haddr, hdlab, hready⟩, hval, hread, hun]
      exact ⟨rfl, hagrees'⟩
    | false =>
      have hnone : Machine.taken s now addr = [] :=
        if_neg fun hno ↦ absurd (hready.symm.trans hno.2.2) (by decide)
      rw [hnone, hread, Receiver.read_of_not_ready hagrees hready]
      exact ⟨rfl, hagrees⟩
  · rw [hnone, hsame]
    exact ⟨rfl, hagrees⟩
  · rw [hnone, hclear]
    exact ⟨rfl, hagrees⟩

/-- Reading a port hands the guest the first unread character, or none. -/
theorem Delivered.portIn {y : Machine} (h : Delivered y) (hno : NoOverrun y) (addr : ℕ)
    (now : BitVec 64) : Delivered (y.next (.portIn addr now)) := by
  obtain ⟨hun, hagrees⟩ := taken_append_unread hno.sane hno.fifoOk h.agrees now addr
  refine ⟨hagrees, ?_⟩
  change y.enqueued = y.got ++ Machine.taken y.serial now addr ++
    (receiver (serialIoportRead y.serial now addr).2).unread ++ y.buffer.contents
  rw [List.append_assoc y.got, hun]
  exact h.stored

/-- **No character is lost on the way to the guest**, if the receive FIFO is reset only while there
is none to read. -/
theorem Delivered.next {y : Machine} (h : Delivered y) (hno : NoOverrun y)
    (hloop : LoopOff y.serial) {e : Event} (hen : y.Enabled e) (hkeep : KeepsUnread y e) :
    Delivered (y.next e) := by
  have htook : TakesIn e → (y.next e).enqueued = y.enqueued → (y.next e).got = y.got →
      Delivered (y.next e) := by
    intro he henq hgot
    obtain ⟨⟨dequeued, hring, hunread⟩, -, -, hagrees⟩ := hno.tookIn hloop he
    refine ⟨hagrees h.agrees, ?_⟩
    rw [henq, hgot, hunread, h.stored, hring]
    simp only [List.append_assoc]
  cases e with
  | portIn addr now => exact h.portIn hno addr now
  | portOut addr val t =>
    obtain ⟨flush, enabled, itl, hset, hsame, hreset⟩ :=
      receiver_serialIoportWrite hno.sane t addr val
    rw [loopedOut_of_loopOff hloop] at hset
    obtain ⟨hun, hagrees⟩ := Receiver.setFifo_kept h.agrees hsame
      (fun hf ↦ hkeep (hreset.mp hf).1 (hreset.mp hf).2.2) itl
    rw [List.foldl_nil] at hset
    rw [← hset] at hun hagrees
    refine ⟨hagrees, ?_⟩
    change y.enqueued =
      y.got ++ (receiver (serialIoportWrite y.serial t addr val)).unread ++ y.buffer.contents
    rw [hun]
    exact h.stored
  | timer completed t => exact htook trivial rfl rfl
  | character now => exact htook trivial rfl rfl
  | expire timer => exact ⟨h.agrees, h.stored⟩
  | signal => exact ⟨h.agrees, h.stored⟩
  | enqueue c =>
    refine ⟨h.agrees, ?_⟩
    change y.enqueued ++ [c] = y.got ++ (receiver y.serial).unread ++ (y.buffer.enqueue c).contents
    rw [GetcharBuf.contents_enqueue c hen, h.stored, List.append_assoc _ _ [c]]

theorem delivered_init (now : BitVec 64) : Delivered (Machine.init now) := by
  refine ⟨?_, ?_⟩
  · change (receiver (serialPreInit now)).Agrees
    rw [receiver_serialPreInit]
    exact fun hno ↦ absurd hno Bool.false_ne_true
  · have hserial : (Machine.init now).serial = serialPreInit now := rfl
    have hempty : (Machine.init now).buffer.contents = [] := GetcharBuf.contents_empty
    rw [hserial, receiver_serialPreInit, hempty]
    rfl

/-! ## Waking up -/

/-- Someone will come for the characters in the ring: the server has its signal to send, or that is
there to be handled, or the timer will complete or has. -/
def Awaited (y : Machine) : Prop :=
  y.owed = true ∨ y.pending = true ∨ y.timers.Outstanding .moreChars

/-- Characters in the ring are awaited. -/
def Woken (y : Machine) : Prop := y.buffer.contents ≠ [] → Awaited y

/-- **The handler comes back** for what it leaves in the ring. -/
theorem outstanding_serialCharacterInterrupt {y : Machine} {s : SerialState} {armed : List Timer}
    (hem : Emits armed y.serial s) (hok : FifoOk (receiver s).fifo) (now : BitVec 64)
    (ring : List (BitVec 8)) (hne : (serialCharacterInterrupt s now ring).2 ≠ []) :
    (y.withSerial (serialCharacterInterrupt s now ring).1).timers.Outstanding .moreChars := by
  have hend := (TookIn.receiveLoop hok now ring).2
  have hfull : serialCanReceive (receiveLoop s now ring).1 = 0 := hend.resolve_left hne
  obtain ⟨es, hlog, -⟩ := hem.log
  obtain ⟨es', hlog', -⟩ := (Emits.receiveLoop [.fifoTimeout] s now ring (by decide)).log
  have heq : (serialCharacterInterrupt s now ring).1.log =
      y.serial.log ++ ((es ++ es') ++ [.oneshotRelative .moreChars 3000000]) := by
    rw [serialCharacterInterrupt]
    dsimp only
    rw [if_pos hfull, SerialState.emit, hlog', hlog]
    simp only [List.append_assoc]
  left
  change (y.timers.obeyAll command (news y.serial.log _)).armed .moreChars = true
  rw [heq, news_append]
  exact Timers.armed_obeyAll_arm y.timers (es ++ es') rfl

/-- A write to a port does not stop the timer. -/
theorem outstanding_serialIoportWrite {y : Machine} (hsane : Sane y.serial)
    (h : y.timers.Outstanding .moreChars) (t : Times) (addr : ℕ) (val : BitVec 8) :
    (y.withSerial (serialIoportWrite y.serial t addr val)).timers.Outstanding .moreChars := by
  by_cases haddr : addr % 8 = 4
  · rwa [timers_withSerial_mcr haddr]
  · exact Machine.outstanding_withSerial (.serialIoportWrite [.fifoTimeout, .transmit] _ t addr val
      hsane haddr (.inr ⟨by decide, by decide⟩)) (by decide) h

/-- Where the signal stays as it is, the timer decides. -/
theorem Awaited.of_timers {y z : Machine} (h : Awaited y) (howed : z.owed = y.owed)
    (hpending : z.pending = y.pending)
    (htimers : y.timers.Outstanding .moreChars → z.timers.Outstanding .moreChars) : Awaited z := by
  rcases h with h | h | h
  · exact .inl (howed.trans h)
  · exact .inr (.inl (hpending.trans h))
  · exact .inr (.inr (htimers h))

/-- Handling completions leaves the ring awaited: a character that stays there arms the timer. -/
theorem Woken.timer {y : Machine} (h : Woken y) (hno : NoOverrun y) (hloop : LoopOff y.serial)
    (completed : Completed) (t : Times) : Woken (y.next (.timer completed t)) := by
  intro hne
  let z : Machine := { y with timers := y.timers.collect completed.has }
  have hnext : (y.next (.timer completed t)).timers =
      (z.withSerial (serialTimerInterrupt y.serial completed t y.buffer.contents).1).timers := by
    rw [← GetcharBuf.serialTimerInterrupt_fst]
    rfl
  have hne' : (serialTimerInterrupt y.serial completed t y.buffer.contents).2 ≠ [] := by
    rw [← GetcharBuf.serialTimerInterrupt_snd]
    exact hne
  obtain ⟨s', hsame, hem, heq⟩ := serialTimerInterrupt_stages_of_loopOff hno.sane hloop completed t
    y.buffer.contents
  cases hmore : completed.moreChars with
  | true =>
    refine .inr (.inr ?_)
    rw [hnext]
    rw [heq, if_pos hmore] at hne' ⊢
    exact outstanding_serialCharacterInterrupt (y := z) hem (hsame ▸ hno.fifoOk) t.received
      y.buffer.contents hne'
  | false =>
    have hnot : ¬completed.moreChars = true := by simp [hmore]
    rw [heq, if_neg hnot] at hne' hnext
    refine (h hne').of_timers rfl rfl fun htimer ↦ ?_
    rw [hnext]
    exact Machine.outstanding_withSerial (y := z) hem (by decide) (htimer.collect hmore)

/-- **Characters in the ring stay awaited.** -/
theorem Woken.next {y : Machine} (h : Woken y) (hno : NoOverrun y) (hloop : LoopOff y.serial)
    (e : Event) : Woken (y.next e) := by
  cases e with
  | portIn addr now =>
    exact fun hne ↦ (h hne).of_timers rfl rfl (Machine.outstanding_withSerial
      (.serialIoportRead [.fifoTimeout] _ now addr hno.sane (by decide)) (by decide))
  | portOut addr val t =>
    exact fun hne ↦ (h hne).of_timers rfl rfl fun htimer ↦
      outstanding_serialIoportWrite hno.sane htimer t addr val
  | expire timer => exact fun hne ↦ (h hne).of_timers rfl rfl fun htimer ↦ htimer.expire timer
  | timer completed t => exact h.timer hno hloop completed t
  | enqueue c => exact fun _ ↦ .inl rfl
  | signal => exact fun _ ↦ .inr (.inl rfl)
  | character now =>
    intro hne
    change (GetcharBuf.serialCharacterInterrupt y.serial now y.buffer).2.contents ≠ [] at hne
    rw [GetcharBuf.serialCharacterInterrupt_snd] at hne
    have htimer := outstanding_serialCharacterInterrupt (y := y)
      (Emits.refl : Emits [] y.serial y.serial) hno.fifoOk now y.buffer.contents hne
    rw [← GetcharBuf.serialCharacterInterrupt_fst] at htimer
    exact .inr (.inr htimer)

/-! ## Runs -/

/-- A step of the machine outside loopback. -/
abbrev PlainStep : Machine → Event → Machine → Prop := Guarded OutsideLoopback Machine.Step

/-- What holds outside loopback, of every run. -/
theorem run_plain {now : BitVec 64} {es : List Event} {y : Machine}
    (h : Run PlainStep (Machine.init now) es y) : NoOverrun y ∧ Woken y := by
  refine h.invariant (I := fun y ↦ NoOverrun y ∧ Woken y)
    ⟨noOverrun_init now, fun hne ↦ absurd GetcharBuf.contents_empty hne⟩ ?_
  rintro s e t ⟨hno, hwoken⟩ ⟨hloop, -, rfl⟩
  exact ⟨hno.next hloop e, hwoken.next hno hloop e⟩

/-- **UART input is neither lost nor stranded.**  In every run outside loopback: no character was
overrun, and none is by a handler, which only moves characters from the front of the ring to the end
of those the guest has yet to read; if in this run the receive FIFO was reset only while there was
no character to read, the guest has read a prefix of what was stored; and what is in the ring is
awaited. -/
theorem input_kept {now : BitVec 64} {es : List Event} {y : Machine}
    (h : Run PlainStep (Machine.init now) es y) :
    anyBit y.serial.lsr uartLsrOe = false ∧
    (∀ e y', TakesIn e → PlainStep y e y' → anyBit y'.serial.lsr uartLsrOe = false ∧
      ∃ dequeued, y.buffer.contents = dequeued ++ y'.buffer.contents ∧
        (receiver y'.serial).unread = (receiver y.serial).unread ++ dequeued) ∧
    (Run (Guarded KeepsUnread PlainStep) (Machine.init now) es y → y.got <+: y.enqueued) ∧
    (y.buffer.contents ≠ [] → Awaited y) := by
  obtain ⟨hno, hwoken⟩ := run_plain h
  refine ⟨hno.overrun, ?_, fun hkept ↦ ?_, hwoken⟩
  · rintro e y' he ⟨hloop, -, rfl⟩
    have htook := hno.tookIn hloop he
    exact ⟨htook.overrun.trans hno.overrun, htook.unread⟩
  · have hall : NoOverrun y ∧ Delivered y := by
      refine hkept.invariant_guarded (I := fun y ↦ NoOverrun y ∧ Delivered y)
        ⟨noOverrun_init now, delivered_init now⟩ ?_
      rintro s e t ⟨hno, hdelivered⟩ hkeep ⟨hloop, hen, rfl⟩
      exact ⟨hno.next hloop e, hdelivered.next hno hloop hen hkeep⟩
    rw [hall.2.stored, List.append_assoc]
    exact List.prefix_append _ _

/-- The theorem for a guest that enables the FIFO and reads one of two characters. -/
theorem input_kept_two :
    let y := [.portOut 2 0x01 noTimes, .enqueue 0x41, .signal, .character 0, .enqueue 0x42,
      .portIn 0 0].foldl Machine.next (Machine.init 0)
    anyBit y.serial.lsr uartLsrOe = false ∧ y.got <+: y.enqueued ∧ Awaited y := by
  have hrun : Run (Does (fun y e ↦ (KeepsUnread y e ∧ OutsideLoopback y e) ∧ y.Enabled e)
      Machine.next) (Machine.init 0) [.portOut 2 0x01 noTimes, .enqueue 0x41, .signal,
        .character 0, .enqueue 0x42, .portIn 0 0] _ := run_foldl (by decide)
  have hplain : Run PlainStep (Machine.init 0) _ _ :=
    hrun.mono fun _ _ _ h ↦ ⟨h.1.1.2, h.1.2, h.2⟩
  have hkept : Run (Guarded KeepsUnread PlainStep) (Machine.init 0) _ _ :=
    hrun.mono fun _ _ _ h ↦ ⟨h.1.1.1, h.1.1.2, h.1.2, h.2⟩
  obtain ⟨hover, -, hread, hwoken⟩ := input_kept hplain
  exact ⟨hover, hread hkept, hwoken (by decide)⟩

end Serial
end CamkesVm
