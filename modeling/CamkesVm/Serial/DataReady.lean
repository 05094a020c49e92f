import CamkesVm.Serial.Input

/-!
# Is there really a character to read?

`DR` in the line status tells the guest that there is a character in the receive register.  What
that should mean is said here by a list, `Observed.inbox`: the characters that came in, from the
ring or in loopback, and were neither read nor thrown away since.  A character is thrown away when
the FIFO is full, when there is no FIFO and another one takes its place, and when a write to FIFO
control resets the receive FIFO, as a switch of the FIFOs on or off does too.

The device is `Truthful` if with the FIFOs in use `DR` is set exactly while the receive FIFO holds a
character, and if what the guest would read while `DR` is set is in the inbox.  A reset of the FIFO
leaves `DR` as it is, so the device is truthful throughout a run exactly if the FIFO is reset only
while `DR` is clear (`run_truthful_iff`).

## What is here

* `deposit`, `arrivals`, `settled` — the life of the list: what comes in, and what is left when the
  guest has read or reset.
* `Observed`, `Observed.Step` — the machine with the list beside it. The device does not look at the
  list.
* `Truthful`, `Observed.ResetsIdle` — the law, and the condition on a write to FIFO control and the
  state before it.
* `Mirrors`, `Honest` — the invariant, in terms of the abstract receiver, with a lemma for each of
  its operations.
* `Mirrors.next_iff`, `run_truthful_iff`, `not_truthful_after_reset` — one event, runs, and the run
  that goes wrong.
-/

set_option autoImplicit false

namespace CamkesVm
namespace Serial

open Transition TimerService EffectLog

/-! ## The characters that came in -/

/-- A character comes in: it is the last to read, unless the FIFO is full, and the only one if there
is no FIFO. -/
def deposit (enabled : Bool) (inbox : List (BitVec 8)) (c : BitVec 8) : List (BitVec 8) :=
  if enabled then if inbox.length < uartFifoLength then inbox ++ [c] else inbox else [c]

/-- The characters taken off the ring. -/
def dequeued (ring ring' : List (BitVec 8)) : List (BitVec 8) :=
  ring.take (ring.length - ring'.length)

/-- The characters `serial_receive1` is called with in an event. -/
def arrivals (y : Machine) : Event → List (BitVec 8)
  | .portOut addr val _ => loopedOut y.serial addr val
  | .timer completed t =>
    (if completed.transmit then looped y.serial else []) ++
      dequeued y.buffer.contents (y.next (.timer completed t)).buffer.contents
  | .character now => dequeued y.buffer.contents (y.next (.character now)).buffer.contents
  | _ => []

/-- What is left of the inbox when the guest has read a character or reset the FIFO. -/
def settled (y : Machine) (inbox : List (BitVec 8)) : Event → List (BitVec 8)
  | .portIn addr now => inbox.drop (Machine.taken y.serial now addr).length
  | .portOut addr val _ =>
    if addr % 8 = 2 ∧ y.serial.fcr ≠ val ∧ ResetsRecv y.serial val then [] else inbox
  | _ => inbox

/-- The machine and the characters the guest has yet to read. -/
structure Observed where
  /-- The machine. -/
  machine : Machine
  /-- The characters that came in and were neither read nor thrown away, oldest first. -/
  inbox : List (BitVec 8)

namespace Observed

/-- One event. -/
def next (o : Observed) (e : Event) : Observed where
  machine := o.machine.next e
  inbox := (arrivals o.machine e).foldl (deposit (fifoEnabled o.machine.serial))
    (settled o.machine o.inbox e)

/-- The step relation. -/
abbrev Step : Observed → Event → Observed → Prop := Does (fun o e ↦ o.machine.Enabled e) next

/-- The machine after `serial_pre_init`, with no character yet. -/
def init (now : BitVec 64) : Observed := ⟨Machine.init now, []⟩

end Observed

/-- **`DR` tells the truth.** -/
structure Truthful (o : Observed) : Prop where
  /-- With the FIFOs in use it is set exactly while the receive FIFO holds a character. -/
  ready : fifoEnabled o.machine.serial = true →
    (anyBit o.machine.serial.lsr uartLsrDr = true ↔ o.machine.serial.recvFifo.count ≠ 0)
  /-- While it is set, the receive register has a character that came in. -/
  received : anyBit o.machine.serial.lsr uartLsrDr = true →
    ∀ now, (readRbr o.machine.serial now).1 ∈ o.inbox

/-- The receive FIFO is reset, by a write that changes FIFO control, only while `DR` is clear. -/
def ResetsIdle (o : Observed) : Event → Prop
  | .portOut addr val _ => addr % 8 = 2 → o.machine.serial.fcr ≠ val →
    ResetsRecv o.machine.serial val → anyBit o.machine.serial.lsr uartLsrDr = false
  | _ => True

/-! ## The receiver and the inbox -/

/-- The receiver holds the inbox: in the FIFO, or in the receive register, if it is anywhere. -/
structure Mirrors (r : Receiver) (inbox : List (BitVec 8)) : Prop where
  /-- The FIFO is in order. -/
  fifoOk : FifoOk r.fifo
  /-- In use, it has the inbox. -/
  enabled : r.enabled = true → inbox = waiting r.fifo
  /-- Otherwise the inbox is what the register has, if anything. -/
  disabled : r.enabled = false → inbox = [] ∨ r.ready = true ∧ inbox = [r.rbr]

/-- What makes a device truthful, of its receiver. -/
def Honest (r : Receiver) (inbox : List (BitVec 8)) : Prop :=
  r.Agrees ∧ (r.ready = true → r.read.1 ∈ inbox)

theorem truthful_iff (o : Observed) :
    Truthful o ↔ Honest (receiver o.machine.serial) o.inbox := by
  have hread : ∀ now, (readRbr o.machine.serial now).1 = (receiver o.machine.serial).read.1 :=
    fun now ↦ (receiver_readRbr o.machine.serial now).1
  constructor
  · rintro ⟨hready, hreceived⟩
    exact ⟨hready, fun hdr ↦ hread 0 ▸ hreceived hdr 0⟩
  · rintro ⟨hready, hreceived⟩
    exact ⟨hready, fun hdr now ↦ (hread now).symm ▸ hreceived hdr⟩

section

variable {r : Receiver} {inbox : List (BitVec 8)}

/-- What a read gives. -/
theorem Receiver.read_fst (r : Receiver) :
    r.read.1 = if r.enabled then (fifoGet r.fifo).1 else r.rbr := by
  rw [read]
  split <;> rfl

/-- The trigger level has no part in it. -/
theorem fifoGet_itl (f : SerialFIFO) (itl : ℕ) :
    (fifoGet { f with itl := itl }).1 = (fifoGet f).1 := by
  rw [fifoGet, fifoGet]
  split <;> rfl

theorem Receiver.accept_enabled (r : Receiver) (c : BitVec 8) :
    (r.accept c).enabled = r.enabled := by
  rw [accept]
  split
  · split <;> rfl
  · rfl

/-- **A character comes in**, and afterwards the receiver is honest whatever it was before. -/
theorem Mirrors.accept (h : Mirrors r inbox) (c : BitVec 8) :
    Mirrors (r.accept c) (deposit r.enabled inbox c) ∧
      Honest (r.accept c) (deposit r.enabled inbox c) := by
  cases he : r.enabled with
  | true =>
    have hlength : inbox.length = r.fifo.count := by
      rw [h.enabled he, waiting, Cyclic.length_window]
    have hin : ∀ {f : SerialFIFO}, FifoOk f → f.count ≠ 0 → (fifoGet f).1 ∈ waiting f := by
      intro f hok hc
      rw [(waiting_fifoGet hok hc).1]
      exact List.mem_cons_self
    rw [deposit, if_pos rfl, hlength, Receiver.accept, if_pos he, h.enabled he]
    by_cases hc : r.fifo.count < uartFifoLength
    · obtain ⟨hstore, hok⟩ := waiting_fifoStore h.fifoOk c hc
      have hne : r.fifo.count + 1 ≠ 0 := Nat.succ_ne_zero _
      rw [if_pos hc, if_pos hc, ← hstore]
      refine ⟨⟨hok, fun _ ↦ rfl, fun hno ↦ absurd he (by simp [show r.enabled = false from hno])⟩,
        fun _ ↦ iff_of_true rfl hne, fun _ ↦ ?_⟩
      rw [Receiver.read_fst, if_pos (show r.enabled = true from he)]
      exact hin hok hne
    · have hne : r.fifo.count ≠ 0 := fun h0 ↦ hc (h0 ▸ by decide)
      rw [if_neg hc, if_neg hc]
      refine ⟨⟨h.fifoOk, fun _ ↦ rfl,
        fun hno ↦ absurd he (by simp [show r.enabled = false from hno])⟩,
        fun _ ↦ iff_of_true rfl hne, fun _ ↦ ?_⟩
      rw [Receiver.read_fst, if_pos (show r.enabled = true from he)]
      exact hin h.fifoOk hne
  | false =>
    have hne : ¬r.enabled = true := by simp [he]
    rw [deposit, if_neg Bool.false_ne_true, Receiver.accept, if_neg hne]
    refine ⟨⟨h.fifoOk, fun hyes ↦ absurd hyes hne, fun _ ↦ .inr ⟨rfl, rfl⟩⟩,
      fun hyes ↦ absurd hyes hne, fun _ ↦ ?_⟩
    rw [Receiver.read, if_neg hne]
    exact List.mem_singleton_self c

/-- **Several characters come in.** -/
theorem Mirrors.arrive (h : Mirrors r inbox) (cs : List (BitVec 8)) :
    Mirrors (cs.foldl Receiver.accept r) (cs.foldl (deposit r.enabled) inbox) ∧
      (Honest r inbox →
        Honest (cs.foldl Receiver.accept r) (cs.foldl (deposit r.enabled) inbox)) := by
  induction cs generalizing r inbox with
  | nil => exact ⟨h, id⟩
  | cons c cs ih =>
    obtain ⟨hmirrors, hhonest⟩ := h.accept c
    obtain ⟨hrest, hkeep⟩ := ih hmirrors
    rw [Receiver.accept_enabled] at hrest hkeep
    exact ⟨hrest, fun _ ↦ hkeep hhonest⟩

/-- **The guest reads** the oldest of the inbox. -/
theorem Mirrors.read (h : Mirrors r inbox) (hhonest : Honest r inbox) (hready : r.ready = true) :
    Mirrors r.read.2 (inbox.drop 1) ∧ Honest r.read.2 (inbox.drop 1) := by
  obtain ⟨hun, hagrees⟩ := Receiver.read_of_ready h.fifoOk hhonest.1 hready
  have hok := Receiver.fifoOk_read h.fifoOk
  cases he : r.enabled with
  | true =>
    have he' : r.read.2.enabled = true := by rw [Receiver.read, if_pos he]; exact he
    have hdrop : inbox.drop 1 = waiting r.read.2.fifo := by
      rw [Receiver.unread, if_pos he, Receiver.unread, if_pos he'] at hun
      rw [h.enabled he, hun]
      rfl
    refine ⟨⟨hok, fun _ ↦ hdrop, fun hno ↦ absurd (he'.symm.trans hno) (by decide)⟩, hagrees,
      fun hstill ↦ ?_⟩
    have hcount := (hagrees he').mp hstill
    rw [hdrop, Receiver.read_fst, if_pos he', (waiting_fifoGet hok hcount).1]
    exact List.mem_cons_self
  | false =>
    have hne : ¬r.enabled = true := by simp [he]
    have hone : inbox = [r.rbr] := by
      rcases h.disabled he with hnil | ⟨-, hone⟩
      · have hmem := hhonest.2 hready
        rw [hnil] at hmem
        exact absurd hmem List.not_mem_nil
      · exact hone
    rw [Receiver.read, if_neg hne, hone]
    exact ⟨⟨h.fifoOk, fun hyes ↦ absurd hyes hne, fun _ ↦ .inl rfl⟩, fun hyes ↦ absurd hyes hne,
      fun hno ↦ absurd hno Bool.false_ne_true⟩

/-- Reading the line status. -/
theorem Mirrors.clear (h : Mirrors r inbox) (hhonest : Honest r inbox) :
    Mirrors r.clear inbox ∧ Honest r.clear inbox := by
  refine ⟨⟨h.fifoOk, h.enabled, h.disabled⟩, hhonest.1, fun hready ↦ ?_⟩
  rw [Receiver.read_fst]
  exact Receiver.read_fst r ▸ hhonest.2 hready

/-- **The FIFO is set up**: if it is reset, the inbox is empty, and the receiver is honest exactly
if there was nothing to read. -/
theorem Mirrors.setFifo (h : Mirrors r inbox) (hhonest : Honest r inbox) {flush enabled : Bool}
    (hsame : flush = false → enabled = r.enabled) (itl : ℕ) :
    Mirrors (r.setFifo flush enabled itl) (if flush then [] else inbox) ∧
      ((flush = true → r.ready = false) ↔
        Honest (r.setFifo flush enabled itl) (if flush then [] else inbox)) := by
  have hok := Receiver.fifoOk_setFifo h.fifoOk flush enabled itl
  cases flush with
  | false =>
    rw [hsame rfl] at hok ⊢
    refine ⟨⟨hok, h.enabled, h.disabled⟩, iff_of_true (fun hno ↦ absurd hno (by decide)) ?_⟩
    refine ⟨hhonest.1, fun hready ↦ ?_⟩
    have hread : (r.setFifo false r.enabled itl).read.1 = r.read.1 := by
      rw [Receiver.read_fst, Receiver.read_fst]
      exact congrArg (fun c ↦ if r.enabled then c else r.rbr) (fifoGet_itl r.fifo itl)
    rw [hread]
    exact hhonest.2 hready
  | true =>
    refine ⟨⟨hok, fun _ ↦ (waiting_eq_nil rfl).symm, fun _ ↦ .inl rfl⟩, fun hidle ↦ ?_, ?_⟩
    · have hready : (r.setFifo true enabled itl).ready = false := hidle rfl
      exact ⟨fun _ ↦ iff_of_false (by simp [hready]) (not_not.mpr rfl),
        fun hno ↦ absurd (hready.symm.trans hno) (by decide)⟩
    · rintro ⟨-, hreceived⟩ -
      by_contra hready
      exact absurd (hreceived (Bool.not_eq_false _ ▸ hready)) List.not_mem_nil

end

/-! ## The handlers -/

theorem dequeued_eq {cs ring ring' : List (BitVec 8)} (h : ring = cs ++ ring') :
    dequeued ring ring' = cs := by
  rw [dequeued, h, List.length_append, Nat.add_sub_cancel]
  exact List.take_left

/-- **The loop over the ring**: what it takes off comes in. -/
theorem receiver_receiveLoop (s : SerialState) (now : BitVec 64) (ring : List (BitVec 8)) :
    ∃ cs, ring = cs ++ (receiveLoop s now ring).2 ∧
      receiver (receiveLoop s now ring).1 = cs.foldl Receiver.accept (receiver s) := by
  induction ring generalizing s with
  | nil => exact ⟨[], rfl, rfl⟩
  | cons c rest ih =>
    rw [receiveLoop]
    split
    · exact ⟨[], rfl, rfl⟩
    · obtain ⟨cs, hring, hreceiver⟩ := ih (serialReceive1 s now c)
      refine ⟨c :: cs, by rw [List.cons_append, ← hring], ?_⟩
      rw [hreceiver, receiver_serialReceive1]
      rfl

/-- **Handling the signal.** -/
theorem receiver_serialCharacterInterrupt (s : SerialState) (now : BitVec 64)
    (ring : List (BitVec 8)) :
    ∃ cs, ring = cs ++ (serialCharacterInterrupt s now ring).2 ∧
      receiver (serialCharacterInterrupt s now ring).1 = cs.foldl Receiver.accept (receiver s) := by
  obtain ⟨cs, hring, hreceiver⟩ := receiver_receiveLoop s now ring
  refine ⟨cs, hring, ?_⟩
  rw [← hreceiver, serialCharacterInterrupt]
  dsimp only
  split <;> rfl

/-- **Handling timer completions.** -/
theorem receiver_serialTimerInterrupt {s : SerialState} (hs : Sane s) (completed : Completed)
    (t : Times) (ring : List (BitVec 8)) :
    ∃ cs, ring = cs ++ (serialTimerInterrupt s completed t ring).2 ∧
      receiver (serialTimerInterrupt s completed t ring).1 =
        ((if completed.transmit then looped s else []) ++ cs).foldl Receiver.accept
          (receiver s) := by
  obtain ⟨s', hreceiver, -, heq⟩ := serialTimerInterrupt_stages hs completed t ring
  rw [heq]
  split
  · obtain ⟨cs, hring, hreceived⟩ := receiver_serialCharacterInterrupt s' t.received ring
    exact ⟨cs, hring, by rw [hreceived, hreceiver, List.foldl_append]⟩
  · exact ⟨[], rfl, by rw [hreceiver, List.append_nil]⟩

/-! ## Events -/

/-- **What comes in when timer completions are handled**, -/
theorem receiver_next_timer {y : Machine} (hs : Sane y.serial) (completed : Completed) (t : Times) :
    receiver (y.next (.timer completed t)).serial =
      (arrivals y (.timer completed t)).foldl Receiver.accept (receiver y.serial) := by
  obtain ⟨cs, hring, hreceiver⟩ :=
    receiver_serialTimerInterrupt hs completed t y.buffer.contents
  have hcontents : (y.next (.timer completed t)).buffer.contents =
      (serialTimerInterrupt y.serial completed t y.buffer.contents).2 :=
    GetcharBuf.serialTimerInterrupt_snd y.serial completed t y.buffer
  have hserial : (y.next (.timer completed t)).serial =
      (serialTimerInterrupt y.serial completed t y.buffer.contents).1 :=
    GetcharBuf.serialTimerInterrupt_fst y.serial completed t y.buffer
  rw [arrivals, hserial, hcontents, hreceiver, dequeued_eq hring]

/-- and when the signal is. -/
theorem receiver_next_character (y : Machine) (now : BitVec 64) :
    receiver (y.next (.character now)).serial =
      (arrivals y (.character now)).foldl Receiver.accept (receiver y.serial) := by
  obtain ⟨cs, hring, hreceiver⟩ :=
    receiver_serialCharacterInterrupt y.serial now y.buffer.contents
  have hcontents : (y.next (.character now)).buffer.contents =
      (serialCharacterInterrupt y.serial now y.buffer.contents).2 :=
    GetcharBuf.serialCharacterInterrupt_snd y.serial now y.buffer
  have hserial : (y.next (.character now)).serial =
      (serialCharacterInterrupt y.serial now y.buffer.contents).1 :=
    GetcharBuf.serialCharacterInterrupt_fst y.serial now y.buffer
  rw [arrivals, hserial, hcontents, hreceiver, dequeued_eq hring]

section

variable {o : Observed}

/-- An event in which characters come in, if any. -/
theorem Mirrors.next {e : Event} (h : Mirrors (receiver o.machine.serial) o.inbox)
    (hreceiver : receiver (o.machine.next e).serial =
      (arrivals o.machine e).foldl Receiver.accept (receiver o.machine.serial))
    (hsettled : settled o.machine o.inbox e = o.inbox) :
    Mirrors (receiver (o.next e).machine.serial) (o.next e).inbox ∧
      (Honest (receiver o.machine.serial) o.inbox →
        Honest (receiver (o.next e).machine.serial) (o.next e).inbox) := by
  have hinbox : (o.next e).inbox =
      (arrivals o.machine e).foldl (deposit (receiver o.machine.serial).enabled) o.inbox :=
    congrArg (List.foldl _ · _) hsettled
  change Mirrors (receiver (o.machine.next e).serial) _ ∧
    (_ → Honest (receiver (o.machine.next e).serial) _)
  rw [hreceiver, hinbox]
  exact h.arrive _

/-- **A port read** takes the oldest character of the inbox, if any. -/
theorem Mirrors.portIn (hs : Sane o.machine.serial)
    (h : Mirrors (receiver o.machine.serial) o.inbox)
    (hhonest : Honest (receiver o.machine.serial) o.inbox) (addr : ℕ) (now : BitVec 64) :
    Mirrors (receiver (o.next (.portIn addr now)).machine.serial)
        (o.next (.portIn addr now)).inbox ∧
      Honest (receiver (o.next (.portIn addr now)).machine.serial)
        (o.next (.portIn addr now)).inbox := by
  change Mirrors (receiver (serialIoportRead o.machine.serial now addr).2)
      (o.inbox.drop (Machine.taken o.machine.serial now addr).length) ∧
    Honest (receiver (serialIoportRead o.machine.serial now addr).2)
      (o.inbox.drop (Machine.taken o.machine.serial now addr).length)
  rcases receiver_serialIoportRead hs now addr with
    ⟨haddr, hdlab, -, hread⟩ | ⟨hnone, hsame | hclear⟩
  · cases hready : anyBit o.machine.serial.lsr uartLsrDr with
    | true =>
      rw [Machine.taken, if_pos ⟨haddr, hdlab, hready⟩, hread]
      exact h.read hhonest hready
    | false =>
      have hnone : Machine.taken o.machine.serial now addr = [] :=
        if_neg fun hno ↦ absurd (hready.symm.trans hno.2.2) (by decide)
      rw [hnone, hread, Receiver.read_of_not_ready hhonest.1 hready]
      exact ⟨h, hhonest⟩
  · rw [hnone, hsame]
    exact ⟨h, hhonest⟩
  · rw [hnone, hclear]
    exact h.clear hhonest

/-- **A port write** keeps the device honest exactly if it does not reset the FIFO while `DR` is
set. -/
theorem Mirrors.portOut (hs : Sane o.machine.serial)
    (h : Mirrors (receiver o.machine.serial) o.inbox)
    (hhonest : Honest (receiver o.machine.serial) o.inbox) (addr : ℕ) (val : BitVec 8) (t : Times) :
    Mirrors (receiver (o.next (.portOut addr val t)).machine.serial)
        (o.next (.portOut addr val t)).inbox ∧
      (ResetsIdle o (.portOut addr val t) ↔
        Honest (receiver (o.next (.portOut addr val t)).machine.serial)
          (o.next (.portOut addr val t)).inbox) := by
  obtain ⟨flush, enabled, itl, hset, hsame, hreset⟩ :=
    receiver_serialIoportWrite hs t addr val
  obtain ⟨hmirrors, hiff⟩ := h.setFifo hhonest hsame itl
  have hsettled : settled o.machine o.inbox (.portOut addr val t) =
      if flush then [] else o.inbox := if_congr hreset.symm rfl rfl
  have hidle : ResetsIdle o (.portOut addr val t) ↔
      (flush = true → (receiver o.machine.serial).ready = false) := by
    rw [hreset]
    exact ⟨fun hc hf ↦ hc hf.1 hf.2.1 hf.2.2, fun hc ha hne hr ↦ hc ⟨ha, hne, hr⟩⟩
  change Mirrors (receiver (serialIoportWrite o.machine.serial t addr val))
      ((loopedOut o.machine.serial addr val).foldl (deposit (receiver o.machine.serial).enabled)
        (settled o.machine o.inbox (.portOut addr val t))) ∧
    (_ ↔ Honest (receiver (serialIoportWrite o.machine.serial t addr val))
      ((loopedOut o.machine.serial addr val).foldl (deposit (receiver o.machine.serial).enabled)
        (settled o.machine o.inbox (.portOut addr val t))))
  rw [hset, hsettled, hidle]
  cases flush with
  | true =>
    -- nothing comes in when FIFO control is written
    have hnone : loopedOut o.machine.serial addr val = [] := by
      have haddr := (hreset.mp rfl).1
      exact if_neg fun hno ↦ by omega
    rw [hnone, List.foldl_nil, List.foldl_nil]
    exact ⟨hmirrors, hiff⟩
  | false =>
    obtain ⟨harrived, hkeep⟩ := hmirrors.arrive (loopedOut o.machine.serial addr val)
    have henabled : ((receiver o.machine.serial).setFifo false enabled itl).enabled =
        (receiver o.machine.serial).enabled := hsame rfl
    rw [henabled] at harrived hkeep
    exact ⟨harrived, iff_of_true (fun hno ↦ absurd hno (by decide))
      (hkeep (hiff.mp fun hno ↦ absurd hno (by decide)))⟩

/-- **What an event does.** -/
theorem Mirrors.next_iff (hs : Sane o.machine.serial)
    (h : Mirrors (receiver o.machine.serial) o.inbox)
    (hhonest : Honest (receiver o.machine.serial) o.inbox) (e : Event) :
    Mirrors (receiver (o.next e).machine.serial) (o.next e).inbox ∧
      (ResetsIdle o e ↔ Honest (receiver (o.next e).machine.serial) (o.next e).inbox) := by
  have harrive : ResetsIdle o e → receiver (o.machine.next e).serial =
      (arrivals o.machine e).foldl Receiver.accept (receiver o.machine.serial) →
      settled o.machine o.inbox e = o.inbox →
      Mirrors (receiver (o.next e).machine.serial) (o.next e).inbox ∧
        (ResetsIdle o e ↔ Honest (receiver (o.next e).machine.serial) (o.next e).inbox) := by
    intro hidle hreceiver hsettled
    obtain ⟨hmirrors, hkeep⟩ := h.next hreceiver hsettled
    exact ⟨hmirrors, iff_of_true hidle (hkeep hhonest)⟩
  cases e with
  | portIn addr now =>
    obtain ⟨hmirrors, hread⟩ := h.portIn hs hhonest addr now
    exact ⟨hmirrors, iff_of_true trivial hread⟩
  | portOut addr val t => exact h.portOut hs hhonest addr val t
  | timer completed t => exact harrive trivial (receiver_next_timer hs completed t) rfl
  | character now => exact harrive trivial (receiver_next_character o.machine now) rfl
  | expire timer => exact harrive trivial rfl rfl
  | enqueue c => exact harrive trivial rfl rfl
  | signal => exact harrive trivial rfl rfl

end

/-! ## Runs -/

theorem mirrors_init (now : BitVec 64) :
    Mirrors (receiver (Observed.init now).machine.serial) (Observed.init now).inbox ∧
      Honest (receiver (Observed.init now).machine.serial) (Observed.init now).inbox := by
  change Mirrors (receiver (serialPreInit now)) [] ∧ Honest (receiver (serialPreInit now)) []
  rw [receiver_serialPreInit]
  exact ⟨⟨fifoOk_fifoClear _, fun hno ↦ absurd hno Bool.false_ne_true, fun _ ↦ .inl rfl⟩,
    fun hno ↦ absurd hno Bool.false_ne_true, fun hno ↦ absurd hno Bool.false_ne_true⟩

/-- **When `DR` tells the truth**: in the runs in which the receive FIFO is reset only while `DR` is
clear, and in those only, the device is truthful in every state. -/
theorem run_truthful_iff (now : BitVec 64) (es : List Event) (o : Observed) :
    Run (Guarded ResetsIdle Observed.Step) (Observed.init now) es o ↔
      Run (Guarded (fun o _ ↦ Truthful o) Observed.Step) (Observed.init now) es o ∧
        Truthful o := by
  refine Run.guarded_iff_of_invariant
    (J := fun o ↦ Sane o.machine.serial ∧ Mirrors (receiver o.machine.serial) o.inbox)
    ((truthful_iff _).mpr (mirrors_init now).2) ⟨sane_serialPreInit now, (mirrors_init now).1⟩ ?_ ?_
  · rintro o e - ⟨hs, hmirrors⟩ htruthful ⟨-, rfl⟩
    exact ⟨hs.next e, (hmirrors.next_iff hs ((truthful_iff o).mp htruthful) e).1⟩
  · rintro o e - ⟨hs, hmirrors⟩ htruthful ⟨-, rfl⟩
    rw [truthful_iff]
    exact (hmirrors.next_iff hs ((truthful_iff o).mp htruthful) e).2

/-- **A character that never came.**  With the FIFOs in use a character comes in and the receive
FIFO is reset; `DR` is still set, and the guest reads a zero. -/
theorem not_truthful_after_reset :
    ¬∀ now es o, Run Observed.Step (Observed.init now) es o → Truthful o := by
  intro h
  have hrun : Run Observed.Step (Observed.init 0) [.portOut 2 0x01 noTimes, .enqueue 0x41, .signal,
      .character 0, .portOut 2 0x03 noTimes] _ := run_foldl (by decide)
  have hready := (h 0 _ _ hrun).ready (by decide)
  exact absurd hready (by decide)

end Serial
end CamkesVm
