import CamkesVm.Serial.Emits

/-!
# The receiver inside the UART

What `Transmitter` is to sending, `Receiver` is to receiving: the part of the device that has the
characters on their way to the guest.  A character is accepted into the FIFO, or into the receive
register where that is not in use, the guest reads one, and the FIFO is set up; that is all that
happens to it as long as loopback is off.

`unread` is the list of the characters the guest has yet to read.  The flow control of the source,
`serial_can_receive`, is what makes accepting a character safe: if it allows one, the character is
appended to `unread` and none is overrun (`Receiver.accept_of_canReceive`).

## What is here

* `Receiver` with `accept`, `read`, `clear` and `setFifo` — the abstract receiver. It knows nothing
  of interrupts, timers or the guest's registers.
* `accept_of_room`, `read_of_ready`, `setFifo_kept` — what the operations do to `unread`.
* `receiver` — the receiver inside a device, and lemmas that say for each function of the device
  which operation it is.
* `room_of_canReceive` — the one fact about the device itself: its flow control asks for no more
  than there is room for.
* `looped`, `ResetsRecv` — the two exceptions, loopback and a reset.
-/

set_option autoImplicit false

namespace CamkesVm
namespace Serial

/-! ## The abstract receiver -/

/-- The part of the device that has to do with receiving. -/
@[ext]
structure Receiver where
  /-- The receive register. -/
  rbr : BitVec 8
  /-- There is a character to read. -/
  ready : Bool
  /-- A character was overrun. -/
  overrun : Bool
  /-- The FIFO is in use. -/
  enabled : Bool
  /-- The FIFO. -/
  fifo : SerialFIFO

namespace Receiver

variable (r : Receiver)

/-- The characters the guest has yet to read, oldest first. -/
def unread : List (BitVec 8) :=
  if r.enabled then waiting r.fifo else if r.ready then [r.rbr] else []

/-- A character comes in. -/
def accept (c : BitVec 8) : Receiver :=
  if r.enabled then
    if r.fifo.count < uartFifoLength then
      { r with ready := true, fifo := { fifoStore r.fifo c with count := r.fifo.count + 1 } }
    else { r with ready := true, overrun := true }
  else { r with rbr := c, ready := true, overrun := r.overrun || r.ready }

/-- The guest reads the receive register. -/
def read : BitVec 8 × Receiver :=
  if r.enabled then
    ((fifoGet r.fifo).1,
      { r with
        fifo := (fifoGet r.fifo).2
        ready := r.ready && decide ((fifoGet r.fifo).2.count ≠ 0) })
  else (r.rbr, { r with ready := false })

/-- The guest reads the line status. -/
def clear : Receiver := { r with overrun := false }

/-- The FIFO is flushed or not, given a trigger level and then in use or not. -/
def setFifo (flush enabled : Bool) (itl : ℕ) : Receiver :=
  { r with
    fifo := { (if flush then fifoClear r.fifo else r.fifo) with itl := itl }, enabled := enabled }

/-- There is room for a character. -/
def Room : Prop := if r.enabled then r.fifo.count < uartFifoLength else r.ready = false

/-- `DR` says whether there is a character in the FIFO. -/
def Agrees : Prop := r.enabled = true → (r.ready = true ↔ r.fifo.count ≠ 0)

variable {r}

/-- **Accepting a character for which there is room** appends it, and overruns none. -/
theorem accept_of_room (hok : FifoOk r.fifo) (h : r.Room) (c : BitVec 8) :
    (r.accept c).unread = r.unread ++ [c] ∧ (r.accept c).overrun = r.overrun ∧
      FifoOk (r.accept c).fifo ∧ (r.accept c).Agrees := by
  rw [Room] at h
  cases he : r.enabled with
  | true =>
    rw [if_pos he] at h
    obtain ⟨hstore, hfifo⟩ := waiting_fifoStore hok c h
    have heq : r.accept c =
        { r with
          ready := true, fifo := { fifoStore r.fifo c with count := r.fifo.count + 1 } } := by
      rw [accept, if_pos he, if_pos h]
    rw [heq]
    refine ⟨?_, rfl, hfifo, fun _ ↦ iff_of_true rfl (Nat.succ_ne_zero _)⟩
    rw [unread, unread, if_pos he, if_pos he]
    exact hstore
  | false =>
    have hne : ¬r.enabled = true := by simp [he]
    rw [if_neg hne] at h
    have heq : r.accept c = { r with rbr := c, ready := true, overrun := r.overrun } := by
      rw [accept, if_neg hne, h, Bool.or_false]
    rw [heq]
    refine ⟨?_, rfl, hok, fun hyes ↦ absurd hyes hne⟩
    rw [unread, unread, if_neg hne, if_neg hne, h]
    rfl

/-- So it is with a character for which there is nothing to read before. -/
theorem accept_of_not_ready (hok : FifoOk r.fifo) (hagrees : r.Agrees) (h : r.ready = false)
    (c : BitVec 8) : (r.accept c).unread = [c] ∧ FifoOk (r.accept c).fifo ∧
      (r.accept c).Agrees := by
  have hcount : r.enabled = true → r.fifo.count = 0 := fun he ↦ by
    by_contra hc
    exact absurd (h.symm.trans ((hagrees he).mpr hc)) (by decide)
  have hroom : r.Room := by
    rw [Room]
    split
    · rename_i he
      rw [hcount he]
      decide
    · exact h
  have hempty : r.unread = [] := by
    rw [unread]
    split
    · rename_i he
      exact waiting_eq_nil (hcount he)
    · exact if_neg (by simp [h])
  obtain ⟨hun, -, hfifoOk, hagrees'⟩ := accept_of_room hok hroom c
  rw [hempty, List.nil_append] at hun
  exact ⟨hun, hfifoOk, hagrees'⟩

theorem fifoOk_read (hok : FifoOk r.fifo) : FifoOk r.read.2.fifo := by
  rw [read]
  split
  · by_cases hc : r.fifo.count = 0
    · have hget : (fifoGet r.fifo).2 = r.fifo := by rw [fifoGet, if_pos hc]
      change FifoOk (fifoGet r.fifo).2
      rw [hget]
      exact hok
    · exact (waiting_fifoGet hok hc).2
  · exact hok

theorem fifoOk_setFifo (hok : FifoOk r.fifo) (flush enabled : Bool) (itl : ℕ) :
    FifoOk (r.setFifo flush enabled itl).fifo := by
  cases flush with
  | false => exact ⟨hok.count, hok.tail, hok.head⟩
  | true =>
    have hclear := fifoOk_fifoClear r.fifo
    exact ⟨hclear.count, hclear.tail, hclear.head⟩

/-- **Reading while there is a character** takes the oldest. -/
theorem read_of_ready (hok : FifoOk r.fifo) (hagrees : r.Agrees) (h : r.ready = true) :
    r.unread = r.read.1 :: r.read.2.unread ∧ r.read.2.Agrees := by
  cases he : r.enabled with
  | true =>
    have hcount := (hagrees he).mp h
    have hget := (waiting_fifoGet hok hcount).1
    rw [read, if_pos he]
    refine ⟨?_, fun _ ↦ ?_⟩
    · rw [unread, unread, if_pos he, if_pos he]
      exact hget
    · simp [h]
  | false =>
    have hne : ¬r.enabled = true := by simp [he]
    rw [read, if_neg hne]
    refine ⟨?_, fun hyes ↦ absurd hyes hne⟩
    rw [unread, unread, if_neg hne, if_neg hne, if_pos h]
    rfl

/-- Reading while there is none does nothing. -/
theorem read_of_not_ready (hagrees : r.Agrees) (h : r.ready = false) : r.read.2 = r := by
  cases he : r.enabled with
  | true =>
    have hcount : r.fifo.count = 0 := by
      by_contra hno
      rw [(hagrees he).mpr hno] at h
      exact absurd h (by decide)
    have hget : (fifoGet r.fifo).2 = r.fifo := by rw [fifoGet, if_pos hcount]
    rw [read, if_pos he]
    simp only [hget, h, Bool.false_and]
    exact Receiver.ext rfl h.symm rfl rfl rfl
  | false =>
    have hne : ¬r.enabled = true := by simp [he]
    rw [read, if_neg hne]
    exact Receiver.ext rfl h.symm rfl rfl rfl

/-- With no character to read there is none. -/
theorem unread_of_not_ready (hagrees : r.Agrees) (h : r.ready = false) : r.unread = [] := by
  cases he : r.enabled with
  | true =>
    rw [unread, if_pos he]
    refine waiting_eq_nil ?_
    by_contra hno
    rw [(hagrees he).mpr hno] at h
    exact absurd h (by decide)
  | false => rw [unread, if_neg (by simp [he]), if_neg (by simp [h])]

/-- **Setting up the FIFO** without flushing it loses nothing, nor does flushing it while there is
no character. -/
theorem setFifo_kept (hagrees : r.Agrees) {flush enabled : Bool}
    (hkeep : flush = false → enabled = r.enabled) (hidle : flush = true → r.ready = false)
    (itl : ℕ) : (r.setFifo flush enabled itl).unread = r.unread ∧
      (r.setFifo flush enabled itl).Agrees := by
  cases flush with
  | false =>
    rw [hkeep rfl]
    exact ⟨rfl, hagrees⟩
  | true =>
    have hready := hidle rfl
    have hagrees' : (r.setFifo true enabled itl).Agrees := fun _ ↦
      iff_of_false (by simp [setFifo, hready]) (not_not.mpr rfl)
    refine ⟨?_, hagrees'⟩
    rw [unread_of_not_ready hagrees hready, unread_of_not_ready hagrees' hready]

end Receiver

/-- The receiver inside the device. -/
def receiver (s : SerialState) : Receiver where
  rbr := s.rbr
  ready := anyBit s.lsr uartLsrDr
  overrun := anyBit s.lsr uartLsrOe
  enabled := fifoEnabled s
  fifo := s.recvFifo

/-- **The flow control is right**: it allows a character only if there is room for it. -/
theorem room_of_canReceive {s : SerialState} (h : serialCanReceive s ≠ 0) : (receiver s).Room := by
  rw [serialCanReceive] at h
  rw [Receiver.Room]
  by_cases he : fifoEnabled s = true
  · rw [if_pos he] at h
    rw [if_pos (show (receiver s).enabled = true from he)]
    by_contra hfull
    exact h (if_neg hfull)
  · rw [if_neg he] at h
    rw [if_neg (show ¬(receiver s).enabled = true from he)]
    by_contra hready
    rw [Bool.not_eq_false] at hready
    exact h (if_pos hready)

/-! ## What leaves the receiver alone -/

section

variable (s : SerialState)

/-- A device that is the same but for its line status has the same receiver, if the line status
says the same about it. -/
theorem receiver_lsr {x : BitVec 8} (hdr : anyBit x uartLsrDr = anyBit s.lsr uartLsrDr)
    (hoe : anyBit x uartLsrOe = anyBit s.lsr uartLsrOe) :
    receiver { s with lsr := x } = receiver s :=
  Receiver.ext rfl hdr hoe rfl rfl

/-- Setting bits that are about the transmitter. -/
theorem receiver_lsr_or {m : BitVec 8} (hdr : m &&& uartLsrDr = 0) (hoe : m &&& uartLsrOe = 0) :
    receiver { s with lsr := s.lsr ||| m } = receiver s :=
  receiver_lsr s (anyBit_or_of_disjoint s.lsr hdr) (anyBit_or_of_disjoint s.lsr hoe)

/-- Clearing such bits. -/
theorem receiver_lsr_and {m : BitVec 8} (hdr : m &&& uartLsrDr = uartLsrDr)
    (hoe : m &&& uartLsrOe = uartLsrOe) : receiver { s with lsr := s.lsr &&& m } = receiver s :=
  receiver_lsr s (anyBit_and_of_subset s.lsr hdr) (anyBit_and_of_subset s.lsr hoe)

theorem receiver_serialUpdateParameters :
    receiver (serialUpdateParameters s) = receiver s := by
  rw [serialUpdateParameters]
  split <;> rfl

theorem receiver_fifoTimeoutInt : receiver (fifoTimeoutInt s) = receiver s := by
  rw [fifoTimeoutInt]
  split <;> rfl

theorem receiver_xmitLoad : receiver (xmitLoad s) = receiver s := by
  have hthre : ∀ s : SerialState, receiver { s with lsr := s.lsr ||| uartLsrThre } = receiver s :=
    fun s ↦ receiver_lsr_or s (by decide) (by decide)
  rw [xmitLoad]
  split
  · split
    · dsimp only
      split
      · exact hthre { s with tsr := _, xmitFifo := _ }
      · rfl
    · exact hthre { s with tsr := s.thr }
  · rfl

theorem receiver_xmitDone (t : Times) : receiver (xmitDone s t) = receiver s := by
  simp only [xmitDone]
  split
  · exact receiver_lsr_or { s with lastXmitTs := t.lastXmitTs, thrIpending := true } (by decide)
      (by decide)
  · rfl

theorem receiver_storeThr (val : BitVec 8) : receiver (storeThr s val) = receiver s := by
  simp only [storeThr]
  split
  · have hlsr := receiver_lsr_and
      { fifoPutXmit { s with thr := val } val with thrIpending := false }
      (m := ~~~uartLsrTemt &&& ~~~uartLsrThre) (by decide) (by decide)
    rw [← BitVec.and_assoc] at hlsr
    exact hlsr
  · exact receiver_lsr_and { s with thr := val, thrIpending := false } (by decide) (by decide)

/-- A write to interrupt enable. -/
theorem receiver_writeIer (hs : Sane s) (val : BitVec 8) :
    receiver (writeIer s val) = receiver s := by
  obtain ⟨p, hpolled⟩ := hs.ierPolled val
  rw [writeIer_eq, hpolled]
  split <;> rfl

/-- Reading modem status. -/
theorem receiver_readMsr (hs : Sane s) : receiver (readMsr s).2 = receiver s := by
  cases hloop : anyBit s.mcr uartMcrLoop with
  | true =>
    rw [readMsr, if_pos hloop]
  | false =>
    rw [readMsr_eq hloop, hs.msrPolled]
    split <;> rfl

/-! ## What the receiver does -/

/-- **A character comes in.** -/
theorem receiver_serialReceive1 (now : BitVec 64) (c : BitVec 8) :
    receiver (serialReceive1 s now c) = (receiver s).accept c := by
  have hdr : ∀ x, anyBit (x ||| uartLsrDr) uartLsrDr = true :=
    fun x ↦ anyBit_or_of_subset x (by decide) (by decide)
  have hoe : ∀ x, anyBit (x ||| uartLsrOe) uartLsrOe = true :=
    fun x ↦ anyBit_or_of_subset x (by decide) (by decide)
  have hkeep : ∀ x, anyBit (x ||| uartLsrDr) uartLsrOe = anyBit x uartLsrOe :=
    fun x ↦ anyBit_or_of_disjoint x (by decide)
  rw [serialReceive1, Receiver.accept]
  by_cases he : fifoEnabled s = true
  · rw [if_pos he, if_pos (show (receiver s).enabled = true from he)]
    by_cases hc : s.recvFifo.count < uartFifoLength
    · rw [if_pos (show (receiver s).fifo.count < uartFifoLength from hc), fifoPutRecv, if_pos hc]
      exact Receiver.ext rfl (hdr _) (hkeep _) rfl rfl
    · rw [if_neg (show ¬(receiver s).fifo.count < uartFifoLength from hc), fifoPutRecv, if_neg hc]
      exact Receiver.ext rfl (hdr _) ((hkeep _).trans (hoe _)) rfl rfl
  · rw [if_neg he, if_neg (show ¬(receiver s).enabled = true from he)]
    cases hready : anyBit s.lsr uartLsrDr with
    | true =>
      simp only [if_true]
      refine Receiver.ext rfl (hdr _) ?_ rfl rfl
      exact ((hkeep _).trans (hoe _)).trans (Bool.or_eq_true_iff.mpr (.inr hready)).symm
    | false =>
      simp only [Bool.false_eq_true, if_false]
      refine Receiver.ext rfl (hdr _) ?_ rfl rfl
      refine (hkeep _).trans ?_
      change _ = (anyBit s.lsr uartLsrOe || anyBit s.lsr uartLsrDr)
      rw [hready, Bool.or_false]

/-- The characters that running the transmitter gives the receiver: in loopback, the one sent. -/
def looped : List (BitVec 8) := if anyBit s.mcr uartMcrLoop then [(xmitLoad s).tsr] else []

/-- They depend on the transmitter alone. -/
theorem looped_of_view {s s' : SerialState} (h : view s' = view s) (hmcr : s'.mcr = s.mcr) :
    looped s' = looped s := by
  have htsr : (xmitLoad s').tsr = (xmitLoad s).tsr := by
    have hload : view (xmitLoad s') = view (xmitLoad s) := by
      rw [view_xmitLoad, view_xmitLoad, h]
    exact congrArg Transmitter.tsr hload
  rw [looped, looped, hmcr, htsr]

theorem looped_of_loopOff (h : LoopOff s) : looped s = [] :=
  if_neg (by simp [show _ = false from h])

/-- **Running the transmitter** leaves the receiver alone, unless in loopback. -/
theorem receiver_serialXmit (t : Times) :
    receiver (serialXmit s t) = (looped s).foldl Receiver.accept (receiver s) := by
  have hmcr := xmitLoad_mcr s
  rw [← receiver_xmitLoad s, looped, ← hmcr, serialXmit]
  generalize xmitLoad s = s
  split
  · exact (receiver_xmitDone _ t).trans (receiver_serialReceive1 s t.received s.tsr)
  · split
    · split
      · rfl
      · split
        · exact receiver_xmitDone { s with tsrRetry := -1 } t
        · exact receiver_xmitDone s t
    · exact receiver_xmitDone
        { s.emit (.putchar s.tsr) with charsSent := s.charsSent + 1, tsrRetry := 0 } t

/-- **The guest reads the receive register.** -/
theorem receiver_readRbr (now : BitVec 64) :
    (readRbr s now).1 = (receiver s).read.1 ∧ receiver (readRbr s now).2 = (receiver s).read.2 := by
  have hdr : ∀ x, anyBit (x &&& ~~~(uartLsrDr ||| uartLsrBi)) uartLsrDr = false :=
    fun x ↦ anyBit_and_of_disjoint x (by decide)
  have hoe : ∀ x, anyBit (x &&& ~~~(uartLsrDr ||| uartLsrBi)) uartLsrOe = anyBit x uartLsrOe :=
    fun x ↦ anyBit_and_of_subset x (by decide)
  rw [readRbr, Receiver.read]
  by_cases he : fifoEnabled s = true
  · rw [if_pos he, if_pos (show (receiver s).enabled = true from he)]
    refine ⟨rfl, ?_⟩
    dsimp only
    by_cases hc : (fifoGet s.recvFifo).2.count = 0
    · rw [if_pos hc]
      refine Receiver.ext rfl ?_ (hoe _) rfl rfl
      refine (hdr _).trans (Bool.and_eq_false_imp.mpr fun _ ↦ ?_).symm
      exact decide_eq_false (not_not.mpr hc)
    · rw [if_neg hc]
      refine Receiver.ext rfl ?_ rfl rfl rfl
      exact ((Bool.and_eq_left_iff_imp.mpr fun _ ↦ decide_eq_true hc)).symm
  · rw [if_neg he, if_neg (show ¬(receiver s).enabled = true from he)]
    exact ⟨rfl, Receiver.ext rfl (hdr _) (hoe _) rfl rfl⟩

/-- A write to FIFO control resets the receive FIFO, or changes whether the FIFOs are in use. -/
def ResetsRecv (val : BitVec 8) : Prop :=
  anyBit val uartFcrRfr = true ∨ anyBit (val ^^^ s.fcr) uartFcrFe = true

instance (val : BitVec 8) : Decidable (ResetsRecv s val) := inferInstanceAs (Decidable (_ ∨ _))

/-- The value written with its flushes says so. -/
theorem fcrValue_rfr (val : BitVec 8) :
    anyBit (fcrValue s val) uartFcrRfr = true ↔ ResetsRecv s val := by
  rw [fcrValue, ResetsRecv]
  split
  · rename_i hxor
    exact iff_of_true (anyBit_or_of_subset val (by decide) (by decide)) (.inr hxor)
  · rename_i hxor
    exact (or_iff_left hxor).symm

/-- Without that the FIFOs are in use as before. -/
theorem fcrValue_of_not_resetsRecv {val : BitVec 8} (h : ¬ResetsRecv s val) :
    anyBit (fcrValue s val &&& 0xc9) uartFcrFe = fifoEnabled s := by
  have hxor : ¬anyBit (val ^^^ s.fcr) uartFcrFe = true := fun hno ↦ h (.inr hno)
  rw [fcrValue, if_neg hxor, fifoEnabled, anyBit_fe, anyBit_fe, BitVec.getLsbD_and,
    show (0xc9 : BitVec 8).getLsbD 0 = true by decide, Bool.and_true]
  rw [anyBit_fe, BitVec.getLsbD_xor] at hxor
  simpa using hxor

/-- What setting up the FIFOs does to the receiver. -/
theorem receiver_fcrSet (val : BitVec 8) : ∃ itl, receiver (fcrSet s val) =
    (receiver s).setFifo (anyBit val uartFcrRfr) (anyBit (val &&& 0xc9) uartFcrFe) itl := by
  -- the receive FIFO is flushed, then the transmit FIFO, then the trigger level is set
  have hrfr : receiver (if anyBit val uartFcrRfr then
      { s.emit (.stop .fifoTimeout) with
        timeoutIpending := false, recvFifo := fifoClear s.recvFifo }
      else s) = { receiver s with
        fifo := if anyBit val uartFcrRfr then fifoClear s.recvFifo else s.recvFifo } := by
    split <;> rfl
  have hxfr : ∀ s₁ : SerialState, receiver (if anyBit val uartFcrXfr then
      { s₁ with xmitFifo := fifoClear s₁.xmitFifo } else s₁) = receiver s₁ := by
    intro s₁
    split <;> rfl
  have hfe : ∀ s₂ : SerialState, receiver { (if anyBit val uartFcrFe then
      { s₂ with
        iir := s₂.iir ||| uartIirFe
        recvFifo := { s₂.recvFifo with itl := triggerLevel val } }
      else { s₂ with iir := s₂.iir &&& ~~~uartIirFe }) with fcr := val &&& 0xc9 } =
      (receiver s₂).setFifo false (anyBit (val &&& 0xc9) uartFcrFe)
        (if anyBit val uartFcrFe then triggerLevel val else (receiver s₂).fifo.itl) := by
    intro s₂
    split <;> rfl
  refine ⟨if anyBit val uartFcrFe then triggerLevel val else s.recvFifo.itl, (hfe _).trans ?_⟩
  rw [hxfr, hrfr]
  cases anyBit val uartFcrRfr <;> rfl

/-- **FIFO control sets up the FIFO**, and flushes it only if it resets it. -/
theorem receiver_writeFcr (val : BitVec 8) :
    ∃ flush enabled itl, receiver (writeFcr s val) = (receiver s).setFifo flush enabled itl ∧
      (flush = false → enabled = (receiver s).enabled) ∧
      (flush = true ↔ s.fcr ≠ val ∧ ResetsRecv s val) := by
  by_cases hval : s.fcr = val
  · rw [writeFcr, if_pos hval]
    exact ⟨false, (receiver s).enabled, s.recvFifo.itl, rfl, fun _ ↦ rfl,
      iff_of_false (by decide) fun hno ↦ hno.1 hval⟩
  · obtain ⟨itl, hset⟩ := receiver_fcrSet s (fcrValue s val)
    have hwrite : receiver (writeFcr s val) = receiver (fcrSet s (fcrValue s val)) := by
      rw [writeFcr_eq hval]
      rfl
    refine ⟨_, _, itl, hwrite.trans hset, fun hno ↦ ?_,
      (fcrValue_rfr s val).trans (and_iff_right hval).symm⟩
    exact fcrValue_of_not_resetsRecv s fun hr ↦ by simp [(fcrValue_rfr s val).mpr hr] at hno

end

end Serial
end CamkesVm
