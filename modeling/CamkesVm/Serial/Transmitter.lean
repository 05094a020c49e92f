import CamkesVm.Lib.Cyclic
import CamkesVm.Serial.Port

/-!
# The transmitter inside the UART

Most of what the UART does has nothing to do with sending.  `Transmitter` is the part of its state
that has: the two transmit registers, the transmit FIFO, whether the holding register counts as
empty, and what was sent.  It has four operations of its own: a byte is stored, one is loaded into
the shift register, the shift register is sent or put off, and the FIFO is flushed.

`view` is the transmitter inside a device.  The lemmas here say, for each function of the device,
which of the operations it is on the view; most are none (the `view_..` simp lemmas).

## What is here

* `Transmitter` with `store`, `load`, `send` and `setFifo` — the abstract transmitter.
* `view` — the transmitter inside a device. Functions that have nothing to do with sending leave it
  alone, and their lemmas are for the simplifier.
* The lemmas that say which operations the other functions are, `serial_xmit` in particular: it
  loads, then sends or puts off.

The results on sending are about the abstract transmitter, and are carried to the device by these
lemmas.
-/

set_option autoImplicit false

namespace CamkesVm
namespace Serial

/-! ## The abstract transmitter -/

/-- The part of the device that has to do with sending. -/
@[ext]
structure Transmitter where
  /-- The holding register. -/
  thr : BitVec 8
  /-- The shift register. -/
  tsr : BitVec 8
  /-- The byte in the shift register waits to be sent. -/
  retrying : Bool
  /-- The holding register, or the FIFO in its place, counts as empty. -/
  empty : Bool
  /-- The FIFO is in use. -/
  enabled : Bool
  /-- The FIFO. -/
  fifo : SerialFIFO
  /-- What was sent, oldest first. -/
  sent : List (BitVec 8)

namespace Transmitter

variable (v : Transmitter)

/-- There is a byte to send: one waiting in the shift register, or one to load. -/
def HasInput : Prop :=
  v.retrying = true ∨ if v.enabled then v.fifo.count ≠ 0 else v.empty = false

/-- The next byte goes to the shift register, unless one is waiting there. -/
def load : Transmitter :=
  if v.retrying then v
  else if v.enabled then
    { v with
      tsr := (fifoGet v.fifo).1
      fifo := (fifoGet v.fifo).2
      empty := v.empty || decide ((fifoGet v.fifo).2.count = 0) }
  else { v with tsr := v.thr, empty := true }

/-- The byte in the shift register is sent. -/
def send : Transmitter := { v with sent := v.sent ++ [v.tsr], retrying := false }

/-- The byte in the shift register is put off, or given up. -/
def putOff (retrying : Bool) : Transmitter := { v with retrying := retrying }

/-- A byte is written. -/
def store (c : BitVec 8) : Transmitter :=
  { v with
    thr := c
    empty := false
    fifo := if v.enabled then
        let f := fifoStore v.fifo c
        if f.count < uartFifoLength then { f with count := f.count + 1 } else f
      else v.fifo }

/-- The FIFO is flushed or not, and then in use or not. -/
def setFifo (flush enabled : Bool) : Transmitter :=
  { v with fifo := if flush then fifoClear v.fifo else v.fifo, enabled := enabled }

end Transmitter

/-- The transmitter inside the device. -/
def view (s : SerialState) : Transmitter where
  thr := s.thr
  tsr := s.tsr
  retrying := decide (0 < s.tsrRetry)
  empty := thrEmpty s
  enabled := fifoEnabled s
  fifo := s.xmitFifo
  sent := sent s

/-! ## What leaves the transmitter alone -/

section

variable (s : SerialState)

/-- Only a byte handed to the console is an output. -/
theorem view_emit (e : Effect) (h : ∀ c, e ≠ .putchar c) : view (s.emit e) = view s := by
  have hsent : sent (s.emit e) = sent s := by
    cases e with
    | putchar c => exact absurd rfl (h c)
    | _ => simp [sent, SerialState.emit, List.filterMap_append]
  simp only [view, hsent]
  rfl

/-- A device that is the same but for its line status has the same transmitter, if the line status
says the same about it. -/
theorem view_lsr {x : BitVec 8} (h : anyBit x uartLsrThre = thrEmpty s) :
    view { s with lsr := x } = view s := by
  simp only [view, thrEmpty, h]
  rfl

@[simp] theorem view_serialUpdateIrq : view (serialUpdateIrq s) = view s :=
  view_emit _ _ (by simp)

@[simp] theorem view_serialUpdateParameters : view (serialUpdateParameters s) = view s := by
  rw [serialUpdateParameters]
  split <;> rfl

@[simp] theorem view_serialUpdateMsl : view (serialUpdateMsl s) = view s := by
  rw [serialUpdateMsl]
  split
  · rw [view_serialUpdateIrq]
    rfl
  · rfl

@[simp] theorem view_fifoPutRecv (c : BitVec 8) : view (fifoPutRecv s c) = view s := by
  rw [fifoPutRecv]
  split
  · rfl
  · exact view_lsr s (anyBit_or_of_disjoint s.lsr (by decide))

@[simp] theorem view_serialReceive1 (now : BitVec 64) (c : BitVec 8) :
    view (serialReceive1 s now c) = view s := by
  have hdr : ∀ s : SerialState, view { s with lsr := s.lsr ||| uartLsrDr } = view s :=
    fun s ↦ view_lsr s (anyBit_or_of_disjoint s.lsr (by decide))
  rw [serialReceive1]
  split
  · rw [view_serialUpdateIrq, view_emit _ _ (by simp), hdr, view_fifoPutRecv]
  · rw [view_serialUpdateIrq]
    refine (hdr _).trans ?_
    split
    · exact view_lsr s (anyBit_or_of_disjoint s.lsr (by decide))
    · rfl

@[simp] theorem view_receiveLoop (now : BitVec 64) (ring : List (BitVec 8)) :
    view (receiveLoop s now ring).1 = view s := by
  induction ring generalizing s with
  | nil => rfl
  | cons c rest ih =>
    rw [receiveLoop]
    split
    · rfl
    · rw [ih, view_serialReceive1]

@[simp] theorem view_serialCharacterInterrupt (now : BitVec 64) (ring : List (BitVec 8)) :
    view (serialCharacterInterrupt s now ring).1 = view s := by
  simp only [serialCharacterInterrupt]
  split
  · rw [view_emit _ _ (by simp), view_receiveLoop]
  · rw [view_receiveLoop]

@[simp] theorem view_fifoTimeoutInt : view (fifoTimeoutInt s) = view s := by
  rw [fifoTimeoutInt]
  split
  · rfl
  · rw [view_serialUpdateIrq]
    rfl

@[simp] theorem view_writeIer (val : BitVec 8) : view (writeIer s val) = view s := by
  have hpoll : view (if 0 ≤ s.pollMsl then
      if anyBit (val &&& 0x0f) uartIerMsi then
        serialUpdateMsl { s with ier := val &&& 0x0f, pollMsl := 1 }
      else { s with ier := val &&& 0x0f, pollMsl := 0 }
    else { s with ier := val &&& 0x0f }) = view s := by
    split
    · split
      · rw [view_serialUpdateMsl]
        rfl
      · rfl
    · rfl
  have hirq : ∀ s' : SerialState, view s' = view s →
      view (if thrEmpty s' then serialUpdateIrq { s' with thrIpending := true } else s')
        = view s := by
    intro s' h
    split
    · rw [view_serialUpdateIrq]
      exact h
    · exact h
  exact hirq _ hpoll

@[simp] theorem view_readRbr (now : BitVec 64) : view (readRbr s now).2 = view s := by
  have hdr : ∀ s : SerialState,
      view { s with lsr := s.lsr &&& ~~~(uartLsrDr ||| uartLsrBi) } = view s :=
    fun s ↦ view_lsr s (anyBit_and_of_subset s.lsr (by decide))
  rw [readRbr]
  split
  · simp only [view_serialUpdateIrq]
    change view (if _ then _ else _) = view s
    split
    · exact hdr { s with recvFifo := (fifoGet s.recvFifo).2 }
    · exact view_emit { s with recvFifo := (fifoGet s.recvFifo).2 } _ (by simp)
  · rw [view_serialUpdateIrq]
    exact hdr s

@[simp] theorem view_readMsr : view (readMsr s).2 = view s := by
  have hpoll : view (if 0 ≤ s.pollMsl then serialUpdateMsl s else s) = view s := by
    split
    · exact view_serialUpdateMsl s
    · rfl
  have hirq : ∀ s' : SerialState, view s' = view s →
      view (if anyBit s'.msr uartMsrAnyDelta then serialUpdateIrq { s' with msr := s'.msr &&& 0xf0 }
        else s') = view s := by
    intro s' h
    split
    · rw [view_serialUpdateIrq]
      exact h
    · exact h
  rw [readMsr]
  split
  · rfl
  · exact hirq _ hpoll

/-- **Reading a port leaves the transmitter alone.** -/
@[simp] theorem view_serialIoportRead (now : BitVec 64) (addr : ℕ) :
    view (serialIoportRead s now addr).2 = view s := by
  rw [serialIoportRead]
  split
  · split
    · rfl
    · exact view_readRbr s now
  · split <;> rfl
  · dsimp only
    split
    · rw [view_serialUpdateIrq]
      rfl
    · rfl
  · rfl
  · rfl
  · dsimp only
    split
    · rw [view_serialUpdateIrq]
      exact view_lsr s (anyBit_and_of_subset s.lsr (by decide))
    · rfl
  · exact view_readMsr s
  · rfl

@[simp] theorem view_xmitDone (t : Times) : view (xmitDone s t) = view s := by
  simp only [xmitDone]
  split
  · rw [view_serialUpdateIrq]
    exact view_lsr s (anyBit_or_of_disjoint s.lsr (by decide))
  · rw [view_emit _ _ (by simp)]
    rfl

/-! ## What the transmitter does -/

theorem thrEmpty_or_thre (x : BitVec 8) : anyBit (x ||| uartLsrThre) uartLsrThre = true :=
  anyBit_or_of_subset x (by decide) (by decide)

theorem thrEmpty_and_not_thre (x : BitVec 8) :
    anyBit (x &&& ~~~uartLsrThre) uartLsrThre = false := anyBit_and_of_disjoint x (by decide)

/-- **The first part of `serial_xmit` loads the next byte.** -/
theorem view_xmitLoad : view (xmitLoad s) = (view s).load := by
  rw [xmitLoad, Transmitter.load]
  by_cases hr : s.tsrRetry ≤ 0
  · have hr' : (view s).retrying = false := by simpa [view] using hr
    rw [if_pos hr, hr', if_neg Bool.false_ne_true]
    by_cases he : fifoEnabled s = true
    · have hempty : ∀ c : Bool, anyBit (if c then s.lsr ||| uartLsrThre else s.lsr) uartLsrThre =
          (thrEmpty s || c) := by
        intro c
        cases c with
        | false => simp [thrEmpty]
        | true => simp [thrEmpty_or_thre]
      have hc := hempty (decide ((fifoGet s.xmitFifo).2.count = 0))
      simp only [decide_eq_true_eq] at hc
      rw [if_pos he, if_pos (show (view s).enabled = true from he)]
      exact Transmitter.ext rfl rfl hr' hc rfl rfl rfl
    · rw [if_neg he, if_neg (show ¬(view s).enabled = true from he)]
      exact Transmitter.ext rfl rfl hr' (thrEmpty_or_thre _) rfl rfl rfl
  · have hr' : (view s).retrying = true := by simpa [view] using hr
    rw [if_neg hr, hr', if_pos rfl]

/-- A byte handed to the console. -/
theorem sent_putchar (c : BitVec 8) : sent (s.emit (.putchar c)) = sent s ++ [c] := by
  simp [sent, SerialState.emit, List.filterMap_append]

/-- Sending the byte in the shift register. -/
theorem view_sent : view { s.emit (.putchar s.tsr) with
    charsSent := s.charsSent + 1, tsrRetry := 0 } = (view s).send := by
  have hsent := sent_putchar s s.tsr
  change { view s with
    sent := sent (s.emit (.putchar s.tsr)), retrying := decide ((0 : ℤ) < 0) } = _
  rw [hsent]
  rfl

theorem xmitLoad_mcr : (xmitLoad s).mcr = s.mcr := by
  rw [xmitLoad]
  split
  · split <;> rfl
  · rfl

/-- **`serial_xmit` loads the next byte, and sends it or puts it off**, unless in loopback. -/
theorem view_serialXmit (t : Times) (h : anyBit s.mcr uartMcrLoop = false) :
    view (serialXmit s t) = (view s).load.send ∨
      ∃ retrying, view (serialXmit s t) = (view s).load.putOff retrying := by
  rw [← view_xmitLoad, serialXmit]
  simp only [xmitLoad_mcr, h, Bool.false_eq_true, if_false]
  generalize xmitLoad s = s
  split
  · right
    split
    · exact ⟨_, view_emit { s with tsrRetry := s.tsrRetry + 1 } _ (by simp)⟩
    · split
      · exact ⟨_, view_xmitDone _ t⟩
      · exact ⟨_, view_xmitDone _ t⟩
  · left
    rw [view_xmitDone]
    exact view_sent s

/-- In loopback it only loads the next byte. -/
theorem view_serialXmit_loop (t : Times) (h : anyBit s.mcr uartMcrLoop = true) :
    view (serialXmit s t) = (view s).load := by
  have hmcr : anyBit (xmitLoad s).mcr uartMcrLoop = true := by
    rw [xmitLoad_mcr]
    exact h
  rw [← view_xmitLoad, serialXmit]
  simp only [if_pos hmcr]
  rw [view_xmitDone, view_serialReceive1]

/-- While the console takes characters, it sends the byte. -/
theorem view_serialXmit_send (t : Times) (h : anyBit s.mcr uartMcrLoop = false)
    (hc : s.charsSent < maxCharsSent) : view (serialXmit s t) = (view s).load.send := by
  have hchars : (xmitLoad s).charsSent = s.charsSent := by
    rw [xmitLoad]
    split
    · split <;> rfl
    · rfl
  rw [← view_xmitLoad, serialXmit]
  simp only [xmitLoad_mcr, h, Bool.false_eq_true, if_false]
  rw [if_neg (by rw [hchars]; exact not_le.mpr hc), view_xmitDone]
  exact view_sent (xmitLoad s)

/-- Otherwise it puts the byte off. -/
theorem view_serialXmit_putOff (t : Times) (h : anyBit s.mcr uartMcrLoop = false)
    (hc : maxCharsSent ≤ s.charsSent) (hretry : 0 ≤ s.tsrRetry) (hpoll : 0 ≤ s.pollMsl) :
    view (serialXmit s t) = (view s).load.putOff true := by
  have hkept : (xmitLoad s).charsSent = s.charsSent ∧ (xmitLoad s).tsrRetry = s.tsrRetry ∧
      (xmitLoad s).pollMsl = s.pollMsl := by
    rw [xmitLoad]
    split
    · split <;> exact ⟨rfl, rfl, rfl⟩
    · exact ⟨rfl, rfl, rfl⟩
  obtain ⟨hchars, htsr, hmsl⟩ := hkept
  rw [← view_xmitLoad, serialXmit]
  simp only [xmitLoad_mcr, h, hchars, htsr, hmsl, Bool.false_eq_true, if_false, if_pos hc,
    if_neg (not_lt.mpr hpoll)]
  split
  · rw [view_emit _ _ (by simp)]
    exact Transmitter.ext rfl rfl (decide_eq_true (Int.lt_add_one_of_le hretry)) rfl rfl rfl rfl
  · rename_i hmax
    have hpos : 0 < (xmitLoad s).tsrRetry := by
      rw [htsr]
      exact lt_trans (by decide) (not_le.mp hmax)
    rw [view_xmitDone]
    exact Transmitter.ext rfl rfl (decide_eq_true hpos) rfl rfl rfl rfl

/-- A write to the transmit register stores a byte. -/
theorem view_storeThr (val : BitVec 8) : view (storeThr s val) = (view s).store val := by
  simp only [storeThr, Transmitter.store]
  by_cases he : fifoEnabled s = true
  · rw [if_pos (show fifoEnabled { s with thr := val } = true from he),
      if_pos (show (view s).enabled = true from he), view_serialUpdateIrq]
    exact Transmitter.ext rfl rfl rfl (thrEmpty_and_not_thre _) rfl rfl rfl
  · rw [if_neg (show ¬fifoEnabled { s with thr := val } = true from he),
      if_neg (show ¬(view s).enabled = true from he), view_serialUpdateIrq]
    exact Transmitter.ext rfl rfl rfl (thrEmpty_and_not_thre _) rfl rfl rfl

theorem anyBit_fe (x : BitVec 8) : anyBit x uartFcrFe = x.getLsbD 0 := by
  have hall : ∀ x : BitVec 8, anyBit x uartFcrFe = x.getLsbD 0 := by decide
  exact hall x

/-- If the transmit FIFO is not flushed, the enable flag does not change. -/
theorem fcrValue_enabled {val : BitVec 8} (h : anyBit (fcrValue s val) uartFcrXfr = false) :
    anyBit (fcrValue s val &&& 0xc9) uartFcrFe = fifoEnabled s := by
  rw [fcrValue] at h ⊢
  split at h
  · rw [anyBit_or_of_subset val (by decide) (by decide)] at h
    contradiction
  · rename_i hxor
    rw [if_neg hxor, fifoEnabled, anyBit_fe, anyBit_fe, BitVec.getLsbD_and,
      show (0xc9 : BitVec 8).getLsbD 0 = true by decide, Bool.and_true]
    rw [anyBit_fe, BitVec.getLsbD_xor] at hxor
    simpa using hxor

/-- What that does to the transmitter. -/
theorem view_fcrSet (val : BitVec 8) : view (fcrSet s val) =
    (view s).setFifo (anyBit val uartFcrXfr) (anyBit (val &&& 0xc9) uartFcrFe) := by
  -- the receive FIFO is flushed, then the transmit FIFO, then the trigger level is set
  have hrfr : view (if anyBit val uartFcrRfr then
      { s.emit (.stop .fifoTimeout) with
        timeoutIpending := false, recvFifo := fifoClear s.recvFifo }
    else s) = view s := by
    split
    · exact view_emit s _ (by simp)
    · rfl
  have hxfr : ∀ s₁ : SerialState, view s₁ = view s →
      view (if anyBit val uartFcrXfr then
          { s₁ with xmitFifo := fifoClear s₁.xmitFifo }
        else s₁) = (view s).setFifo (anyBit val uartFcrXfr) (view s).enabled := by
    intro s₁ h
    rw [← h]
    split
    · rename_i hx
      rw [hx]
      rfl
    · rename_i hx
      rw [Bool.not_eq_true] at hx
      rw [hx]
      rfl
  have hfe : ∀ s₂ : SerialState, view { (
    if anyBit val uartFcrFe then
      { s₂ with
        iir := s₂.iir ||| uartIirFe
        recvFifo := { s₂.recvFifo with itl := triggerLevel val } }
    else { s₂ with iir := s₂.iir &&& ~~~uartIirFe }) with fcr := val &&& 0xc9 } =
      { view s₂ with enabled := anyBit (val &&& 0xc9) uartFcrFe } := by
    intro s₂
    split <;> rfl
  exact (hfe _).trans (congrArg (fun v : Transmitter ↦
    { v with enabled := anyBit (val &&& 0xc9) uartFcrFe }) (hxfr _ hrfr))

/-- **FIFO control flushes the transmit FIFO**, if it says so or changes whether it is in use. -/
theorem view_writeFcr (val : BitVec 8) :
    ∃ flush enabled, view (writeFcr s val) = (view s).setFifo flush enabled ∧
      (flush = false → enabled = (view s).enabled) := by
  by_cases hval : s.fcr = val
  · rw [writeFcr, if_pos hval]
    exact ⟨false, (view s).enabled, rfl, fun _ ↦ rfl⟩
  · refine ⟨anyBit (fcrValue s val) uartFcrXfr, anyBit (fcrValue s val &&& 0xc9) uartFcrFe, ?_,
      fcrValue_enabled s⟩
    rw [writeFcr_eq hval, view_serialUpdateIrq, view_fcrSet]

/-- **A port write on the transmitter**: a byte is stored and the transmitter run, or the FIFO is
set up, or nothing happens. -/
theorem view_serialIoportWrite (t : Times) (addr : ℕ) (val : BitVec 8) :
    (addr % 8 = 0 ∧ anyBit s.lcr uartLcrDlab = false ∧
      serialIoportWrite s t addr val = serialXmit (storeThr s val) t) ∨
    (transmitted s addr val = [] ∧ ∃ flush enabled,
      view (serialIoportWrite s t addr val) = (view s).setFifo flush enabled ∧
      (flush = false → enabled = (view s).enabled) ∧ (addr % 8 ≠ 2 → flush = false)) := by
  have hsame : ∀ s' : SerialState, view s' = view s → ∃ flush enabled,
      view s' = (view s).setFifo flush enabled ∧ (flush = false → enabled = (view s).enabled) ∧
      (addr % 8 ≠ 2 → flush = false) :=
    fun s' h ↦ ⟨false, (view s).enabled, h, fun _ ↦ rfl, fun _ ↦ rfl⟩
  rw [serialIoportWrite]
  split
  · rename_i haddr
    cases hd : anyBit s.lcr uartLcrDlab with
    | true =>
      refine .inr ⟨by simp [transmitted, hd], hsame _ ?_⟩
      exact view_serialUpdateParameters _
    | false => exact .inl ⟨haddr, rfl, rfl⟩
  · rename_i haddr
    refine .inr ⟨by simp [transmitted, haddr], hsame _ ?_⟩
    split
    · exact view_serialUpdateParameters _
    · exact view_writeIer s val
  · rename_i haddr
    obtain ⟨flush, enabled, hw, hkeep⟩ := view_writeFcr s val
    exact .inr ⟨by simp [transmitted, haddr], flush, enabled, hw, hkeep, fun h ↦ absurd haddr h⟩
  · rename_i haddr
    exact .inr ⟨by simp [transmitted, haddr], hsame _ (view_serialUpdateParameters _)⟩
  · rename_i haddr
    exact .inr ⟨by simp [transmitted, haddr], hsame _ rfl⟩
  · rename_i haddr
    exact .inr ⟨by simp [transmitted, haddr], hsame _ rfl⟩
  · rename_i h0 _ _ _ _ _
    exact .inr ⟨if_neg fun h ↦ h0 h.1, hsame _ rfl⟩

/-- **Timer completions on the transmitter**: it is run if its own timer is among them. -/
theorem view_serialTimerInterrupt (completed : Completed) (t : Times) (ring : List (BitVec 8)) :
    ∃ s', view s' = view s ∧ s'.mcr = s.mcr ∧ s'.charsSent = 0 ∧
      view (serialTimerInterrupt s completed t ring).1 =
        if completed.transmit then view (serialXmit s' t) else view s := by
  -- the other completions leave it alone
  have hothers : ∀ (s : SerialState) (completed : Completed), completed.transmit = false →
      view (serialTimerInterrupt s completed t ring).1 = view s := fun s completed hno ↦
    serialTimerInterrupt_rule (P := fun s' ↦ view s' = view s) rfl completed t ring
      (fun s' h ↦ (view_fifoTimeoutInt s').trans h)
      (fun hyes ↦ absurd (hno.symm.trans hyes) Bool.false_ne_true)
      (fun s' h ↦ (view_serialUpdateMsl s').trans h)
      (fun _ s' h ↦ (view_serialCharacterInterrupt s' t.received ring).trans h)
  cases htransmit : completed.transmit with
  | false => exact ⟨{ s with charsSent := 0 }, rfl, rfl, rfl, hothers s completed htransmit⟩
  | true =>
    have hfirst : view (if completed.fifoTimeout then fifoTimeoutInt s else s) = view s ∧
        (if completed.fifoTimeout then fifoTimeoutInt s else s).mcr = s.mcr := by
      split
      · refine ⟨view_fifoTimeoutInt s, ?_⟩
        rw [fifoTimeoutInt]
        split <;> rfl
      · exact ⟨rfl, rfl⟩
    refine ⟨{ (if completed.fifoTimeout then fifoTimeoutInt s else s) with charsSent := 0 },
      hfirst.1, hfirst.2, rfl, ?_⟩
    rw [serialTimerInterrupt_of_transmit htransmit]
    exact hothers _ _ rfl

/-- The transmitter at the start. -/
theorem view_serialPreInit (now : BitVec 64) : view (serialPreInit now) =
    { thr := 0, tsr := 0, retrying := false, empty := true, enabled := false,
      fifo := fifoClear zeroFifo, sent := [] } := by
  have hthre : ∀ s, thrEmpty (serialReset s now) = true := by
    intro s
    have hbits : anyBit (uartLsrTemt ||| uartLsrThre) uartLsrThre = true := by decide
    exact hbits
  have hfe : fifoEnabled (serialReset { zeroState with baudbase := 115200 } now) = false := by
    have hbits : anyBit 0 uartFcrFe = false := by decide
    exact hbits
  rw [serialPreInit, view_serialUpdateMsl]
  refine Transmitter.ext rfl rfl rfl ?_ ?_ rfl rfl
  · exact show thrEmpty (serialReset _ now) = true from hthre _
  · exact show fifoEnabled (serialReset _ now) = false from hfe

end

end Serial
end CamkesVm
