import CamkesVm.Lib.Transition
import CamkesVm.Serial.State

/-!
# The UART: port accesses, timers and the runs of the device

`serial_xmit`, which a write to the transmit register and the expiry of the transmit timer both
call; the guest's accesses to the eight ports; the receive side; and the system they make.  `System`
has, next to the device, the ring of received characters that another component fills, as the list
of the bytes in it, and the bytes the guest has written to the transmit register so far.

The clock is read up to three times in one call of `serial_xmit`; `Times` has the values.

## What is here

* `serialReceive1`, `receiveLoop`, `serialCharacterInterrupt`, `fifoTimeoutInt` — receiving.
* `xmitLoad`, `xmitDone`, `serialXmit` — transmitting, in the parts that the source separates by its
  `do` loop and its returns.
* `serialIoportWrite`, `serialIoportRead` — the ports. Each `case` with more than a line to it is a
  definition of its own.
* `Completed`, `serialTimerInterrupt` — the handler of the timers, with the rule for it: what all of
  its stages keep, it keeps.
* `ierPolled`, `fcrSet`, `msrPolled` — the longer accesses cut in two, for proofs that need the
  state in between.
* `Label`, `System`, `Step`, `sent` — the runs of the device by itself.
-/

set_option autoImplicit false

namespace CamkesVm
namespace Serial

open Transition

/-- The values `current_time_ns` returns during a call. -/
structure Times where
  /-- When `serial_xmit` starts. -/
  newXmitTs : BitVec 64
  /-- When a character is received. -/
  received : BitVec 64
  /-- When `serial_xmit` is done with its character. -/
  lastXmitTs : BitVec 64

/-! ## Receiving -/

/-- `serial_can_receive`: how many characters may be given to the device. -/
def serialCanReceive (s : SerialState) : ℕ :=
  if fifoEnabled s then
    if s.recvFifo.count < uartFifoLength then
      if s.recvFifo.count ≤ s.recvFifo.itl then s.recvFifo.itl - s.recvFifo.count else 1
    else 0
  else if anyBit s.lsr uartLsrDr then 0 else 1

/-- `serial_receive1`, of one character. -/
def serialReceive1 (s : SerialState) (now : BitVec 64) (c : BitVec 8) : SerialState :=
  if fifoEnabled s then
    let s := fifoPutRecv s c
    let s := { s with lsr := s.lsr ||| uartLsrDr }
    serialUpdateIrq (s.emit (.oneshotAbsolute .fifoTimeout (now + s.charTransmitTime * 4)))
  else
    let s := if anyBit s.lsr uartLsrDr then { s with lsr := s.lsr ||| uartLsrOe } else s
    serialUpdateIrq { s with rbr := c, lsr := s.lsr ||| uartLsrDr }

/-- The loop over the ring of received characters; what stays in the ring comes back with the
device. -/
def receiveLoop (s : SerialState) (now : BitVec 64) :
    List (BitVec 8) → SerialState × List (BitVec 8)
  | [] => (s, [])
  | c :: rest =>
    if serialCanReceive s = 0 then (s, c :: rest)
    else receiveLoop (serialReceive1 s now c) now rest

/-- `serial_character_interrupt` -/
def serialCharacterInterrupt (s : SerialState) (now : BitVec 64) (ring : List (BitVec 8)) :
    SerialState × List (BitVec 8) :=
  let (s, ring) := receiveLoop s now ring
  -- a timeout, so as to go and get more characters later
  (if serialCanReceive s = 0 then s.emit (.oneshotRelative .moreChars 3000000) else s, ring)

/-- `fifo_timeout_int` -/
def fifoTimeoutInt (s : SerialState) : SerialState :=
  if s.recvFifo.count = 0 then s else serialUpdateIrq { s with timeoutIpending := true }

/-! ## Transmitting -/

/-- The first part of `serial_xmit`: the next character goes to the shift register, unless one is
waiting there. -/
def xmitLoad (s : SerialState) : SerialState :=
  if s.tsrRetry ≤ 0 then
    if fifoEnabled s then
      let (c, f) := fifoGet s.xmitFifo
      { s with
        tsr := c
        xmitFifo := f
        lsr := if f.count = 0 then s.lsr ||| uartLsrThre else s.lsr }
    else { s with tsr := s.thr, lsr := s.lsr ||| uartLsrThre }
  else s

/-- The last part of `serial_xmit`, for a character that did not have to wait. -/
def xmitDone (s : SerialState) (t : Times) : SerialState :=
  let s := { s with lastXmitTs := t.lastXmitTs }
  if thrEmpty s then
    serialUpdateIrq { s with lsr := s.lsr ||| uartLsrTemt, thrIpending := true }
  else s.emit (.oneshotAbsolute .transmit (t.lastXmitTs + s.charTransmitTime))

/-- `serial_xmit` -/
def serialXmit (s : SerialState) (t : Times) : SerialState :=
  let s := xmitLoad s
  if anyBit s.mcr uartMcrLoop then xmitDone (serialReceive1 s t.received s.tsr) t
  else if maxCharsSent ≤ s.charsSent then
    if s.tsrRetry ≤ maxXmitRetry then
      { s with tsrRetry := s.tsrRetry + 1 }.emit
        (.oneshotAbsolute .transmit (t.newXmitTs + s.charTransmitTime))
    else if s.pollMsl < 0 then xmitDone { s with tsrRetry := -1 } t
    else xmitDone s t
  else
    xmitDone { s.emit (.putchar s.tsr) with charsSent := s.charsSent + 1, tsrRetry := 0 } t

/-! ## Port writes -/

/-- A write to the transmit register, up to sending it. -/
def storeThr (s : SerialState) (val : BitVec 8) : SerialState :=
  let s := { s with thr := val }
  if fifoEnabled s then
    let s := fifoPutXmit s val
    serialUpdateIrq { s with
      thrIpending := false, lsr := s.lsr &&& ~~~uartLsrTemt &&& ~~~uartLsrThre }
  else serialUpdateIrq { s with thrIpending := false, lsr := s.lsr &&& ~~~uartLsrThre }

/-- Port 1 of `serial_ioport_write`, interrupt enable. -/
def writeIer (s : SerialState) (val : BitVec 8) : SerialState :=
  let s := { s with ier := val &&& 0x0f }
  let s := if 0 ≤ s.pollMsl then
      if anyBit s.ier uartIerMsi then serialUpdateMsl { s with pollMsl := 1 }
      else { s with pollMsl := 0 }
    else s
  if thrEmpty s then serialUpdateIrq { s with thrIpending := true } else s

/-- The trigger level that the two top bits of FIFO control select. -/
def triggerLevel (val : BitVec 8) : ℕ :=
  if val &&& 0xc0 = 0x00 then 1
  else if val &&& 0xc0 = 0x40 then 4
  else if val &&& 0xc0 = 0x80 then 8
  else 14

/-- Port 2 of `serial_ioport_write`, FIFO control. -/
def writeFcr (s : SerialState) (val : BitVec 8) : SerialState :=
  if s.fcr = val then s
  else
    -- if the enable flag changes, both FIFOs get flushed
    let val := if anyBit (val ^^^ s.fcr) uartFcrFe then val ||| (uartFcrXfr ||| uartFcrRfr) else val
    let s := if anyBit val uartFcrRfr then
        { s.emit (.stop .fifoTimeout) with
          timeoutIpending := false, recvFifo := fifoClear s.recvFifo }
      else s
    let s := if anyBit val uartFcrXfr then { s with xmitFifo := fifoClear s.xmitFifo } else s
    let s := if anyBit val uartFcrFe then
        { s with
          iir := s.iir ||| uartIirFe, recvFifo := { s.recvFifo with itl := triggerLevel val } }
      else { s with iir := s.iir &&& ~~~uartIirFe }
    serialUpdateIrq { s with fcr := val &&& 0xc9 }

/-- `serial_ioport_write` -/
def serialIoportWrite (s : SerialState) (t : Times) (addr : ℕ) (val : BitVec 8) : SerialState :=
  match addr % 8 with
  | 0 =>
    if anyBit s.lcr uartLcrDlab then
      serialUpdateParameters { s with divider := (s.divider &&& 0xff00) ||| val.setWidth 16 }
    else serialXmit (storeThr s val) t
  | 1 =>
    if anyBit s.lcr uartLcrDlab then
      serialUpdateParameters
        { s with divider := (s.divider &&& 0x00ff) ||| (val.setWidth 16 <<< 8) }
    else writeIer s val
  | 2 => writeFcr s val
  | 3 => serialUpdateParameters { s with lcr := val }
  | 4 => { s with mcr := val &&& 0x1f }
  | 7 => { s with scr := val }
  | _ => s

/-! ## Port reads -/

/-- Port 0 of `serial_ioport_read`, the receive register. -/
def readRbr (s : SerialState) (now : BitVec 64) : BitVec 8 × SerialState :=
  if fifoEnabled s then
    let (c, f) := fifoGet s.recvFifo
    let s := { s with recvFifo := f }
    let s := if f.count = 0 then { s with lsr := s.lsr &&& ~~~(uartLsrDr ||| uartLsrBi) }
      else s.emit (.oneshotAbsolute .fifoTimeout (now + s.charTransmitTime * 4))
    (c, serialUpdateIrq { s with timeoutIpending := false })
  else (s.rbr, serialUpdateIrq { s with lsr := s.lsr &&& ~~~(uartLsrDr ||| uartLsrBi) })

/-- Port 6 of `serial_ioport_read`, modem status. -/
def readMsr (s : SerialState) : BitVec 8 × SerialState :=
  if anyBit s.mcr uartMcrLoop then
    -- in loopback, the modem output pins are connected to the inputs
    (((s.mcr &&& 0x0c) <<< 4) ||| ((s.mcr &&& 0x02) <<< 3) ||| ((s.mcr &&& 0x01) <<< 5), s)
  else
    let s := if 0 ≤ s.pollMsl then serialUpdateMsl s else s
    (s.msr, if anyBit s.msr uartMsrAnyDelta then serialUpdateIrq { s with msr := s.msr &&& 0xf0 }
      else s)

/-- `serial_ioport_read` -/
def serialIoportRead (s : SerialState) (now : BitVec 64) (addr : ℕ) : BitVec 8 × SerialState :=
  match addr % 8 with
  | 0 => if anyBit s.lcr uartLcrDlab then (s.divider.setWidth 8, s) else readRbr s now
  | 1 => if anyBit s.lcr uartLcrDlab then ((s.divider >>> 8).setWidth 8, s) else (s.ier, s)
  | 2 =>
    (s.iir,
      if s.iir &&& uartIirId = uartIirThri then serialUpdateIrq { s with thrIpending := false }
      else s)
  | 3 => (s.lcr, s)
  | 4 => (s.mcr, s)
  | 5 =>
    (s.lsr, if anyBit s.lsr (uartLsrBi ||| uartLsrOe)
      then serialUpdateIrq { s with lsr := s.lsr &&& ~~~(uartLsrBi ||| uartLsrOe) } else s)
  | 6 => readMsr s
  | _ => (s.scr, s)

/-! ## Timers -/

/-- The timers that have completed, the bits `serial_timer_interrupt` looks at. -/
structure Completed where
  /-- `TIMER_FIFO_TIMEOUT` -/
  fifoTimeout : Bool
  /-- `TIMER_TRANSMIT_TIMER` -/
  transmit : Bool
  /-- `TIMER_MODEM_STATUS_TIMER` -/
  modemStatus : Bool
  /-- `TIMER_MORE_CHARS` -/
  moreChars : Bool

/-- `serial_timer_interrupt` -/
def serialTimerInterrupt (s : SerialState) (completed : Completed) (t : Times)
    (ring : List (BitVec 8)) : SerialState × List (BitVec 8) :=
  let s := if completed.fifoTimeout then fifoTimeoutInt s else s
  let s := if completed.transmit then serialXmit { s with charsSent := 0 } t else s
  let s := if completed.modemStatus then serialUpdateMsl s else s
  if completed.moreChars then serialCharacterInterrupt s t.received ring else (s, ring)

/-- **Stage by stage**: what each stage of `serial_timer_interrupt` that is run keeps is kept. -/
theorem serialTimerInterrupt_rule {P : SerialState → Prop} {s : SerialState} (h : P s)
    (completed : Completed) (t : Times) (ring : List (BitVec 8))
    (hfifo : ∀ s, P s → P (fifoTimeoutInt s))
    (hxmit : completed.transmit = true → ∀ s, P s → P (serialXmit { s with charsSent := 0 } t))
    (hmsl : ∀ s, P s → P (serialUpdateMsl s))
    (hchars : completed.moreChars = true →
      ∀ s, P s → P (serialCharacterInterrupt s t.received ring).1) :
    P (serialTimerInterrupt s completed t ring).1 := by
  simp only [serialTimerInterrupt]
  have hfirst : P (if completed.fifoTimeout then fifoTimeoutInt s else s) := by
    split
    · exact hfifo s h
    · exact h
  generalize (if completed.fifoTimeout then fifoTimeoutInt s else s) = s at hfirst ⊢
  have hsecond : P (if completed.transmit then serialXmit { s with charsSent := 0 } t else s) := by
    split
    · rename_i htransmit
      exact hxmit htransmit s hfirst
    · exact hfirst
  generalize (if completed.transmit then serialXmit { s with charsSent := 0 } t else s) = s
    at hsecond ⊢
  have hthird : P (if completed.modemStatus then serialUpdateMsl s else s) := by
    split
    · exact hmsl s hsecond
    · exact hsecond
  generalize (if completed.modemStatus then serialUpdateMsl s else s) = s at hthird ⊢
  split
  · rename_i hmore
    exact hchars hmore s hthird
  · exact hthird

/-- If the transmitter's timer is among the completions, the transmitter is run after the receive
timeout, and then the others are handled. -/
theorem serialTimerInterrupt_of_transmit {completed : Completed}
    (h : completed.transmit = true) (s : SerialState) (t : Times) (ring : List (BitVec 8)) :
    let first := if completed.fifoTimeout then fifoTimeoutInt s else s
    serialTimerInterrupt s completed t ring =
      serialTimerInterrupt (serialXmit { first with charsSent := 0 } t)
        { completed with fifoTimeout := false, transmit := false } t ring := by
  simp only [serialTimerInterrupt, h, if_true]
  rfl

/-! ## The longer accesses in steps -/

/-- A write to interrupt enable, up to the transmitter's request. -/
def ierPolled (s : SerialState) (val : BitVec 8) : SerialState :=
  let s := { s with ier := val &&& 0x0f }
  if 0 ≤ s.pollMsl then
    if anyBit s.ier uartIerMsi then serialUpdateMsl { s with pollMsl := 1 }
    else { s with pollMsl := 0 }
  else s

theorem writeIer_eq (s : SerialState) (val : BitVec 8) :
    writeIer s val =
      if thrEmpty (ierPolled s val)
      then serialUpdateIrq { ierPolled s val with thrIpending := true }
      else ierPolled s val := rfl

/-- The value of FIFO control with the flushes that a change of the enable flag adds. -/
def fcrValue (s : SerialState) (val : BitVec 8) : BitVec 8 :=
  if anyBit (val ^^^ s.fcr) uartFcrFe then val ||| (uartFcrXfr ||| uartFcrRfr) else val

/-- A write to FIFO control, of a value that has its flushes. -/
def fcrSet (s : SerialState) (val : BitVec 8) : SerialState :=
  let s := if anyBit val uartFcrRfr then
      { s.emit (.stop .fifoTimeout) with
        timeoutIpending := false, recvFifo := fifoClear s.recvFifo }
    else s
  let s := if anyBit val uartFcrXfr then { s with xmitFifo := fifoClear s.xmitFifo } else s
  let s := if anyBit val uartFcrFe then
      { s with
        iir := s.iir ||| uartIirFe, recvFifo := { s.recvFifo with itl := triggerLevel val } }
    else { s with iir := s.iir &&& ~~~uartIirFe }
  { s with fcr := val &&& 0xc9 }

theorem writeFcr_eq {s : SerialState} {val : BitVec 8} (h : s.fcr ≠ val) :
    writeFcr s val = serialUpdateIrq (fcrSet s (fcrValue s val)) := by
  rw [writeFcr, if_neg h]
  rfl

/-- A read of modem status, up to clearing what changed. -/
def msrPolled (s : SerialState) : SerialState := if 0 ≤ s.pollMsl then serialUpdateMsl s else s

theorem readMsr_eq {s : SerialState} (h : anyBit s.mcr uartMcrLoop = false) :
    (readMsr s).2 = if anyBit (msrPolled s).msr uartMsrAnyDelta then
      serialUpdateIrq { msrPolled s with msr := (msrPolled s).msr &&& 0xf0 } else msrPolled s := by
  rw [readMsr, if_neg (by simp [h])]
  rfl

/-! ## Initialisation -/

/-- An empty FIFO. -/
def zeroFifo : SerialFIFO := { data := fun _ ↦ 0, count := 0, itl := 0, tail := 0, head := 0 }

/-- The `static` state before `serial_pre_init`: all zero. -/
def zeroState : SerialState where
  divider := 0
  rbr := 0
  thr := 0
  tsr := 0
  ier := 0
  iir := 0
  lcr := 0
  mcr := 0
  lsr := 0
  msr := 0
  scr := 0
  fcr := 0
  thrIpending := false
  baudbase := 0
  tsrRetry := 0
  lastXmitTs := 0
  recvFifo := zeroFifo
  xmitFifo := zeroFifo
  timeoutIpending := false
  charTransmitTime := 0
  pollMsl := 0
  charsSent := 0
  log := []

/-- `serial_reset` -/
def serialReset (s : SerialState) (now : BitVec 64) : SerialState :=
  { s with
    rbr := 0
    ier := 0
    iir := uartIirNoInt
    lcr := 0
    lsr := uartLsrTemt ||| uartLsrThre
    msr := uartMsrDcd ||| uartMsrDsr ||| uartMsrCts
    divider := 0x0c
    mcr := uartMcrOut2
    scr := 0
    tsrRetry := 0
    charTransmitTime := BitVec.ofNat 64 (getTicksPerSec / 9600 * 10)
    pollMsl := 0
    recvFifo := fifoClear s.recvFifo
    xmitFifo := fifoClear s.xmitFifo
    lastXmitTs := now
    thrIpending := false }

/-- `serial_pre_init` -/
def serialPreInit (now : BitVec 64) : SerialState :=
  serialUpdateMsl (serialReset { zeroState with baudbase := 115200 } now)

/-! ## Runs -/

/-- What can happen to the device. -/
inductive Label
  /-- The guest reads a byte from a port. -/
  | portIn (addr : ℕ) (now : BitVec 64)
  /-- The guest writes a byte to a port. -/
  | portOut (addr : ℕ) (val : BitVec 8) (t : Times)
  /-- Timer completions are handled. -/
  | timer (completed : Completed) (t : Times)
  /-- The signal that there are received characters is handled. -/
  | character (now : BitVec 64)
  /-- Another component puts a received character into the ring. -/
  | enqueue (c : BitVec 8)

/-- The device and what is around it. -/
structure System where
  /-- The device. -/
  serial : SerialState
  /-- The received characters in the ring, `serial_getchar_buf`. -/
  ring : List (BitVec 8)
  /-- The bytes the guest has written to the transmit register, oldest first. -/
  written : List (BitVec 8)

/-- The byte a port write puts into the transmit register. -/
def transmitted (s : SerialState) (addr : ℕ) (val : BitVec 8) : List (BitVec 8) :=
  if addr % 8 = 0 ∧ anyBit s.lcr uartLcrDlab = false then [val] else []

/-- One event. -/
def System.next (y : System) : Label → System
  | .portIn addr now => { y with serial := (serialIoportRead y.serial now addr).2 }
  | .portOut addr val t =>
    { y with
      serial := serialIoportWrite y.serial t addr val
      written := y.written ++ transmitted y.serial addr val }
  | .timer completed t =>
    let (s, ring) := serialTimerInterrupt y.serial completed t y.ring
    { y with serial := s, ring := ring }
  | .character now =>
    let (s, ring) := serialCharacterInterrupt y.serial now y.ring
    { y with serial := s, ring := ring }
  | .enqueue c => { y with ring := y.ring ++ [c] }

/-- The step relation of `System.next`. -/
def Step (y : System) (a : Label) (y' : System) : Prop := y' = y.next a

/-- The system after `serial_pre_init`. -/
def System.init (now : BitVec 64) : System :=
  { serial := serialPreInit now, ring := [], written := [] }

/-- The bytes handed to `guest_putchar_putchar`, oldest first. -/
def sent (s : SerialState) : List (BitVec 8) :=
  s.log.filterMap fun
    | .putchar c => some c
    | _ => none

end Serial
end CamkesVm
