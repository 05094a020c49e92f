import CamkesVm.Lib.Flags
import Mathlib.Data.BitVec
import Mathlib.Logic.Function.Basic

/-!
# The UART: registers, FIFOs and outputs

The state of the emulated 16550 of `components/Init/src/serial.c`, its two FIFOs, and the functions
that compute the interrupt line, the modem status and the time a character takes.

What the source does to the world outside is collected in `log`, oldest first: the bytes handed to
`guest_putchar_putchar`, the levels of `TTYS0_IRQ`, and the timers it starts and stops.  Times are
64-bit words.  The fields that only the code compiled out by `#if 0` uses (`it_shift`,
`fcr_vmstate`) are left out, and so is `last_break_enable`, which is written and never read for
anything but itself.

The two FIFOs have one type and one set of functions, but for `fifo_put`, which treats a full FIFO
in two ways and is two definitions here; `CamkesVm.Serial.Queues` has it as the source writes it.

`serial_update_irq` looks at the sources of an interrupt in an `if` chain, which is `irqSource`. It
is the only function that sets the line.
-/

set_option autoImplicit false

namespace CamkesVm
namespace Serial

/-! ## Constants -/

/-- `UART_LCR_DLAB` -/
def uartLcrDlab : BitVec 8 := 0x80

/-- `UART_IER_MSI` -/
def uartIerMsi : BitVec 8 := 0x08

/-- `UART_IER_RLSI` -/
def uartIerRlsi : BitVec 8 := 0x04

/-- `UART_IER_THRI` -/
def uartIerThri : BitVec 8 := 0x02

/-- `UART_IER_RDI` -/
def uartIerRdi : BitVec 8 := 0x01

/-- `UART_IIR_NO_INT` -/
def uartIirNoInt : BitVec 8 := 0x01

/-- `UART_IIR_ID` -/
def uartIirId : BitVec 8 := 0x06

/-- `UART_IIR_MSI` -/
def uartIirMsi : BitVec 8 := 0x00

/-- `UART_IIR_THRI` -/
def uartIirThri : BitVec 8 := 0x02

/-- `UART_IIR_RDI` -/
def uartIirRdi : BitVec 8 := 0x04

/-- `UART_IIR_RLSI` -/
def uartIirRlsi : BitVec 8 := 0x06

/-- `UART_IIR_CTI` -/
def uartIirCti : BitVec 8 := 0x0c

/-- `UART_IIR_FE` -/
def uartIirFe : BitVec 8 := 0xc0

/-- `UART_MCR_LOOP` -/
def uartMcrLoop : BitVec 8 := 0x10

/-- `UART_MCR_OUT2` -/
def uartMcrOut2 : BitVec 8 := 0x08

/-- `UART_MSR_DCD` -/
def uartMsrDcd : BitVec 8 := 0x80

/-- `UART_MSR_RI` -/
def uartMsrRi : BitVec 8 := 0x40

/-- `UART_MSR_DSR` -/
def uartMsrDsr : BitVec 8 := 0x20

/-- `UART_MSR_CTS` -/
def uartMsrCts : BitVec 8 := 0x10

/-- `UART_MSR_TERI` -/
def uartMsrTeri : BitVec 8 := 0x04

/-- `UART_MSR_ANY_DELTA` -/
def uartMsrAnyDelta : BitVec 8 := 0x0f

/-- `UART_LSR_TEMT` -/
def uartLsrTemt : BitVec 8 := 0x40

/-- `UART_LSR_THRE` -/
def uartLsrThre : BitVec 8 := 0x20

/-- `UART_LSR_BI` -/
def uartLsrBi : BitVec 8 := 0x10

/-- `UART_LSR_OE` -/
def uartLsrOe : BitVec 8 := 0x02

/-- `UART_LSR_DR` -/
def uartLsrDr : BitVec 8 := 0x01

/-- `UART_LSR_INT_ANY` -/
def uartLsrIntAny : BitVec 8 := 0x1e

/-- `UART_FCR_XFR` -/
def uartFcrXfr : BitVec 8 := 0x04

/-- `UART_FCR_RFR` -/
def uartFcrRfr : BitVec 8 := 0x02

/-- `UART_FCR_FE` -/
def uartFcrFe : BitVec 8 := 0x01

/-- `UART_FIFO_LENGTH` -/
def uartFifoLength : ℕ := 16

/-- `MAX_XMIT_RETRY` -/
def maxXmitRetry : ℤ := 4

/-- The number of characters sent in one interval, `chars_sent >= 16`. -/
def maxCharsSent : ℕ := 16

/-- `get_ticks_per_sec`: nanoseconds per second. -/
def getTicksPerSec : ℕ := 1000000000

/-! ## State -/

/-- `SerialFIFO`: a cyclic buffer with its two ends and its length. -/
structure SerialFIFO where
  /-- The slots. -/
  data : ℕ → BitVec 8
  /-- How many bytes it holds. -/
  count : ℕ
  /-- The interrupt trigger level. -/
  itl : ℕ
  /-- The slot that is read next. -/
  tail : ℕ
  /-- The slot that is written next. -/
  head : ℕ

/-- The timers the UART uses. -/
inductive Timer
  /-- `TIMER_FIFO_TIMEOUT` -/
  | fifoTimeout
  /-- `TIMER_TRANSMIT_TIMER` -/
  | transmit
  /-- `TIMER_MORE_CHARS` -/
  | moreChars
  deriving DecidableEq

/-- What the UART does to the world outside. -/
inductive Effect
  /-- `guest_putchar_putchar(c)` -/
  | putchar (c : BitVec 8)
  /-- `vm_set_irq_level(TTYS0_IRQ, level)` -/
  | setIrqLevel (level : ℕ)
  /-- `init_timer_oneshot_absolute(timer, time)` -/
  | oneshotAbsolute (timer : Timer) (time : BitVec 64)
  /-- `init_timer_oneshot_relative(timer, ns)` -/
  | oneshotRelative (timer : Timer) (ns : ℕ)
  /-- `init_timer_stop(timer)` -/
  | stop (timer : Timer)
  deriving DecidableEq

/-- The device, `SerialState`, with what it has done so far. -/
structure SerialState where
  /-- The divisor latch. -/
  divider : BitVec 16
  /-- The receive register. -/
  rbr : BitVec 8
  /-- The transmit holding register. -/
  thr : BitVec 8
  /-- The transmit shift register. -/
  tsr : BitVec 8
  /-- Interrupt enable. -/
  ier : BitVec 8
  /-- Interrupt identification. -/
  iir : BitVec 8
  /-- Line control. -/
  lcr : BitVec 8
  /-- Modem control. -/
  mcr : BitVec 8
  /-- Line status. -/
  lsr : BitVec 8
  /-- Modem status. -/
  msr : BitVec 8
  /-- Scratch. -/
  scr : BitVec 8
  /-- FIFO control. -/
  fcr : BitVec 8
  /-- The transmitter asks for an interrupt. -/
  thrIpending : Bool
  /-- The frequency the divisor divides. -/
  baudbase : ℕ
  /-- How often sending the byte in `tsr` was put off; not positive if none waits there. -/
  tsrRetry : ℤ
  /-- When the last byte left `tsr`. -/
  lastXmitTs : BitVec 64
  /-- The receive FIFO. -/
  recvFifo : SerialFIFO
  /-- The transmit FIFO. -/
  xmitFifo : SerialFIFO
  /-- The receive timeout asks for an interrupt. -/
  timeoutIpending : Bool
  /-- The time to transmit a character. -/
  charTransmitTime : BitVec 64
  /-- Whether the modem status is polled, `-1` if there is none. -/
  pollMsl : ℤ
  /-- How many characters were sent in this interval. -/
  charsSent : ℕ
  /-- What has been done to the world outside, oldest first. -/
  log : List Effect

/-- The effect of one call on the world outside. -/
def SerialState.emit (s : SerialState) (e : Effect) : SerialState := { s with log := s.log ++ [e] }

/-- A C condition `x & mask`. -/
def anyBit (x mask : BitVec 8) : Bool := x &&& mask != 0

/-- Setting other bits. -/
theorem anyBit_or_of_disjoint (x : BitVec 8) {m k : BitVec 8} (h : m &&& k = 0) :
    anyBit (x ||| m) k = anyBit x k := by
  rw [anyBit, anyBit, Flags.or_and_of_disjoint x h]

/-- Clearing other bits. -/
theorem anyBit_and_of_subset (x : BitVec 8) {m k : BitVec 8} (h : m &&& k = k) :
    anyBit (x &&& m) k = anyBit x k := by
  rw [anyBit, anyBit, Flags.and_and_of_subset x h]

/-- Setting the bits themselves. -/
theorem anyBit_or_of_subset (x : BitVec 8) {m k : BitVec 8} (h : m &&& k = k) (hk : k ≠ 0) :
    anyBit (x ||| m) k = true := by
  rw [anyBit, Flags.or_and_of_subset x h]
  exact bne_iff_ne.mpr hk

/-- Clearing the bits themselves. -/
theorem anyBit_and_of_disjoint (x : BitVec 8) {m k : BitVec 8} (h : m &&& k = 0) :
    anyBit (x &&& m) k = false := by
  rw [anyBit, Flags.and_and_of_disjoint x h]
  exact bne_self_eq_false _

/-- `s->fcr & UART_FCR_FE` -/
def fifoEnabled (s : SerialState) : Bool := anyBit s.fcr uartFcrFe

/-- `s->lsr & UART_LSR_THRE` -/
def thrEmpty (s : SerialState) : Bool := anyBit s.lsr uartLsrThre

/-! ## FIFOs -/

/-- `fifo_clear` -/
def fifoClear (f : SerialFIFO) : SerialFIFO :=
  { f with data := fun _ ↦ 0, count := 0, head := 0, tail := 0 }

/-- Storing a byte at the head of a FIFO. -/
def fifoStore (f : SerialFIFO) (chr : BitVec 8) : SerialFIFO :=
  { f with
    data := Function.update f.data f.head chr
    head := if f.head + 1 = uartFifoLength then 0 else f.head + 1 }

/-- `fifo_put` on the transmit FIFO, where an overrun overwrites. -/
def fifoPutXmit (s : SerialState) (chr : BitVec 8) : SerialState :=
  let f := fifoStore s.xmitFifo chr
  { s with xmitFifo := if f.count < uartFifoLength then { f with count := f.count + 1 } else f }

/-- `fifo_put` on the receive FIFO, where an overrun is flagged. -/
def fifoPutRecv (s : SerialState) (chr : BitVec 8) : SerialState :=
  if s.recvFifo.count < uartFifoLength then
    let f := fifoStore s.recvFifo chr
    { s with recvFifo := { f with count := f.count + 1 } }
  else { s with lsr := s.lsr ||| uartLsrOe }

/-- `fifo_get` -/
def fifoGet (f : SerialFIFO) : BitVec 8 × SerialFIFO :=
  if f.count = 0 then (0, f)
  else
    (f.data f.tail,
      { f with
        tail := if f.tail + 1 = uartFifoLength then 0 else f.tail + 1
        count := f.count - 1 })

/-! ## Interrupts, parameters, modem status -/

/-- The interrupt `serial_update_irq` identifies: the first source that asks. -/
def irqSource (s : SerialState) : BitVec 8 :=
  if anyBit s.ier uartIerRlsi && anyBit s.lsr uartLsrIntAny then uartIirRlsi
  else if anyBit s.ier uartIerRdi && s.timeoutIpending then uartIirCti
  else if anyBit s.ier uartIerRdi && anyBit s.lsr uartLsrDr &&
      (!fifoEnabled s || decide (s.recvFifo.itl ≤ s.recvFifo.count)) then uartIirRdi
  else if anyBit s.ier uartIerThri && s.thrIpending then uartIirThri
  else if anyBit s.ier uartIerMsi && anyBit s.msr uartMsrAnyDelta then uartIirMsi
  else uartIirNoInt

/-- `serial_update_irq` -/
def serialUpdateIrq (s : SerialState) : SerialState :=
  let tmpIir := irqSource s
  { s with iir := tmpIir ||| (s.iir &&& 0xf0) }.emit
    (.setIrqLevel (if tmpIir != uartIirNoInt then 1 else 0))

/-- `serial_update_parameters`: the time a frame takes. -/
def serialUpdateParameters (s : SerialState) : SerialState :=
  if s.divider = 0 then s
  else
    let parityBits := if anyBit s.lcr 0x08 then 1 else 0
    let stopBits := if anyBit s.lcr 0x04 then 2 else 1
    let dataBits := (s.lcr &&& 0x03).toNat + 5
    let frameSize := 1 + parityBits + dataBits + stopBits
    let speed := s.baudbase / s.divider.toNat
    { s with charTransmitTime := BitVec.ofNat 64 (getTicksPerSec / speed * frameSize) }

/-- `serial_update_msl` -/
def serialUpdateMsl (s : SerialState) : SerialState :=
  let omsr := s.msr
  let msr := s.msr ||| uartMsrCts ||| uartMsrDcd
  if msr != omsr then
    -- the delta bits; `TERI` only stays if the line was raised before
    let msr := msr ||| ((msr >>> 4) ^^^ (omsr >>> 4))
    let msr := if anyBit msr uartMsrTeri && !anyBit omsr uartMsrRi then msr &&& ~~~uartMsrTeri
      else msr
    serialUpdateIrq { s with msr := msr }
  else { s with msr := msr }

end Serial
end CamkesVm
