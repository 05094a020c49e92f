import CamkesVm.Lib.Log
import CamkesVm.Lib.TimerService
import CamkesVm.Lib.Transition
import CamkesVm.Serial.Ring

/-!
# The UART among its timers, its guest and the serial server

`System` takes timer completions and received characters as they come.  Here they come from
somewhere: `Machine` has the device, the ring it shares with the serial server, and what the time
server knows of the three timers of the device.  A completion can be handled only once it is
recorded, that is after the timer was armed and expired; the signal of the serial server can be
handled only once it is sent, which is some time after the character was stored.

Three histories go with it, none of which the device looks at: the bytes the guest wrote to the
transmit register, the characters the serial server stored, and the characters the guest read while
the line status had `DR` set.  `sinceLsr` counts the bytes the guest wrote since it last read the
line status with `THRE` set; it is what a driver goes by.

## What is here

* `command`, `Completed.has` — the effects of the device as requests to the time server, and
  completions by timer.
* `Event`, `Enabled`, `Machine.next`, `Machine.Step` — the machine as a transition system.
* `taken` — the character that a port read gives the guest.
* `withSerial` — the device has done something, and the time server obeys what is new in its log.

A completion for the modem status does not come, since no timer is ever armed for it.
-/

set_option autoImplicit false

namespace CamkesVm
namespace Serial

open Transition TimerService EffectLog

/-! ## Timers -/

/-- What an effect asks of the time server. -/
def command : Effect → Option (Command Timer)
  | .oneshotAbsolute timer _ => some (.arm timer)
  | .oneshotRelative timer _ => some (.arm timer)
  | .stop timer => some (.stop timer)
  | _ => none

/-- Whether a timer is among the completed ones. -/
def Completed.has (completed : Completed) : Timer → Bool
  | .fifoTimeout => completed.fifoTimeout
  | .transmit => completed.transmit
  | .moreChars => completed.moreChars

/-! ## The machine -/

/-- What can happen. -/
inductive Event
  /-- The guest reads a byte from a port. -/
  | portIn (addr : ℕ) (now : BitVec 64)
  /-- The guest writes a byte to a port. -/
  | portOut (addr : ℕ) (val : BitVec 8) (t : Times)
  /-- The deadline of a timer passes. -/
  | expire (timer : Timer)
  /-- Timer completions are collected and handled. -/
  | timer (completed : Completed) (t : Times)
  /-- The serial server stores a character. -/
  | enqueue (c : BitVec 8)
  /-- The serial server sends its signal. -/
  | signal
  /-- The signal is handled. -/
  | character (now : BitVec 64)

/-- The device and what is around it. -/
structure Machine where
  /-- The device. -/
  serial : SerialState
  /-- The ring of received characters. -/
  buffer : GetcharBuf
  /-- What the time server knows. -/
  timers : Timers Timer
  /-- A character was stored and its signal is still to be sent. -/
  owed : Bool
  /-- The signal was sent and is not handled. -/
  pending : Bool
  /-- The bytes written to the transmit register, oldest first. -/
  written : List (BitVec 8)
  /-- The characters stored by the serial server, oldest first. -/
  enqueued : List (BitVec 8)
  /-- The characters read from the receive register while there were any, oldest first. -/
  got : List (BitVec 8)
  /-- How many bytes were written since the line status was last read with `THRE` set. -/
  sinceLsr : Option ℕ

namespace Machine

/-- The device has done something: what it asked of the time server takes effect. -/
def withSerial (y : Machine) (s : SerialState) : Machine :=
  { y with serial := s, timers := y.timers.obeyAll command (news y.serial.log s.log) }

/-- The character a port read takes from the receive register. -/
def taken (s : SerialState) (now : BitVec 64) (addr : ℕ) : List (BitVec 8) :=
  if addr % 8 = 0 ∧ anyBit s.lcr uartLcrDlab = false ∧ anyBit s.lsr uartLsrDr then
    [(serialIoportRead s now addr).1]
  else []

/-- One event. -/
def next (y : Machine) : Event → Machine
  | .portIn addr now =>
    { y.withSerial (serialIoportRead y.serial now addr).2 with
      got := y.got ++ taken y.serial now addr
      sinceLsr := if addr % 8 = 5 ∧ thrEmpty y.serial then some 0 else y.sinceLsr }
  | .portOut addr val t =>
    { y.withSerial (serialIoportWrite y.serial t addr val) with
      written := y.written ++ transmitted y.serial addr val
      sinceLsr := y.sinceLsr.map (· + (transmitted y.serial addr val).length) }
  | .expire timer => { y with timers := y.timers.expire timer }
  | .timer completed t =>
    let (s, b) := GetcharBuf.serialTimerInterrupt y.serial completed t y.buffer
    { { y with timers := y.timers.collect completed.has }.withSerial s with buffer := b }
  | .enqueue c =>
    { y with buffer := y.buffer.enqueue c, owed := true, enqueued := y.enqueued ++ [c] }
  | .signal => { y with owed := false, pending := true }
  | .character now =>
    let (s, b) := GetcharBuf.serialCharacterInterrupt y.serial now y.buffer
    { y.withSerial s with buffer := b, pending := false }

/-- When an event can happen.  No timer is ever armed for the modem status. -/
def Enabled (y : Machine) : Event → Prop
  | .expire timer => y.timers.armed timer = true
  | .timer completed _ => completed.modemStatus = false ∧
      (completed.fifoTimeout = true → y.timers.recorded .fifoTimeout = true) ∧
      (completed.transmit = true → y.timers.recorded .transmit = true) ∧
      (completed.moreChars = true → y.timers.recorded .moreChars = true)
  | .enqueue _ => ¬y.buffer.Full
  | .signal => y.owed = true
  | .character _ => y.pending = true
  | _ => True

instance (y : Machine) : (e : Event) → Decidable (y.Enabled e)
  | .expire _ | .signal | .character _ => inferInstanceAs (Decidable (_ = _))
  | .timer _ _ => inferInstanceAs (Decidable (_ ∧ _ ∧ _ ∧ _))
  | .enqueue _ => inferInstanceAs (Decidable ¬_)
  | .portIn _ _ | .portOut _ _ _ => inferInstanceAs (Decidable True)

/-- The step relation of the machine. -/
abbrev Step : Machine → Event → Machine → Prop := Does Enabled next

/-- The machine after `serial_pre_init`. -/
def init (now : BitVec 64) : Machine where
  serial := serialPreInit now
  buffer := .empty
  timers := .idle
  owed := false
  pending := false
  written := []
  enqueued := []
  got := []
  sinceLsr := none

end Machine

end Serial
end CamkesVm
