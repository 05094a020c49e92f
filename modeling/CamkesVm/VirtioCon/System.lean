import CamkesVm.Lib.Cyclic
import CamkesVm.Lib.Transition

/-!
# The console rings, one memory access at a time

A virtio console connection is a page of shared memory, `serial_shmem_t`: a ring of `BUFSIZE` bytes
with the index `head` of the oldest unread byte and the index `tail` of the next free slot.  The
VMM at the sending end appends with `tx_virtcon_forward`; the VMM at the receiving end polls all its
rings in `handle_serial_console` and drains one with `virtio_con_notify_recv`.  There is no lock, so
what the two do is an interleaving of single loads and stores, and that is the granularity of the
model: `Sender` and `Receiver` are the places between two accesses, with the local values held
there, and `senderStep` and `receiverStep` perform the next access.

`components/Init/src/virtio_con.c` and `components/VM_Arm/src/modules/virtio_con.c` have the same
code up to the name of one local variable and the number of ports, so one system stands for both,
with the number of ports as its parameter: the length of `serial_layout` on x86, one more on Arm,
where port 0 is the serial server.

What the model leaves to the environment: the emulation layer's `emul_putchar`, which is taken to
consume the bytes of the cyclic range it is handed one after the other; and the port check of
`tx_virtcon_forward`, which returns before it touches a ring.  The rings a receiver polls may be fed
by different VMMs, so every ring has a sender of its own.

The order of a party's own accesses is that of the source. Both indices are loaded again wherever
the source loads them, since they are `volatile`, and a value loaded before may be out of date by
then: `Receiver` holds on to the ones that are used later.
-/

set_option autoImplicit false

namespace CamkesVm
namespace VirtioCon

open Transition

/-- A `char` of the console stream. -/
abbrev Byte := BitVec 8

/-- `BUFSIZE`: 4088, because `serial_shmem_t` has to be `0x1000` bytes big. -/
def bufsize : ℕ := 0x1000 - 2 * 4

/-- The character `'\n'`. -/
def newline : Byte := 0x0A

/-- The shared page, `serial_shmem_t`. -/
structure SerialShmem where
  /-- Index of the oldest unread byte; written by the receiver only. -/
  head : ℕ
  /-- Index of the next free slot; written by the sender only. -/
  tail : ℕ
  /-- The bytes. -/
  buf : ℕ → Byte

/-- Where a sender is inside `tx_virtcon_forward`. -/
inductive Sender
  /-- Not forwarding. -/
  | idle
  /-- About to load `tail` as the index of `buf[tail] = c`. -/
  | index (c : Byte)
  /-- About to store `c` in slot `t`. -/
  | store (c : Byte) (t : ℕ)
  /-- About to load `tail` for `tail = (tail + 1) % BUFSIZE`. -/
  | reload (c : Byte)
  /-- About to store the successor of `t` in `tail`. -/
  | advance (c : Byte) (t : ℕ)
  /-- About to decide whether to notify: on a newline, or else after loading `tail`. -/
  | test (c : Byte)
  /-- About to load `head`, to compare it with the successor of `t`. -/
  | full (t : ℕ)
  /-- About to call `notify`. -/
  | notify
  deriving DecidableEq

/-- Where the receiver is inside `handle_serial_console`. -/
inductive Receiver (n : ℕ)
  /-- Not polling. -/
  | idle
  /-- About to load the `head` of ring `i`. -/
  | testHead (i : Fin n)
  /-- About to load the `tail` of ring `i`, to compare it with `h`. -/
  | testTail (i : Fin n) (h : ℕ)
  /-- In `virtio_con_notify_recv`, about to load `last_read_tail`. -/
  | readTail (i : Fin n)
  /-- About to load `head` as an argument of `emul_putchar`; `t` is `last_read_tail`. -/
  | readHead (i : Fin n) (t : ℕ)
  /-- Inside `emul_putchar`, which has come to slot `pos` of the range that ends before `t`. -/
  | putchar (i : Fin n) (pos t : ℕ)
  deriving DecidableEq

/-- The `n` rings a receiver polls, the senders at their other ends, the notification the senders
share, and what went in and came out of each ring so far. -/
structure State (n : ℕ) where
  /-- The shared pages. -/
  ring : Fin n → SerialShmem
  /-- The sender of each ring. -/
  sender : Fin n → Sender
  /-- The receiver. -/
  receiver : Receiver n
  /-- Whether a notification is waiting to be taken by the receiver. -/
  pending : Bool
  /-- The bytes forwarded on each ring: those whose store of `tail` has happened. -/
  forwarded : Fin n → List Byte
  /-- The bytes `emul_putchar` has consumed from each ring. -/
  delivered : Fin n → List Byte

/-- All rings empty and both ends idle.  What an unused slot holds is irrelevant; `buf` is it. -/
def State.initial {n : ℕ} (buf : Fin n → ℕ → Byte) : State n where
  ring i := { head := 0, tail := 0, buf := buf i }
  sender _ := .idle
  receiver := .idle
  pending := false
  forwarded _ := []
  delivered _ := []

variable {n : ℕ}

/-- Replaces ring `i`. -/
def State.setRing (s : State n) (i : Fin n) (r : SerialShmem) : State n :=
  { s with ring := Function.update s.ring i r }

/-- Moves the sender of ring `i`. -/
def State.setSender (s : State n) (i : Fin n) (p : Sender) : State n :=
  { s with sender := Function.update s.sender i p }

/-- Where `handle_serial_console` goes after port `i`. -/
def nextPort (i : Fin n) : Receiver n :=
  if h : i.val + 1 < n then .testHead ⟨i.val + 1, h⟩ else .idle

/-- The next memory access of `tx_virtcon_forward` on ring `i`. -/
def senderStep (s : State n) (i : Fin n) : Option (State n) :=
  let r := s.ring i
  match s.sender i with
  | .idle => none
  | .index c => some (s.setSender i (.store c r.tail))
  | .store c t =>
    some ((s.setRing i { r with buf := Function.update r.buf t c }).setSender i (.reload c))
  | .reload c => some (s.setSender i (.advance c r.tail))
  | .advance c t =>
    some { (s.setRing i { r with tail := (t + 1) % bufsize }).setSender i (.test c) with
      forwarded := Function.update s.forwarded i (s.forwarded i ++ [c]) }
  | .test c =>
    if c = newline then some (s.setSender i .notify) else some (s.setSender i (.full r.tail))
  | .full t =>
    if (t + 1) % bufsize = r.head then some (s.setSender i .notify)
    else some (s.setSender i .idle)
  | .notify => some { s.setSender i .idle with pending := true }

/-- The next memory access of `handle_serial_console`. -/
def receiverStep (s : State n) : Option (State n) :=
  match s.receiver with
  | .idle => none
  | .testHead i => some { s with receiver := .testTail i (s.ring i).head }
  | .testTail i h =>
    if h ≠ (s.ring i).tail then some { s with receiver := .readTail i }
    else some { s with receiver := nextPort i }
  | .readTail i => some { s with receiver := .readHead i (s.ring i).tail }
  | .readHead i t => some { s with receiver := .putchar i (s.ring i).head t }
  | .putchar i pos t =>
    if pos = t then
      some { s.setRing i { s.ring i with head := t } with receiver := nextPort i }
    else
      some { s with
        receiver := .putchar i ((pos + 1) % bufsize) t
        delivered := Function.update s.delivered i (s.delivered i ++ [(s.ring i).buf pos]) }

/-- What can happen next. -/
inductive Label (n : ℕ)
  /-- The emulation layer calls `tx_virtcon_forward` on ring `i`. -/
  | forward (i : Fin n) (c : Byte)
  /-- The sender of ring `i` performs its next access. -/
  | sender (i : Fin n)
  /-- The receiver enters `handle_serial_console`, taking the notification if there is one. -/
  | poll
  /-- The receiver performs its next access. -/
  | receiver
  deriving DecidableEq

/-- The interleaved system: one access of one of the parties, or the start of a call. -/
def step (s : State n) : Label n → Option (State n)
  | .forward i c => if s.sender i = .idle then some (s.setSender i (.index c)) else none
  | .sender i => senderStep s i
  | .poll =>
    if s.receiver = .idle then
      some { s with
        receiver := if h : 0 < n then .testHead ⟨0, h⟩ else .idle
        pending := false }
    else none
  | .receiver => receiverStep s

/-- The runs of the system. -/
abbrev ConsoleRun (s : State n) (as : List (Label n)) (t : State n) : Prop :=
  Run (fun s a t ↦ step s a = some t) s as t

/-! ## What is unread -/

/-- The slot the receiver has read up to on ring `i`: `head`, except inside `emul_putchar`, which
stores `head` only when it is done. -/
def State.readPos (s : State n) (i : Fin n) : ℕ :=
  match s.receiver with
  | .putchar j pos _ => if j = i then pos else (s.ring i).head
  | _ => (s.ring i).head

/-- What ring `i` holds: the bytes from the slot read up to until `tail`. -/
def State.unread (s : State n) (i : Fin n) : List Byte :=
  Cyclic.window bufsize (s.ring i).buf (s.readPos i)
    (Cyclic.span bufsize (s.readPos i) (s.ring i).tail)

/-- When `tx_virtcon_forward` advances `tail` over a byte, ring `i` holds fewer than
`BUFSIZE - 1` bytes: the new `tail` does not catch up with the receiver. -/
def HasRoom (s : State n) : Label n → Prop
  | .sender i =>
    match s.sender i with
    | .advance _ _ => (s.unread i).length + 1 < bufsize
    | _ => True
  | _ => True

end VirtioCon
end CamkesVm
