import CamkesVm.Lib.Linked
import CamkesVm.Lib.Transition
import Mathlib.Data.Int.Notation
import Mathlib.Data.List.Nodup

/-!
# Receiving datagrams

The server side of the UDP connector keeps, for each client, an array of messages, `message_memory`,
and threads two linked lists through it: the free messages and the used ones.

* `udprecv` is called by the network stack for a datagram.  It moves a message from the free list to
  the end of the used list, and signals the client if that has asked for it.  When no message is
  free the datagram is dropped.
* A client polls: the loop of `__run` copies the datagram of the first used message into the buffer
  it shares with the client, moves the message back to the free list, and replies with the length
  and the sender.  The status says whether there are more, and -1 that there was nothing.

Both run under the lock of the stack, so each is one step here.  The client is one that polls, after
each notification, until the status is not 0, like those of `Echo`.

The buffer is a dataport of 4096 bytes.  The server does not look at the length before it copies,
and the client's stub asserts afterwards that the length is below 4096.  So there are three cases:

* below 4096 bytes a poll returns the datagram;
* a datagram of 4096 bytes fills the buffer, and the assertion stops the client: this poll returns
  nothing, and the datagram is lost (`not_served`);
* a longer one overwrites what the server has mapped behind the buffer, which can be anything.  The
  state remembers that (`State.overrun`), and nothing is said of what the server does from then on:
  no event is enabled.

Clients have nothing in common but the lock, so the model has one.  Pointers to messages are indices
of the array; an index that is not in the array points to some other memory.  Without messages the
initialisation makes `free_head` point before the array.  For any number of messages but zero, and
as long as the datagrams that the server accepts are below the limit, `run_served` says that the two
lists have all messages, that polls return the datagrams in order, and that no client waits for what
is already there.  The invariant is `Inv`; `inv_udprecv` and `inv_poll` are its steps.
-/

set_option autoImplicit false

namespace CamkesVm
namespace Udp

open Transition

/-- A byte of a datagram. -/
abbrev Byte := BitVec 8

/-! ## The server's data -/

/-- `udp_message_t`.  Pointers to messages are indices of `message_memory`, and a `pbuf` is the
chain of its payloads. -/
structure UdpMessage where
  /-- `pbuf`. -/
  pbuf : Option (List (List Byte)) := none
  /-- `addr`. -/
  addr : BitVec 32 := 0
  /-- `port`. -/
  port : BitVec 16 := 0
  /-- `next`. -/
  next : Option ℤ := none

/-- `udp_client_t`, as far as it changes. -/
structure UdpClient where
  /-- `need_signal`. -/
  needSignal : Bool := true
  /-- `free_head`. -/
  freeHead : Option ℤ := none
  /-- `used_head`. -/
  usedHead : Option ℤ := none
  /-- `used_tail`. -/
  usedTail : Option ℤ := none
  /-- The memory that `message_memory` is part of. -/
  messageMemory : ℤ → UdpMessage

/-- The links between the messages. -/
def UdpClient.next (c : UdpClient) (i : ℤ) : Option ℤ := (c.messageMemory i).next

/-- `*m = message`. -/
def UdpClient.store (c : UdpClient) (m : ℤ) (message : UdpMessage) : UdpClient :=
  { c with messageMemory := Function.update c.messageMemory m message }

/-- `m->next = p`. -/
def UdpClient.setNext (c : UdpClient) (m : ℤ) (p : Option ℤ) : UdpClient :=
  c.store m { c.messageMemory m with next := p }

/-- A datagram, as it arrives. -/
structure Datagram where
  /-- The chain of payloads. -/
  pbuf : List (List Byte)
  /-- The sender's address. -/
  addr : BitVec 32
  /-- The sender's port. -/
  port : BitVec 16

/-- What a client gets from a poll. -/
structure Reply where
  /-- The bytes in its buffer. -/
  bytes : List Byte
  /-- The sender's port. -/
  port : BitVec 16
  /-- The sender's address. -/
  addr : BitVec 32
  deriving DecidableEq

/-- What a client is to get for a datagram. -/
def Datagram.reply (d : Datagram) : Reply := ⟨d.pbuf.flatten, d.port, d.addr⟩

/-- The body of the inner loop of `__init`. -/
def initMessage (mem : ℤ → UdpMessage) (j : ℕ) : ℤ → UdpMessage :=
  Function.update mem j { next := if j = 0 then none else some (j - 1 : ℤ) }

/-- `__init`, for one client with `bufs` messages. -/
def UdpClient.init (bufs : ℕ) (mem : ℤ → UdpMessage) : UdpClient where
  messageMemory := (List.range bufs).foldl initMessage mem
  freeHead := some (bufs - 1 : ℤ)

/-- `memcpy` to offset `offset` of a buffer. -/
def memcpy (buf : ℕ → Byte) (offset : ℕ) (bytes : List Byte) : ℕ → Byte :=
  fun k ↦ if offset ≤ k then bytes.getD (k - offset) (buf k) else buf k

/-- The loop over the chain of a `pbuf`: the buffer, and `packet_len`. -/
def copyChain (buf : ℕ → Byte) (packetLen : ℕ) : List (List Byte) → (ℕ → Byte) × ℕ
  | [] => (buf, packetLen)
  | q :: chain => copyChain (memcpy buf packetLen q) (packetLen + q.length) chain

/-! ## The system -/

/-- Where the client component is. -/
inductive Waiter
  /-- Waiting for the notification. -/
  | waiting
  /-- About to poll. -/
  | polling
  /-- Stopped by the assertion of the stub. -/
  | aborted
  deriving DecidableEq

/-- The server, the client, and what went in and came out. -/
structure State where
  /-- The server's record of the client. -/
  client : UdpClient
  /-- The client's notification has been signalled. -/
  signalled : Bool
  /-- The client component. -/
  waiter : Waiter
  /-- The server's memory from the start of the buffer on that the client shares with it.  The
  buffer is the first 4096 bytes. -/
  buf : ℕ → Byte
  /-- A datagram was written past the end of the buffer. -/
  overrun : Bool
  /-- The datagrams that were not dropped. -/
  accepted : List Datagram
  /-- The datagrams that polls returned. -/
  returned : List Reply

/-- After `__init`. -/
def State.initial (bufs : ℕ) (mem : ℤ → UdpMessage) (buf : ℕ → Byte) : State :=
  ⟨.init bufs mem, false, .waiting, buf, false, [], []⟩

/-- What `udprecv` does to the record of the client, when `m` is the first free message. -/
def UdpClient.enqueue (c : UdpClient) (m : ℤ) (d : Datagram) : UdpClient :=
  let c := { c with freeHead := c.next m }
  let c := c.store m { pbuf := some d.pbuf, addr := d.addr, port := d.port, next := none }
  let c := { c with needSignal := false }
  match c.usedHead, c.usedTail with
  | none, _ => { c with usedHead := some m, usedTail := some m }
  | some _, some tail => { c.setNext tail (some m) with usedTail := some m }
  | some _, none => c

/-- `udprecv`. -/
def State.udprecv (s : State) (d : Datagram) : State :=
  match s.client.freeHead with
  | none => s
  | some m => { s with
      client := s.client.enqueue m d
      signalled := s.signalled || s.client.needSignal
      accepted := s.accepted ++ [d] }

/-- What a poll does to the record of the client, when `m` is the first used message. -/
def UdpClient.dequeue (c : UdpClient) (m : ℤ) : UdpClient :=
  let c := { c with usedHead := c.next m }
  let c := { c with needSignal := c.needSignal || c.usedHead.isNone }
  { c.setNext m c.freeHead with freeHead := some m }

/-- What a client does that has got a datagram. -/
def afterPoll (len : ℕ) (status : ℕ) : Waiter :=
  if 4096 ≤ len then .aborted
  else if status = 0 then .polling
  else .waiting

/-- A poll: the server's turn of the loop of `__run`, and the stub's share.  A stub whose assertion
fails returns nothing. -/
def State.poll (s : State) : State :=
  match s.client.usedHead with
  | none => { s with client := { s.client with needSignal := true }, waiter := .waiting }
  | some m =>
    let message := s.client.messageMemory m
    let copied := copyChain s.buf 0 (message.pbuf.getD [])
    let c := s.client.dequeue m
    { s with
      client := c
      buf := copied.1
      overrun := s.overrun || decide (4096 < copied.2)
      returned := s.returned ++ if copied.2 < 4096
        then [⟨(List.range copied.2).map copied.1, message.port, message.addr⟩] else []
      waiter := afterPoll copied.2 (if c.usedHead.isSome then 0 else 1) }

/-- What happens next. -/
inductive Event
  /-- The network stack calls `udprecv`. -/
  | udprecv (d : Datagram)
  /-- The client takes its notification. -/
  | wake
  /-- The client polls. -/
  | poll

/-- When it can happen.  After an overrun the client is stopped, and the server is not what it
was. -/
def Enabled (s : State) : Event → Prop
  | .udprecv _ => s.overrun = false
  | .wake => s.waiter = .waiting ∧ s.signalled = true
  | .poll => s.waiter = .polling

instance (s : State) : (e : Event) → Decidable (Enabled s e)
  | .udprecv _ | .poll => inferInstanceAs (Decidable (_ = _))
  | .wake => inferInstanceAs (Decidable (_ ∧ _))

/-- What happens then. -/
def next (s : State) : Event → State
  | .udprecv d => s.udprecv d
  | .wake => { s with signalled := false, waiter := .polling }
  | .poll => s.poll

/-! ## Service -/

/-- What a poll makes of a message. -/
def UdpClient.replyOf (c : UdpClient) (m : ℤ) : Reply :=
  ⟨((c.messageMemory m).pbuf.getD []).flatten, (c.messageMemory m).port, (c.messageMemory m).addr⟩

/-- The messages of an array of `bufs`. -/
def messages (bufs : ℕ) : List ℤ := (List.range bufs).map fun (j : ℕ) ↦ (j : ℤ)

/-- The messages of the two lists. -/
structure Lists (bufs : ℕ) (c : UdpClient) (free used : List ℤ) : Prop where
  /-- The free messages. -/
  linkedFree : Linked c.next c.freeHead free
  /-- The used messages. -/
  linkedUsed : Linked c.next c.usedHead used
  /-- Each message of the array is in one of the lists, once. -/
  parts : (free ++ used).Perm (messages bufs)
  /-- `used_tail` is the last used message, if there is one. -/
  tail : used ≠ [] → c.usedTail = used.getLast?

/-- No message is leaked, no datagram lost or out of order, and no client forgotten. -/
structure Served (bufs : ℕ) (s : State) : Prop where
  /-- The lists have all messages; what polls returned, followed by what is in the used list, is
  what was accepted; and a datagram would be dropped only if all messages are used. -/
  lists : ∃ free used, Lists bufs s.client free used ∧
    s.returned ++ used.map s.client.replyOf = s.accepted.map Datagram.reply ∧
    ∀ d, (s.udprecv d).accepted = s.accepted → used.length = bufs
  /-- A client that waits while there is something for it is signalled. -/
  signalled : s.client.usedHead ≠ none → s.waiter = .waiting → s.signalled = true

/-! ## The messages and their links -/

/-- What `udprecv` puts into a message. -/
abbrev Datagram.message (d : Datagram) : UdpMessage :=
  { pbuf := some d.pbuf, addr := d.addr, port := d.port, next := none }

section

variable {bufs : ℕ} {c : UdpClient} {free used : List ℤ} {m i : ℤ} {p : Option ℤ}
  {message : UdpMessage}

@[simp] theorem next_store (c : UdpClient) (m : ℤ) (message : UdpMessage) :
    (c.store m message).next = Function.update c.next m message.next := by
  funext i
  by_cases hi : i = m
  · subst hi
    simp [UdpClient.next, UdpClient.store]
  · simp [UdpClient.next, UdpClient.store, hi]

@[simp] theorem next_setNext (c : UdpClient) (m : ℤ) (p : Option ℤ) :
    (c.setNext m p).next = Function.update c.next m p :=
  next_store c m _

/-- Links do not matter to what a message holds. -/
@[simp] theorem replyOf_setNext (c : UdpClient) (m : ℤ) (p : Option ℤ) :
    (c.setNext m p).replyOf = c.replyOf := by
  funext i
  by_cases hi : i = m
  · subst hi
    simp [UdpClient.replyOf, UdpClient.setNext, UdpClient.store]
  · simp [UdpClient.replyOf, UdpClient.setNext, UdpClient.store, hi]

theorem replyOf_store_of_ne (hi : i ≠ m) : (c.store m message).replyOf i = c.replyOf i := by
  simp [UdpClient.replyOf, UdpClient.store, hi]

theorem nodup_messages (bufs : ℕ) : (messages bufs).Nodup :=
  List.Nodup.map (fun _ _ h ↦ Int.ofNat.inj h) List.nodup_range

theorem Lists.nodup (h : Lists bufs c free used) : (free ++ used).Nodup :=
  h.parts.nodup_iff.2 (nodup_messages bufs)

/-- When no message is free, all are used. -/
theorem Lists.length_used (h : Lists bufs c [] used) : used.length = bufs := by
  have hlen := h.parts.length_eq
  simpa [messages] using hlen

/-! ## Initialisation -/

theorem initMemory_apply (bufs : ℕ) (mem : ℤ → UdpMessage) {j : ℕ} (hj : j < bufs) :
    (List.range bufs).foldl initMessage mem j =
      { next := if j = 0 then none else some (j - 1 : ℤ) } := by
  induction bufs with
  | zero => exact absurd hj (Nat.not_lt_zero j)
  | succ bufs ih =>
    rw [List.range_succ, List.foldl_append, List.foldl_cons, List.foldl_nil, initMessage]
    rcases Nat.lt_succ_iff_lt_or_eq.1 hj with hlt | rfl
    · have hne : (j : ℤ) ≠ bufs := by omega
      rw [Function.update_of_ne hne, ih hlt]
    · rw [Function.update_self]

/-- The first messages, linked downwards. -/
theorem linked_init (mem : ℤ → UdpMessage) {n : ℕ} (hn : n ≤ bufs) :
    Linked (UdpClient.init bufs mem).next (if n = 0 then none else some (n - 1 : ℤ))
      (messages n).reverse := by
  induction n with
  | zero => exact Linked.nil
  | succ n ih =>
    rw [messages, List.range_succ, List.map_append, List.reverse_append]
    refine ⟨by simp, ?_⟩
    have hnext : (UdpClient.init bufs mem).next n = if n = 0 then none else some (n - 1 : ℤ) := by
      change ((List.range bufs).foldl initMessage mem n).next = _
      rw [initMemory_apply bufs mem hn]
    change Linked (UdpClient.init bufs mem).next ((UdpClient.init bufs mem).next n) _
    rw [hnext]
    exact ih (Nat.le_of_succ_le hn)

/-- **With a message at least, all messages are free at first.** -/
theorem lists_init (hbufs : 0 < bufs) (mem : ℤ → UdpMessage) :
    Lists bufs (.init bufs mem) (messages bufs).reverse [] := by
  refine ⟨?_, Linked.nil, ?_, fun h ↦ absurd rfl h⟩
  · have hlinked := linked_init mem (Nat.le_refl bufs)
    rwa [if_neg (Nat.ne_of_gt hbufs)] at hlinked
  · rw [List.append_nil]
    exact List.reverse_perm _

/-! ## Copying -/

theorem map_memcpy (buf : ℕ → Byte) (offset : ℕ) (bytes : List Byte) :
    (List.range (offset + bytes.length)).map (memcpy buf offset bytes) =
      (List.range offset).map buf ++ bytes := by
  refine List.ext_getElem (by simp) fun k hk hk' ↦ ?_
  rw [List.getElem_map, List.getElem_range, memcpy]
  split
  · rename_i hle
    have hlt : k - offset < bytes.length := by
      simp only [List.length_map, List.length_range] at hk
      omega
    rw [List.getElem_append_right (by simpa using hle)]
    simp [List.getD_eq_getElem?_getD, List.getElem?_eq_getElem hlt]
  · rename_i hlt
    rw [List.getElem_append_left (by simpa using Nat.lt_of_not_le hlt)]
    simp

/-- **The chain ends up in the buffer**, behind what was there. -/
theorem map_copyChain (buf : ℕ → Byte) (packetLen : ℕ) (chain : List (List Byte)) :
    (List.range (copyChain buf packetLen chain).2).map (copyChain buf packetLen chain).1 =
      (List.range packetLen).map buf ++ chain.flatten := by
  induction chain generalizing buf packetLen with
  | nil => simp [copyChain]
  | cons q chain ih =>
    rw [copyChain, ih, map_memcpy, List.flatten_cons, List.append_assoc]

/-! ## One datagram in, one datagram out -/

theorem udprecv_none {s : State} (h : s.client.freeHead = none) (d : Datagram) :
    s.udprecv d = s := by
  rw [State.udprecv, h]

theorem udprecv_some {s : State} (h : s.client.freeHead = some m) (d : Datagram) :
    s.udprecv d = { s with
      client := s.client.enqueue m d
      signalled := s.signalled || s.client.needSignal
      accepted := s.accepted ++ [d] } := by
  rw [State.udprecv, h]

theorem enqueue_of_none (hhead : c.usedHead = none) (m : ℤ) (d : Datagram) :
    c.enqueue m d = { c.store m d.message with
      freeHead := c.next m
      needSignal := false
      usedHead := some m
      usedTail := some m } := by
  simp only [UdpClient.enqueue, UdpClient.store, hhead]

theorem enqueue_of_some {first last : ℤ} (hhead : c.usedHead = some first)
    (htail : c.usedTail = some last) (m : ℤ) (d : Datagram) :
    c.enqueue m d = { (c.store m d.message).setNext last (some m) with
      freeHead := c.next m
      needSignal := false
      usedTail := some m } := by
  simp only [UdpClient.enqueue, UdpClient.setNext, UdpClient.store, hhead, htail]

theorem replyOf_store_self (c : UdpClient) (m : ℤ) (d : Datagram) :
    (c.store m d.message).replyOf m = d.reply := by
  simp [UdpClient.replyOf, UdpClient.store, Datagram.reply]

/-- The first free message is in the list of free messages once, and not in the other. -/
theorem Lists.head_free (h : Lists bufs c (m :: free) used) :
    m ∉ free ∧ m ∉ used ∧ (free ++ used).Nodup := by
  have hnodup := h.nodup
  rw [List.cons_append, List.nodup_cons, List.mem_append, not_or] at hnodup
  exact ⟨hnodup.1.1, hnodup.1.2, hnodup.2⟩

/-- A message that is used has nothing behind it, and is the last. -/
theorem Lists.parts_enqueue (h : Lists bufs c (m :: free) used) :
    (free ++ (used ++ [m])).Perm (messages bufs) := by
  rw [← List.append_assoc]
  exact (List.perm_append_singleton m _).trans h.parts

/-- **The first datagram** makes up the used list. -/
theorem Lists.enqueue_nil (h : Lists bufs c (m :: free) []) (d : Datagram) :
    Lists bufs (c.enqueue m d) free [m] ∧ (c.enqueue m d).needSignal = false ∧
      (c.enqueue m d).usedHead ≠ none ∧ (c.enqueue m d).replyOf m = d.reply := by
  obtain ⟨hmfree, -, -⟩ := h.head_free
  rw [enqueue_of_none h.linkedUsed]
  refine ⟨⟨?_, ⟨rfl, ?_⟩, h.parts_enqueue, fun _ ↦ rfl⟩, rfl, nofun, replyOf_store_self c m d⟩
  · change Linked (c.store m d.message).next (c.next m) free
    rw [next_store]
    exact h.linkedFree.2.update hmfree
  · change (c.store m d.message).next m = none
    rw [next_store, Function.update_self]

/-- **Any other datagram** goes behind the last one. -/
theorem Lists.enqueue_concat {front : List ℤ} {last : ℤ}
    (h : Lists bufs c (m :: free) (front ++ [last])) (d : Datagram) :
    Lists bufs (c.enqueue m d) free (front ++ [last] ++ [m]) ∧
      (c.enqueue m d).needSignal = false ∧ (c.enqueue m d).usedHead ≠ none ∧
      (c.enqueue m d).replyOf = (c.store m d.message).replyOf := by
  obtain ⟨hmfree, hmused, hrest⟩ := h.head_free
  have htail : c.usedTail = some last := by simpa using h.tail (by simp)
  obtain ⟨first, hfirst⟩ := Option.ne_none_iff_exists'.1
    fun hnone ↦ absurd (h.linkedUsed.eq_nil_iff.1 hnone) (by simp)
  have hlast : last ∉ free := fun hmem ↦
    (List.nodup_append.1 hrest).2.2 last hmem last (by simp) rfl
  have hnext : (c.store m d.message).next = Function.update c.next m none := next_store c m _
  rw [enqueue_of_some hfirst htail]
  refine ⟨⟨?_, ?_, h.parts_enqueue, fun _ ↦ by simp⟩, rfl, ?_, replyOf_setNext _ _ _⟩
  · change Linked ((c.store m d.message).setNext last (some m)).next (c.next m) free
    rw [next_setNext, hnext]
    exact (h.linkedFree.2.update hmfree).update hlast
  · change Linked ((c.store m d.message).setNext last (some m)).next c.usedHead _
    rw [next_setNext, hnext]
    exact (h.linkedUsed.update hmused).snoc (List.nodup_append.1 hrest).2.1 hmused
      (Function.update_self ..)
  · change c.usedHead ≠ none
    rw [hfirst]
    exact nofun

/-- **A datagram goes from the free list to the end of the used list.** -/
theorem Lists.enqueue (h : Lists bufs c (m :: free) used) (d : Datagram) :
    Lists bufs (c.enqueue m d) free (used ++ [m]) ∧ (c.enqueue m d).needSignal = false ∧
      (c.enqueue m d).usedHead ≠ none ∧
      (used ++ [m]).map (c.enqueue m d).replyOf = used.map c.replyOf ++ [d.reply] := by
  rcases List.eq_nil_or_concat used with rfl | ⟨front, last, rfl⟩
  · obtain ⟨hlists, hsignal, hhead, hreply⟩ := h.enqueue_nil d
    exact ⟨hlists, hsignal, hhead, congrArg (fun reply ↦ [reply]) hreply⟩
  · rw [List.concat_eq_append] at *
    obtain ⟨hlists, hsignal, hhead, hreply⟩ := h.enqueue_concat d
    obtain ⟨-, hmused, -⟩ := h.head_free
    have hothers : (front ++ [last]).map (c.store m d.message).replyOf =
        (front ++ [last]).map c.replyOf := by
      refine List.map_congr_left fun i hi ↦ replyOf_store_of_ne ?_
      rintro rfl
      exact hmused hi
    refine ⟨hlists, hsignal, hhead, ?_⟩
    rw [hreply, List.map_append, hothers, List.map_singleton, replyOf_store_self]

theorem poll_none {s : State} (h : s.client.usedHead = none) : s.poll =
    { s with client := { s.client with needSignal := true }, waiter := .waiting } := by
  rw [State.poll, h]

/-- **What a poll does** with the first used message. -/
theorem poll_some {s : State} (h : s.client.usedHead = some m) :
    let len := (s.client.replyOf m).bytes.length
    s.poll = { s with
      client := s.client.dequeue m
      buf := (copyChain s.buf 0 ((s.client.messageMemory m).pbuf.getD [])).1
      overrun := s.overrun || decide (4096 < len)
      returned := s.returned ++ if len < 4096 then [s.client.replyOf m] else []
      waiter := afterPoll len (if (s.client.dequeue m).usedHead.isSome then 0 else 1) } := by
  have hbytes := map_copyChain s.buf 0 ((s.client.messageMemory m).pbuf.getD [])
  rw [List.range_zero, List.map_nil, List.nil_append] at hbytes
  have hlen : (copyChain s.buf 0 ((s.client.messageMemory m).pbuf.getD [])).2 =
      ((s.client.messageMemory m).pbuf.getD []).flatten.length := by
    rw [← hbytes, List.length_map, List.length_range]
  rw [State.poll, h]
  dsimp only
  rw [hbytes, hlen]
  rfl

/-- A poll returns a datagram below the limit. -/
theorem returned_poll_of_lt {s : State} (h : s.client.usedHead = some m)
    (hlt : (s.client.replyOf m).bytes.length < 4096) :
    s.poll.returned = s.returned ++ [s.client.replyOf m] := by
  rw [poll_some h]
  exact congrArg (s.returned ++ ·) (if_pos hlt)

/-- A poll returns nothing if the datagram is not below the limit. -/
theorem returned_poll_of_le {s : State} (h : s.client.usedHead = some m)
    (hle : 4096 ≤ (s.client.replyOf m).bytes.length) : s.poll.returned = s.returned := by
  rw [poll_some h]
  exact (congrArg (s.returned ++ ·) (if_neg (Nat.not_lt.2 hle))).trans (List.append_nil _)

/-- A client waits only if it was told that there is nothing more. -/
theorem usedHead_of_waiting {len : ℕ} {head : Option ℤ}
    (h : afterPoll len (if head.isSome then 0 else 1) = .waiting) : head = none := by
  cases head with
  | none => rfl
  | some i =>
    simp only [afterPoll, Option.isSome_some, if_true] at h
    split at h <;> exact nomatch h

/-- **A poll moves the first used message back to the free list.** -/
theorem Lists.dequeue (h : Lists bufs c free (m :: used)) :
    Lists bufs (c.dequeue m) (m :: free) used ∧
      ((c.dequeue m).usedHead = none → (c.dequeue m).needSignal = true) ∧
      used.map (c.dequeue m).replyOf = used.map c.replyOf := by
  have hnodup := h.nodup
  have hmiddle : (m :: (free ++ used)).Nodup := List.perm_middle.nodup_iff.1 hnodup
  obtain ⟨hm, -⟩ := List.nodup_cons.1 hmiddle
  rw [List.mem_append, not_or] at hm
  have hnext : (c.dequeue m).next = Function.update c.next m c.freeHead := next_setNext _ m _
  refine ⟨⟨?_, ?_, List.perm_middle.symm.trans h.parts, fun hne ↦ ?_⟩, fun hnone ↦ ?_, ?_⟩
  · rw [hnext]
    exact h.linkedFree.push hm.1
  · rw [hnext]
    exact h.linkedUsed.2.update hm.2
  · obtain ⟨i, used, rfl⟩ := List.exists_cons_of_ne_nil hne
    change c.usedTail = _
    simpa using h.tail (by simp)
  · have hnone' : c.next m = none := hnone
    change (c.needSignal || (c.next m).isNone) = true
    rw [hnone']
    simp
  · have hreply : (c.dequeue m).replyOf = c.replyOf := replyOf_setNext _ m _
    rw [hreply]

/-! ## Every run -/

/-- The invariant: the lists have all messages, in order; and a client that waits and is not
signalled has nothing to wait for, and will be signalled when it has. -/
structure Inv (bufs : ℕ) (s : State) : Prop where
  /-- The lists, which are in order as long as all datagrams are below the limit. -/
  lists : ∃ free used, Lists bufs s.client free used ∧
    ((∀ d ∈ s.accepted, d.pbuf.flatten.length < 4096) →
      s.returned ++ used.map s.client.replyOf = s.accepted.map Datagram.reply)
  /-- The handshake. -/
  quiet : s.waiter = .waiting → s.signalled = false →
    s.client.needSignal = true ∧ s.client.usedHead = none

/-- The first used message holds a datagram that was accepted. -/
theorem Inv.replyOf_mem {s : State} (h : Inv bufs s)
    (hshort : ∀ d ∈ s.accepted, d.pbuf.flatten.length < 4096)
    (hm : s.client.usedHead = some m) :
    s.client.replyOf m ∈ s.accepted.map Datagram.reply := by
  obtain ⟨free, used, hlists, horder⟩ := h.lists
  rw [← horder hshort]
  cases used with
  | nil => exact absurd (hm.symm.trans hlists.linkedUsed) nofun
  | cons first used =>
    have hfirst : m = first := Option.some.inj (hm.symm.trans hlists.linkedUsed.1)
    rw [hfirst]
    exact List.mem_append_right _ List.mem_cons_self

/-- So it is below the limit, if all of those are. -/
theorem Inv.replyOf_lt {s : State} (h : Inv bufs s)
    (hshort : ∀ d ∈ s.accepted, d.pbuf.flatten.length < 4096)
    (hm : s.client.usedHead = some m) : (s.client.replyOf m).bytes.length < 4096 := by
  obtain ⟨d, hd, hreply⟩ := List.mem_map.1 (h.replyOf_mem hshort hm)
  rw [← hreply]
  exact hshort d hd

theorem inv_udprecv {s : State} (h : Inv bufs s) (d : Datagram) : Inv bufs (s.udprecv d) := by
  obtain ⟨free, used, hlists, horder⟩ := h.lists
  cases free with
  | nil =>
    rw [udprecv_none hlists.linkedFree]
    exact h
  | cons m free =>
    rw [udprecv_some hlists.linkedFree.1]
    obtain ⟨hlists', hsignal, hhead, hreply⟩ := hlists.enqueue d
    refine ⟨⟨free, used ++ [m], hlists', fun hshort ↦ ?_⟩, fun hwait hnot ↦ ?_⟩
    · have horder' := horder fun d' hd' ↦ hshort d' (List.mem_append_left _ hd')
      change s.returned ++ (used ++ [m]).map (s.client.enqueue m d).replyOf =
        (s.accepted ++ [d]).map Datagram.reply
      rw [hreply, ← List.append_assoc, horder', List.map_append, List.map_singleton]
    · -- a client that waits would have been signalled
      obtain ⟨hsignalled, hneed⟩ := Bool.or_eq_false_iff.1 hnot
      exact absurd (hneed.symm.trans (h.quiet hwait hsignalled).1) nofun

theorem inv_poll {s : State} (h : Inv bufs s) : Inv bufs s.poll := by
  obtain ⟨free, used, hlists, horder⟩ := h.lists
  cases used with
  | nil =>
    rw [poll_none hlists.linkedUsed]
    exact ⟨⟨free, [], ⟨hlists.linkedFree, hlists.linkedUsed, hlists.parts, hlists.tail⟩, horder⟩,
      fun _ _ ↦ ⟨rfl, hlists.linkedUsed⟩⟩
  | cons m used =>
    obtain ⟨hlists', hsignal, hreply⟩ := hlists.dequeue
    have hhead : s.client.usedHead = some m := hlists.linkedUsed.1
    have hpoll := poll_some hhead
    refine ⟨⟨m :: free, used, ?_, fun hshort ↦ ?_⟩, fun hwait _ ↦ ?_⟩
    · rw [hpoll]
      exact hlists'
    · have hshort' : ∀ d ∈ s.accepted, d.pbuf.flatten.length < 4096 := by
        rw [hpoll] at hshort
        exact hshort
      rw [returned_poll_of_lt hhead (h.replyOf_lt hshort' hhead), hpoll]
      change s.returned ++ [s.client.replyOf m] ++ used.map (s.client.dequeue m).replyOf =
        s.accepted.map Datagram.reply
      rw [hreply, List.append_assoc, ← horder hshort']
      rfl
    · rw [hpoll] at hwait ⊢
      have hnone := usedHead_of_waiting hwait
      exact ⟨hsignal hnone, hnone⟩

theorem inv_next {s : State} (h : Inv bufs s) (a : Event) : Inv bufs (next s a) := by
  cases a with
  | udprecv d => exact inv_udprecv h d
  | wake => exact ⟨h.lists, nofun⟩
  | poll => exact inv_poll h

/-- What the invariant says. -/
theorem Inv.served {s : State} (h : Inv bufs s)
    (hshort : ∀ d ∈ s.accepted, d.pbuf.flatten.length < 4096) : Served bufs s := by
  obtain ⟨free, used, hlists, horder⟩ := h.lists
  refine ⟨⟨free, used, hlists, horder hshort, fun d hdropped ↦ ?_⟩, fun hhead hwait ↦ ?_⟩
  · cases free with
    | nil => exact hlists.length_used
    | cons m free =>
      rw [udprecv_some hlists.linkedFree.1] at hdropped
      simp at hdropped
  · by_contra hnot
    exact hhead (h.quiet hwait (by simpa using hnot)).2

theorem inv_initial (hbufs : 0 < bufs) (mem : ℤ → UdpMessage) (buf : ℕ → Byte) :
    Inv bufs (.initial bufs mem buf) :=
  ⟨⟨_, [], lists_init hbufs mem, fun _ ↦ rfl⟩, fun _ _ ↦ ⟨rfl, rfl⟩⟩

/-- **In every run** of a server with a message at least, that accepts datagrams below the limit
only, the two lists have all messages, polls return the datagrams in order, and no client waits for
what is there. -/
theorem run_served (hbufs : 0 < bufs) (mem : ℤ → UdpMessage) (buf : ℕ → Byte) {as : List Event}
    {s : State} (h : Run (Does Enabled next) (.initial bufs mem buf) as s)
    (hshort : ∀ d ∈ s.accepted, d.pbuf.flatten.length < 4096) : Served bufs s := by
  refine Inv.served (h.invariant (I := Inv bufs) (inv_initial hbufs mem buf) ?_) hshort
  rintro s a _ hinv ⟨-, rfl⟩
  exact inv_next hinv a

end

/-- With two messages.  Two datagrams are accepted and a third is dropped; the client is notified
and polls; while it does another datagram arrives; when it waits again there is one more. -/
def fiveArrivals : List Event :=
  [.udprecv ⟨[[7]], 1, 9⟩, .udprecv ⟨[[8], [9]], 2, 9⟩, .udprecv ⟨[[10]], 3, 9⟩, .wake, .poll,
    .udprecv ⟨[[11]], 4, 9⟩, .poll, .poll, .udprecv ⟨[[12]], 5, 9⟩]

/-- The state after that. -/
def afterFiveArrivals : State :=
  fiveArrivals.foldl next (.initial 2 (fun _ ↦ {}) fun _ ↦ 0)

theorem fiveArrivals_run : Run (Does Enabled next) (.initial 2 (fun _ ↦ {}) fun _ ↦ 0) fiveArrivals
    afterFiveArrivals := run_foldl (by decide)

theorem fiveArrivals_short :
    ∀ d ∈ afterFiveArrivals.accepted, d.pbuf.flatten.length < 4096 := by decide

theorem run_served_fiveArrivals : Served 2 afterFiveArrivals ∧
    afterFiveArrivals.returned = [⟨[7], 9, 1⟩, ⟨[8, 9], 9, 2⟩, ⟨[11], 9, 4⟩] ∧
    afterFiveArrivals.signalled = true :=
  ⟨run_served (by decide) _ _ fiveArrivals_run fiveArrivals_short, by decide, rfl⟩

/-- A datagram that fills the buffer. -/
def bufferful : Datagram := ⟨[List.replicate 4096 0], 1, 9⟩

theorem length_bufferful : bufferful.pbuf.flatten.length = 4096 := by
  rw [bufferful, List.flatten_singleton, List.length_replicate]

/-- **Two ways to lose.**  Without messages the free list begins outside the array; and a datagram
that fills the buffer is taken from the list but returned by no poll. -/
theorem not_served :
    (¬ ∀ (mem : ℤ → UdpMessage) (buf : ℕ → Byte) (as : List Event) (s : State),
      Run (Does Enabled next) (.initial 0 mem buf) as s → Served 0 s) ∧
    ¬ ∀ (mem : ℤ → UdpMessage) (buf : ℕ → Byte) (as : List Event) (s : State),
      Run (Does Enabled next) (.initial 1 mem buf) as s → Served 1 s := by
  constructor
  · intro h
    obtain ⟨free, used, hlists, -, -⟩ := (h (fun _ ↦ {}) (fun _ ↦ 0) [] _ .nil).lists
    obtain ⟨free', rfl, -⟩ := Linked.exists_cons hlists.linkedFree
    exact List.cons_ne_nil _ _ (List.perm_nil.1 hlists.parts)
  · intro h
    let s : State := (State.initial 1 (fun _ ↦ {}) fun _ ↦ 0).udprecv bufferful
    let polling : State := { s with signalled := false, waiter := .polling }
    have hrun : Run (Does Enabled next) (.initial 1 (fun _ ↦ {}) fun _ ↦ 0)
        [.udprecv bufferful, .wake, .poll] polling.poll :=
      run_foldl ⟨rfl, ⟨rfl, rfl⟩, rfl, trivial⟩
    have hhead : polling.client.usedHead = some 0 := rfl
    have hreturned : polling.poll.returned = [] :=
      returned_poll_of_le hhead (Nat.le_of_eq length_bufferful.symm)
    have hused : polling.poll.client.usedHead = none := by
      rw [poll_some hhead]
      rfl
    have haccepted : polling.poll.accepted = [bufferful] := by
      rw [poll_some hhead]
      rfl
    obtain ⟨free, used, hlists, horder, -⟩ := (h _ _ _ _ hrun).lists
    obtain rfl := hlists.linkedUsed.eq_nil_iff.1 hused
    rw [hreturned, haccepted] at horder
    exact nomatch horder

end Udp
end CamkesVm
