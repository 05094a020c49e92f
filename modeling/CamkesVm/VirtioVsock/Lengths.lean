import CamkesVm.VirtioVsock.Forward

/-!
# Lengths that the peer chooses

Two VMMs take what other VMMs send them through a buffer of their own: the vsock backend through
`temp_buf`, and the network backend of an Arm VMM through `emul_buf`.  Their loops differ in little.
`temp_buf` keeps what the last packet left in it and `emul_buf` is cleared for each frame; and
`virtio_net_rx` drops a frame that the guest has no buffer for.

How long an entry of the queue is depends on the descriptors that the peer wrote.  Both loops ask
for the length and pass it on to `camkes_virtqueue_device_gather_copy_buffer`, and neither compares
it with the size of its buffer.  `run_bounded_iff` says what the peer must refrain from.

## What is here

* `Chain`, `Taken`, `PeerState` — an entry as the peer made it, what became of it, and the receiving
  end of a connection.
* `PeerState.recv` — the turn that both loops have in common, and `virtioVsockNotifyRecv` and
  `virtioNetNotifyRecv` as its two instances.
* `Backend`, `PeerLabel`, `Backend.next` — the system, for either backend.
* `Bounded`, `Short` — no overrun, no delivery of what is too long, and delivery of the rest; and
  the condition on an entry.
* `bounded_recv_iff`, `run_bounded_iff`, `not_bounded_overlong` — one turn, runs, and an entry that
  is one byte too long.

A buffer is a function from offsets here, so that a copy beyond its end has somewhere to go and can
be seen.
-/

set_option autoImplicit false

namespace CamkesVm
namespace VirtioVsock

open Transition Virtqueue

/-! ## The loops -/

/-- An entry of a receive queue. -/
structure Chain where
  /-- The bytes that its descriptors have. -/
  data : List Byte
  /-- If `camkes_virtqueue_device_gather_copy_buffer` fails on it: how many bytes it has copied by
  then. -/
  fails : Option ℕ
  /-- It copies no more than there is. -/
  fails_le : ∀ copied ∈ fails, copied ≤ data.length
  deriving DecidableEq

/-- An entry that has been taken. -/
structure Taken where
  /-- The entry. -/
  chain : Chain
  /-- How many bytes of it have been copied. -/
  copied : ℕ
  /-- The guest has a buffer for it. -/
  allocated : Bool
  deriving DecidableEq

/-- A receive queue, and what has become of its entries. -/
structure PeerState where
  /-- `recv_queue` -/
  recvQueue : Queue Chain
  /-- `temp_buf` or `emul_buf` -/
  buf : ℕ → Byte
  /-- The entries that the peer has placed. -/
  placed : List Chain
  /-- The entries that have been taken from the queue. -/
  taken : List Taken
  /-- What has been handed to `rx_complete`. -/
  delivered : List (List Byte)
  /-- How often `notify` has been called. -/
  notified : ℕ

/-- An empty queue with `size` descriptors. -/
def PeerState.initial (size : ℕ) (buf : ℕ → Byte) : PeerState := ⟨.empty size, buf, [], [], [], 0⟩

/-- A turn of a loop that gathers an entry into `buf`, where the guest has a buffer for it or has
not. -/
def PeerState.recv (s : PeerState) (buf : ℕ → Byte) (allocated : Bool) : PeerState :=
  match s.recvQueue.getAvailable with
  | none => s
  | some (entry, queue) =>
    let len := entry.data.data.length
    let s := { s with recvQueue := queue.addUsed entry }
    match entry.data.fails with
    | some copied => { s with
        buf := memcpy buf (entry.data.data.take copied)
        taken := s.taken ++ [⟨entry.data, copied, allocated⟩] }
    | none =>
      let buf := memcpy buf entry.data.data
      { s with
        buf := buf
        taken := s.taken ++ [⟨entry.data, len, allocated⟩]
        delivered := s.delivered ++ (if allocated then [(List.range len).map buf] else [])
        notified := s.notified + 1 }

/-- A turn of the loop of `virtio_vsock_notify_recv`.  `temp_buf` is static, and `rx_complete` is
called in any case. -/
def virtioVsockNotifyRecv (s : PeerState) : PeerState := s.recv s.buf true

/-- A turn of the loop of `virtio_net_notify_recv`.  `emul_buf` starts as zeros, and `virtio_net_rx`
calls `rx_complete` if `allocate_rx_buf` succeeds. -/
def virtioNetNotifyRecv (s : PeerState) (allocated : Bool) : PeerState :=
  s.recv (fun _ ↦ 0) allocated

/-- `MAX_MTU` of the Arm network backend. -/
abbrev maxMtu : ℕ := 1500 + 14

/-! ## The system -/

/-- The two backends. -/
inductive Backend
  /-- The vsock backend. -/
  | vsock
  /-- The network backend of an Arm VMM. -/
  | net
  deriving DecidableEq

/-- A turn of the loop. -/
def Backend.recv (s : PeerState) (allocated : Bool) : Backend → PeerState
  | .vsock => virtioVsockNotifyRecv s
  | .net => virtioNetNotifyRecv s allocated

/-- The size of the buffer, where `mtu` is `VIRTIO_VSOCK_CAMKES_MTU`. -/
def Backend.bufSize (mtu : ℕ) : Backend → ℕ
  | .vsock => mtu
  | .net => maxMtu

/-- What happens next. -/
inductive PeerLabel
  /-- The peer places an entry in the queue, over `n` descriptors. -/
  | place (n : ℕ) (chain : Chain)
  /-- The peer takes descriptors back. -/
  | reclaim
  /-- A turn of the loop; says whether the guest has a buffer. -/
  | recv (allocated : Bool)

/-- The peer has the descriptors. -/
def PeerEnabled (s : PeerState) : PeerLabel → Prop
  | .place n _ => n ≤ s.recvQueue.free
  | _ => True

/-- What happens then. -/
def Backend.next (backend : Backend) (s : PeerState) : PeerLabel → PeerState
  | .place n chain => { s with
      recvQueue := s.recvQueue.send n chain
      placed := s.placed ++ [chain] }
  | .reclaim =>
    match s.recvQueue.reclaim with
    | none => s
    | some queue => { s with recvQueue := queue }
  | .recv allocated => backend.recv s allocated

/-! ## Bounds -/

/-- An entry that is to reach the guest: it fits into a buffer of `size` bytes, it can be gathered
and the guest has a buffer for it. -/
def Taken.Deliverable (size : ℕ) (taken : Taken) : Prop :=
  taken.chain.data.length ≤ size ∧ taken.chain.fails = none ∧ taken.allocated = true

instance (size : ℕ) (taken : Taken) : Decidable (taken.Deliverable size) :=
  inferInstanceAs (Decidable (_ ∧ _ ∧ _))

/-- The buffer of `size` bytes is not overrun, an entry that is longer is dropped, and the others
are delivered. -/
structure Bounded (size : ℕ) (s : PeerState) : Prop where
  /-- No more is copied than there is room for. -/
  fits : ∀ taken ∈ s.taken, taken.copied ≤ size
  /-- Nothing is copied of an entry that is longer. -/
  dropped : ∀ taken ∈ s.taken, size < taken.chain.data.length → taken.copied = 0
  /-- Each entry is taken, or waits to be, in the order in which they were placed. -/
  inOrder : s.taken.map Taken.chain ++ s.recvQueue.messages = s.placed
  /-- Those that can be are delivered, as they were placed. -/
  delivered : s.delivered =
    (s.taken.filter fun taken ↦ taken.Deliverable size).map fun taken ↦ taken.chain.data

/-- An entry that is taken fits into the buffer, or fails to be gathered before anything is
copied. -/
def Short (size : ℕ) (s : PeerState) : PeerLabel → Prop
  | .recv _ => ∀ entry queue, s.recvQueue.getAvailable = some (entry, queue) →
      size < entry.data.data.length → entry.data.fails = some 0
  | _ => True

section

variable {size : ℕ} {s : PeerState}

/-- How much is copied of an entry. -/
def Chain.copied (chain : Chain) : ℕ := chain.fails.getD chain.data.length

theorem Chain.copied_le (chain : Chain) : chain.copied ≤ chain.data.length := by
  rw [Chain.copied]
  cases hfails : chain.fails with
  | none => exact Nat.le_refl _
  | some n => exact chain.fails_le n hfails

/-- Nothing is copied of an entry that is not empty if it fails at once. -/
theorem Chain.copied_eq_zero_iff {chain : Chain} (hpos : 0 < chain.data.length) :
    chain.copied = 0 ↔ chain.fails = some 0 := by
  rw [Chain.copied]
  cases hfails : chain.fails with
  | none => exact iff_of_false (by simpa using hpos.ne') nofun
  | some n => simp

theorem peerRecv_none (hget : s.recvQueue.getAvailable = none) {buf : ℕ → Byte} {allocated : Bool} :
    s.recv buf allocated = s := by
  rw [PeerState.recv, hget]

/-- **What a turn does**, if there is an entry: it is logged, with what of it has been copied, and
if it can be gathered it is handed to the guest. -/
theorem peerRecv_some {entry : Entry Chain} {queue : Queue Chain}
    (hget : s.recvQueue.getAvailable = some (entry, queue)) (buf : ℕ → Byte) (allocated : Bool) :
    (s.recv buf allocated).recvQueue = queue.addUsed entry ∧
      (s.recv buf allocated).placed = s.placed ∧
      (s.recv buf allocated).taken = s.taken ++ [⟨entry.data, entry.data.copied, allocated⟩] ∧
      (s.recv buf allocated).delivered = s.delivered ++
        (if entry.data.fails = none ∧ allocated = true then [entry.data.data] else []) := by
  rw [PeerState.recv, hget, Chain.copied]
  dsimp only
  split
  · rename_i copied hfails
    exact ⟨rfl, rfl, by simp [hfails], by simp [hfails]⟩
  · rename_i hfails
    exact ⟨rfl, rfl, by simp [hfails], by simp [hfails, map_memcpy]⟩

theorem short_recv_iff {entry : Entry Chain} {queue : Queue Chain} {allocated : Bool}
    (hget : s.recvQueue.getAvailable = some (entry, queue)) :
    Short size s (.recv allocated) ↔
      (size < entry.data.data.length → entry.data.fails = some 0) := by
  refine ⟨fun h ↦ h entry queue hget, fun h entry' queue' hget' ↦ ?_⟩
  obtain ⟨rfl, rfl⟩ := Prod.mk.inj (Option.some.inj (hget.symm.trans hget'))
  exact h

/-- **A turn that takes an entry keeps the bounds**, if the entry fits or nothing of it is
copied. -/
theorem bounded_recv (hs : Bounded size s) {entry : Entry Chain} {queue : Queue Chain}
    {buf : ℕ → Byte} {allocated : Bool}
    (hget : s.recvQueue.getAvailable = some (entry, queue))
    (hshort : size < entry.data.data.length → entry.data.fails = some 0) :
    Bounded size (s.recv buf allocated) := by
  obtain ⟨hqueue, hplaced, htaken, hdelivered⟩ := peerRecv_some hget buf allocated
  have hlong : size < entry.data.data.length → entry.data.copied = 0 := fun hlt ↦
    (Chain.copied_eq_zero_iff (by omega)).2 (hshort hlt)
  constructor
  · intro taken hmem
    rw [htaken, List.mem_append, List.mem_singleton] at hmem
    rcases hmem with hold | rfl
    · exact hs.fits taken hold
    · have hle := entry.data.copied_le
      change entry.data.copied ≤ size
      by_cases hlt : size < entry.data.data.length
      · rw [hlong hlt]
        exact Nat.zero_le size
      · omega
  · intro taken hmem
    rw [htaken, List.mem_append, List.mem_singleton] at hmem
    rcases hmem with hold | rfl
    · exact hs.dropped taken hold
    · exact hlong
  · rw [htaken, hqueue, hplaced, ← hs.inOrder, messages_getAvailable hget, messages_addUsed,
      List.map_append, List.append_assoc]
    rfl
  · rw [hdelivered, htaken, hs.delivered, List.filter_append, List.map_append]
    refine congrArg _ ?_
    by_cases hdeliverable : entry.data.fails = none ∧ allocated = true
    · have hfit : ¬ size < entry.data.data.length := fun hlt ↦
        nomatch hdeliverable.1.symm.trans (hshort hlt)
      have htrue : Taken.Deliverable size ⟨entry.data, entry.data.copied, allocated⟩ :=
        ⟨Nat.le_of_not_lt hfit, hdeliverable⟩
      rw [if_pos hdeliverable, List.filter_singleton, decide_eq_true htrue]
      rfl
    · have hfalse : ¬ Taken.Deliverable size ⟨entry.data, entry.data.copied, allocated⟩ :=
        fun h ↦ hdeliverable h.2
      rw [if_neg hdeliverable, List.filter_singleton, decide_eq_false hfalse]
      rfl

/-- **When a turn keeps the bounds.** -/
theorem bounded_recv_iff (hs : Bounded size s) (buf : ℕ → Byte) (allocated : Bool) :
    Short size s (.recv allocated) ↔ Bounded size (s.recv buf allocated) := by
  cases hget : s.recvQueue.getAvailable with
  | none =>
    rw [peerRecv_none hget]
    exact iff_of_true (fun _ _ h ↦ nomatch hget.symm.trans h) hs
  | some taken =>
    obtain ⟨entry, queue⟩ := taken
    rw [short_recv_iff hget]
    refine ⟨bounded_recv hs hget, fun h hlt ↦ ?_⟩
    obtain ⟨-, -, htaken, -⟩ := peerRecv_some hget buf allocated
    rw [← Chain.copied_eq_zero_iff (by omega)]
    refine h.dropped ⟨entry.data, entry.data.copied, allocated⟩ ?_ hlt
    rw [htaken]
    exact List.mem_append_right _ List.mem_cons_self

theorem bounded_place (hs : Bounded size s) (backend : Backend) (n : ℕ) (chain : Chain) :
    Bounded size (backend.next s (.place n chain)) where
  fits := hs.fits
  dropped := hs.dropped
  inOrder := by
    change _ ++ (s.recvQueue.send n chain).messages = s.placed ++ [chain]
    rw [messages_send, ← List.append_assoc]
    exact congrArg (fun chains ↦ chains ++ [chain]) hs.inOrder
  delivered := hs.delivered

theorem bounded_reclaim (hs : Bounded size s) (backend : Backend) :
    Bounded size (backend.next s .reclaim) := by
  rw [Backend.next]
  split
  · exact hs
  · rename_i queue hreclaim
    exact ⟨hs.fits, hs.dropped, by rw [messages_reclaim hreclaim, hs.inOrder], hs.delivered⟩

end

/-- **What a peer must not do.**  In both backends, whatever the peer places in the queue and
whenever the loop turns: no more than the buffer's size is copied into it, longer entries are
dropped without being copied, and all others are delivered in order, exactly as long as no entry is
taken that is longer than the buffer and can be gathered. -/
theorem run_bounded_iff (mtu : ℕ) (backend : Backend) (size : ℕ) (buf : ℕ → Byte)
    (as : List PeerLabel) (t : PeerState) :
    Run (Guarded (Short (backend.bufSize mtu)) (Does PeerEnabled backend.next))
        (.initial size buf) as t ↔
      Run (Guarded (fun s _ ↦ Bounded (backend.bufSize mtu) s) (Does PeerEnabled backend.next))
          (.initial size buf) as t ∧ Bounded (backend.bufSize mtu) t := by
  refine Run.guarded_iff (I := Bounded (backend.bufSize mtu)) ⟨nofun, nofun, rfl, rfl⟩ ?_
  rintro s a _ hs ⟨-, rfl⟩
  cases a with
  | place n chain => exact iff_of_true trivial (bounded_place hs backend n chain)
  | reclaim => exact iff_of_true trivial (bounded_reclaim hs backend)
  | recv allocated =>
    cases backend with
    | vsock => exact bounded_recv_iff hs s.buf true
    | net => exact bounded_recv_iff hs (fun _ ↦ 0) allocated

/-- An entry of `n` zeros. -/
def zeros (n : ℕ) : Chain := ⟨List.replicate n 0, none, nofun⟩

/-- **A frame of one byte too many** is copied into `emul_buf` all the same. -/
theorem not_bounded_overlong :
    ¬ ∀ (mtu : ℕ) (backend : Backend) (size : ℕ) (buf : ℕ → Byte) (as : List PeerLabel)
      (t : PeerState), Run (Does PeerEnabled backend.next) (.initial size buf) as t →
        Bounded (backend.bufSize mtu) t := by
  intro h
  have hbounded := h 1500 .net 1 (fun _ ↦ 0) [.place 1 (zeros (maxMtu + 1)), .recv true] _
    (run_foldl ⟨Nat.le_refl 1, trivial, trivial⟩)
  have hle := hbounded.fits ⟨zeros (maxMtu + 1), (zeros (maxMtu + 1)).data.length, true⟩
    List.mem_cons_self
  rw [zeros, List.length_replicate] at hle
  exact absurd hle (by decide)

end VirtioVsock
end CamkesVm
