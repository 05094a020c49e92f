import CamkesVm.Lib.Transition
import CamkesVm.Lib.Virtqueue
import Mathlib.Data.List.Basic
import Mathlib.Logic.Function.Basic

/-!
# Forwarding socket packets

The vsock backend of a VMM has a port for each VM that its guest has socket connections with, and a
port has a send queue that leads to the VMM of that VM.  `tx_forward` looks for the port of a
destination `cid` and puts the packet into its send queue; at the other end
`virtio_vsock_notify_recv` copies each packet into `temp_buf` and hands it to the guest, and
`virtio_vsock_notify_free_send` takes the descriptors back.

The model has one sending VMM, with all its ports, and interleaves its calls of `tx_forward` with
the turns of the two loops.  `handle_vsock_irq` polls all queues of a VMM at any notification,
whichever queue it is for, so the turns may happen at any time here, and the notifications
themselves are left out.

`tx_forward` does not look at what the queue says to the packet: a packet that is rejected is gone.
`temp_buf` has room for `VIRTIO_VSOCK_CAMKES_MTU` bytes, which nobody checks; from a state in which
it has been overrun the model does not go on.  `run_forwards_iff` says what it takes to lose
nothing.

## What is here

* `State`, `Label`, `Enabled`, `next` — the queues and buffers of all ports, and one step: a call of
  `tx_forward`, or a turn of either loop at the other end.
* `findPort`, `State.txForward`, `State.recv`, `State.freeSend` — the functions of the source.
* `Reliable`, `Carried` — the law, and the condition on a step and the state before it.
* `carried_txForward_iff`, `carried_recv_iff`, `reliable_freeSend` — one lemma for each kind of
  step.
* `run_forwards_iff`, `not_reliable_full` — the runs, and a queue that is full.
-/

set_option autoImplicit false

namespace CamkesVm
namespace VirtioVsock

open Transition Virtqueue

/-- A `char` of a packet. -/
abbrev Byte := BitVec 8

/-! ## The system -/

/-- The sending VMM's queues, and what has become of its packets. -/
structure State where
  /-- `send_queue` of each port. -/
  sendQueue : ℕ → Queue (List Byte)
  /-- `temp_buf` of the VMM at the other end of each port. -/
  tempBuf : ℕ → ℕ → Byte
  /-- A packet was longer than `temp_buf`. -/
  overrun : Bool
  /-- The packets given to `tx_forward`, by destination. -/
  given : ℤ → List (List Byte)
  /-- The packets handed to `rx_complete` at the other end of each port. -/
  delivered : ℕ → List (List Byte)

/-- The queues are empty; `size` says how many descriptors they have. -/
def State.initial (size : ℕ → ℕ) (tempBuf : ℕ → ℕ → Byte) : State :=
  ⟨fun i ↦ .empty (size i), tempBuf, false, fun _ ↦ [], fun _ ↦ []⟩

/-- What happens next. -/
inductive Label
  /-- `tx_forward` is called.  The queue takes the packet, over `n` descriptors, or
  `camkes_virtqueue_driver_scatter_send_buffer` returns a negative value. -/
  | txForward (cid : ℤ) (packet : List Byte) (n : Option ℕ)
  /-- A turn of the loop of `virtio_vsock_notify_recv` at the other end of port `i`; says whether
  `camkes_virtqueue_device_gather_copy_buffer` succeeds. -/
  | recv (i : ℕ) (gathered : Bool)
  /-- A turn of the loop of `virtio_vsock_notify_free_send` for port `i`. -/
  | freeSend (i : ℕ)

/-- The search of `tx_forward`: the first port with the destination. -/
def findPort (cids : List ℤ) (cid : ℤ) : Option ℕ := cids.findIdx? fun c ↦ c = cid

/-- `tx_forward`.  The error of the queue is not looked at. -/
def State.txForward (cids : List ℤ) (s : State) (cid : ℤ) (packet : List Byte) (n : Option ℕ) :
    State :=
  let s := { s with given := Function.update s.given cid (s.given cid ++ [packet]) }
  match findPort cids cid with
  | none => s
  | some i =>
    match n with
    | none => s
    | some n => { s with
        sendQueue := Function.update s.sendQueue i ((s.sendQueue i).send n packet) }

/-- The bytes of a packet, copied to the start of a buffer. -/
def memcpy (buf : ℕ → Byte) (packet : List Byte) : ℕ → Byte := fun k ↦ packet.getD k (buf k)

/-- A turn of the loop of `virtio_vsock_notify_recv`. -/
def State.recv (mtu : ℕ) (s : State) (i : ℕ) (gathered : Bool) : State :=
  match (s.sendQueue i).getAvailable with
  | none => s
  | some (entry, queue) =>
    let len := entry.data.length
    let s := { s with sendQueue := Function.update s.sendQueue i (queue.addUsed entry) }
    if !gathered then s
    else
      let buf := memcpy (s.tempBuf i) entry.data
      { s with
        tempBuf := Function.update s.tempBuf i buf
        overrun := s.overrun || mtu < len
        delivered := Function.update s.delivered i (s.delivered i ++ [(List.range len).map buf]) }

/-- A turn of the loop of `virtio_vsock_notify_free_send`. -/
def State.freeSend (s : State) (i : ℕ) : State :=
  match (s.sendQueue i).reclaim with
  | none => s
  | some queue => { s with sendQueue := Function.update s.sendQueue i queue }

section

variable (cids : List ℤ) (mtu : ℕ)

/-- When something can happen: memory is intact, and a queue that takes a packet has the
descriptors. -/
def Enabled (s : State) (a : Label) : Prop :=
  s.overrun = false ∧
    match a with
    | .txForward cid _ n => ∀ i ∈ findPort cids cid, ∀ k ∈ n, k ≤ (s.sendQueue i).free
    | _ => True

/-- What happens then. -/
def next (s : State) : Label → State
  | .txForward cid packet n => s.txForward cids cid packet n
  | .recv i gathered => s.recv mtu i gathered
  | .freeSend i => s.freeSend i

/-! ## Reliable delivery -/

/-- For each configured destination, the packets that were delivered followed by those in the queue
are the packets given to `tx_forward`, in order; and memory is intact. -/
structure Reliable (s : State) : Prop where
  /-- No packet is lost, changed, duplicated or overtaken. -/
  packets : ∀ cid i, findPort cids cid = some i →
    s.delivered i ++ (s.sendQueue i).messages = s.given cid
  /-- `temp_buf` was long enough. -/
  intact : s.overrun = false

/-- The queue takes what `tx_forward` puts into it; the receiver can gather it, and it fits into
`temp_buf`. -/
def Carried (s : State) : Label → Prop
  | .txForward cid _ n => findPort cids cid ≠ none → n ≠ none
  | .recv i gathered => ∀ entry queue, (s.sendQueue i).getAvailable = some (entry, queue) →
      gathered = true ∧ entry.data.length ≤ mtu
  | .freeSend _ => True

end

/-! ## Ports and buffers -/

section

variable {cids : List ℤ} {mtu : ℕ} {cid cid' : ℤ} {i j : ℕ} {s : State}

theorem findPort_eq_some (h : findPort cids cid = some i) : cids[i]? = some cid := by
  rw [findPort, List.findIdx?_eq_some_iff_getElem] at h
  obtain ⟨hi, hcid, -⟩ := h
  rw [List.getElem?_eq_getElem hi, of_decide_eq_true hcid]

/-- A port has one destination. -/
theorem findPort_inj (h : findPort cids cid = some i) (h' : findPort cids cid' = some i) :
    cid = cid' :=
  Option.some.inj ((findPort_eq_some h).symm.trans (findPort_eq_some h'))

/-- **What is read from the buffer is the packet.** -/
theorem map_memcpy (buf : ℕ → Byte) (packet : List Byte) :
    (List.range packet.length).map (memcpy buf packet) = packet := by
  refine List.ext_getElem (by simp) fun k hk _ ↦ ?_
  have hlt : k < packet.length := by simpa using hk
  simp [memcpy, List.getD_eq_getElem?_getD, List.getElem?_eq_getElem hlt]

/-- Only ports that `tx_forward` finds have packets. -/
def Unused (cids : List ℤ) (s : State) : Prop :=
  ∀ i, (∀ cid, findPort cids cid ≠ some i) → (s.sendQueue i).available = []

/-! ## What the steps do -/

theorem txForward_none (h : findPort cids cid = none) (packet : List Byte) (n : Option ℕ) :
    s.txForward cids cid packet n =
      { s with given := Function.update s.given cid (s.given cid ++ [packet]) } := by
  simp only [State.txForward, h]

theorem txForward_some (h : findPort cids cid = some i) (packet : List Byte) (n : ℕ) :
    s.txForward cids cid packet (some n) = { s with
      given := Function.update s.given cid (s.given cid ++ [packet])
      sendQueue := Function.update s.sendQueue i ((s.sendQueue i).send n packet) } := by
  simp only [State.txForward, h]

theorem txForward_rejected (cid : ℤ) (packet : List Byte) :
    s.txForward cids cid packet none =
      { s with given := Function.update s.given cid (s.given cid ++ [packet]) } := by
  rw [State.txForward]
  cases findPort cids cid <;> rfl

/-- A turn of the receiver's loop, case by case. -/
theorem recv_cases (mtu : ℕ) (s : State) (i : ℕ) (gathered : Bool) :
    ((s.sendQueue i).getAvailable = none ∧ s.recv mtu i gathered = s) ∨
      ∃ entry queue, (s.sendQueue i).getAvailable = some (entry, queue) ∧
        ((gathered = false ∧ s.recv mtu i gathered =
            { s with sendQueue := Function.update s.sendQueue i (queue.addUsed entry) }) ∨
          (gathered = true ∧ s.recv mtu i gathered = { s with
            sendQueue := Function.update s.sendQueue i (queue.addUsed entry)
            tempBuf := Function.update s.tempBuf i (memcpy (s.tempBuf i) entry.data)
            overrun := s.overrun || mtu < entry.data.length
            delivered := Function.update s.delivered i (s.delivered i ++ [entry.data]) })) := by
  cases hget : (s.sendQueue i).getAvailable with
  | none => exact .inl ⟨rfl, by simp only [State.recv, hget]⟩
  | some taken =>
    obtain ⟨entry, queue⟩ := taken
    refine .inr ⟨entry, queue, rfl, ?_⟩
    cases gathered with
    | false => exact .inl ⟨rfl, by simp [State.recv, hget]⟩
    | true => exact .inr ⟨rfl, by simp [State.recv, hget, map_memcpy]⟩

theorem freeSend_eq (s : State) (i : ℕ) : ∃ queue : Queue (List Byte),
    queue.messages = (s.sendQueue i).messages ∧
      s.freeSend i = { s with sendQueue := Function.update s.sendQueue i queue } := by
  rw [State.freeSend]
  split
  · exact ⟨s.sendQueue i, rfl, by rw [Function.update_eq_self]⟩
  · rename_i queue hreclaim
    exact ⟨queue, messages_reclaim hreclaim, rfl⟩

/-- **A step whose packet is carried keeps the order of all packets**, and no other step does. -/
theorem carried_txForward_iff (hs : Reliable cids s) (packet : List Byte) (n : Option ℕ) :
    Carried cids mtu s (.txForward cid packet n) ↔
      Reliable cids (s.txForward cids cid packet n) := by
  cases hport : findPort cids cid with
  | none =>
    rw [txForward_none hport]
    refine iff_of_true (fun h ↦ absurd hport h) ⟨fun cid' j hj ↦ ?_, hs.intact⟩
    have hne : cid' ≠ cid := by
      rintro rfl
      exact nomatch hport.symm.trans hj
    simpa [hne] using hs.packets cid' j hj
  | some i =>
    cases n with
    | none =>
      rw [txForward_rejected]
      refine iff_of_false (fun h ↦ h (by rw [hport]; exact nofun) rfl) fun h ↦ ?_
      have hlost := h.packets cid i hport
      rw [hs.packets cid i hport] at hlost
      simp at hlost
    | some k =>
      rw [txForward_some hport]
      refine iff_of_true (fun _ ↦ nofun) ⟨fun cid' j hj ↦ ?_, hs.intact⟩
      by_cases hij : j = i
      · subst hij
        obtain rfl := findPort_inj hj hport
        simp [← hs.packets cid' j hj]
      · have hne : cid' ≠ cid := by
          rintro rfl
          exact hij (Option.some.inj (hj.symm.trans hport))
        simpa [hij, hne] using hs.packets cid' j hj

/-- **A turn of the receiver's loop** keeps everything exactly if the packet is gathered and
fits. -/
theorem carried_recv_iff (hunused : Unused cids s) (hs : Reliable cids s) (gathered : Bool) :
    Carried cids mtu s (.recv i gathered) ↔ Reliable cids (s.recv mtu i gathered) := by
  obtain ⟨hnone, hrecv⟩ | ⟨entry, queue, hget, ⟨hgathered, hrecv⟩ | ⟨hgathered, hrecv⟩⟩ :=
    recv_cases mtu s i gathered
  · rw [hrecv]
    refine iff_of_true (fun entry queue hget ↦ ?_) hs
    exact nomatch hnone.symm.trans hget
  · -- the port has a destination, whose packet is gone
    have hused : ∃ cid, findPort cids cid = some i := by
      by_contra hno
      have hnil := hunused i fun cid h ↦ hno ⟨cid, h⟩
      exact nomatch (getAvailable_eq_none_iff.2 hnil).symm.trans hget
    obtain ⟨cid, hport⟩ := hused
    refine iff_of_false (fun h ↦ ?_) fun h ↦ ?_
    · exact nomatch hgathered.symm.trans (h entry queue hget).1
    · have hlost := h.packets cid i hport
      rw [hrecv, ← hs.packets cid i hport, messages_getAvailable hget] at hlost
      simp at hlost
  · have hpackets : ∀ cid j, findPort cids cid = some j →
        (s.recv mtu i gathered).delivered j ++ ((s.recv mtu i gathered).sendQueue j).messages =
          (s.recv mtu i gathered).given cid := by
      intro cid j hj
      rw [hrecv, ← hs.packets cid j hj]
      by_cases hij : j = i
      · subst hij
        simp [messages_getAvailable hget]
      · simp [hij]
    have hintact : (s.recv mtu i gathered).overrun = false ↔ entry.data.length ≤ mtu := by
      rw [hrecv]
      simp [hs.intact]
    constructor
    · intro h
      exact ⟨hpackets, hintact.2 (h entry queue hget).2⟩
    · intro h entry' queue' hget'
      obtain ⟨rfl, rfl⟩ := Prod.mk.inj (Option.some.inj (hget.symm.trans hget'))
      exact ⟨hgathered, hintact.1 h.intact⟩

/-- Taking descriptors back leaves the packets alone. -/
theorem reliable_freeSend (hs : Reliable cids s) (i : ℕ) : Reliable cids (s.freeSend i) := by
  obtain ⟨queue, hmessages, heq⟩ := freeSend_eq s i
  rw [heq]
  refine ⟨fun cid j hj ↦ ?_, hs.intact⟩
  rw [← hs.packets cid j hj]
  by_cases hij : j = i
  · subst hij
    simp [hmessages]
  · simp [hij]

/-- Where there are no packets there are no available entries. -/
theorem messages_eq_nil_iff {q : Queue (List Byte)} : q.messages = [] ↔ q.available = [] := by
  rw [Queue.messages, List.map_eq_nil_iff]

theorem unused_next (h : Unused cids s) (a : Label) : Unused cids (next cids mtu s a) := by
  intro j hj
  have hnil := h j hj
  cases a with
  | txForward cid packet n =>
    rw [next]
    cases hport : findPort cids cid with
    | none =>
      rw [txForward_none hport]
      exact hnil
    | some i =>
      have hij : j ≠ i := by
        rintro rfl
        exact hj cid hport
      cases n with
      | none =>
        rw [txForward_rejected]
        exact hnil
      | some k =>
        rw [txForward_some hport]
        simpa [hij] using hnil
  | recv i gathered =>
    rw [next]
    obtain ⟨-, hrecv⟩ | ⟨entry, queue, hget, hrecv⟩ := recv_cases mtu s i gathered
    · rw [hrecv]
      exact hnil
    · have hij : j ≠ i := by
        rintro rfl
        exact nomatch (getAvailable_eq_none_iff.2 hnil).symm.trans hget
      obtain ⟨-, hrecv⟩ | ⟨-, hrecv⟩ := hrecv <;>
      · rw [hrecv]
        simpa [hij] using hnil
  | freeSend i =>
    obtain ⟨queue, hmessages, heq⟩ := freeSend_eq s i
    rw [next, heq]
    by_cases hij : j = i
    · subst hij
      rw [← messages_eq_nil_iff] at hnil ⊢
      simpa [hmessages] using hnil
    · simpa [hij] using hnil

/-- **When nothing is lost.**  The runs in which the send queues take all packets, and the receivers
can gather them into `temp_buf`, are those in which every state has all packets, delivered or in the
queue, in the order in which they were given to `tx_forward`. -/
theorem run_forwards_iff (cids : List ℤ) (mtu : ℕ) (size : ℕ → ℕ) (tempBuf : ℕ → ℕ → Byte)
    (as : List Label) (t : State) :
    Run (Guarded (Carried cids mtu) (Does (Enabled cids) (next cids mtu)))
        (.initial size tempBuf) as t ↔
      Run (Guarded (fun s _ ↦ Reliable cids s) (Does (Enabled cids) (next cids mtu)))
          (.initial size tempBuf) as t ∧ Reliable cids t := by
  refine Run.guarded_iff_of_invariant (J := Unused cids) ⟨fun _ _ _ ↦ rfl, rfl⟩ (fun _ _ ↦ rfl)
    ?_ ?_
  · rintro s a _ hunused - ⟨-, rfl⟩
    exact unused_next hunused a
  · rintro s a _ hunused hs ⟨-, rfl⟩
    cases a with
    | txForward cid packet n => exact carried_txForward_iff hs packet n
    | recv i gathered => exact carried_recv_iff hunused hs gathered
    | freeSend i => exact iff_of_true trivial (reliable_freeSend hs i)

/-- **A packet that finds the send queue full** is gone. -/
theorem not_reliable_full :
    ¬ ∀ (cids : List ℤ) (mtu : ℕ) (size : ℕ → ℕ) (as : List Label) (t : State),
      Run (Does (Enabled cids) (next cids mtu)) (.initial size fun _ _ ↦ 0) as t →
        Reliable cids t := by
  intro h
  have hreliable := h [3] 1500 (fun _ ↦ 1) [.txForward 3 [1] (some 1), .txForward 3 [2] none] _
    (run_foldl ⟨⟨rfl, by decide⟩, ⟨rfl, by decide⟩, trivial⟩)
  exact absurd (hreliable.packets 3 0 rfl) (by decide)

end

end VirtioVsock
end CamkesVm
