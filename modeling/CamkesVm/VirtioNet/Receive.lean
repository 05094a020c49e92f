import CamkesVm.Lib.Transition
import CamkesVm.Lib.Virtqueue

/-!
# Descriptors of a receive queue

Frames reach a VMM through the receive queue of a node of the virtual switch, which is the send
queue of the VMM at the other end.  The sender scatters a frame over descriptors and notifies; the
receiver takes its notification and polls its queues in `virtio_net_notify_vswitch`, and
`virtio_net_notify_vswitch_recv` takes the available entries one after the other, until there is
none left or something fails.  The sender takes the descriptors back from the used ring in
`virtio_net_notify_vswitch_send`.

The model has one such queue, and interleaves what the two VMMs do to it: a frame that is sent, a
`notify`, one turn of a loop.  `allocate_rx_buf` and `camkes_virtqueue_device_gather_copy_buffer`
may fail at any turn.  Other queues share the notification, so it may also come for another reason.

The loop ends at the first failure.  When `allocate_rx_buf` fails, the entry that has been taken is
never put on the used ring; and whatever fails, the entries behind it are left where they are.
`run_conserved_iff` says that this is all that can go wrong.

## What is here

* `Sender`, `Receiver`, `RecvState`, `RecvLabel`, `RecvEnabled`, `recvNext` — the two VMMs at one
  queue, and one step of either.
* `RecvState.recv`, `RecvState.reclaim` — a turn of each loop, with the calls that may fail as
  parameters of the turn.
* `Conserved`, `RecvState.Attended` — all descriptors circulate, none that was taken is lost, and
  entries that wait have somebody to come for them.
* `Untroubled`, `untroubled_iff`, `run_conserved_iff`, `not_conserved_noMemory` — the condition on a
  step and the state before it, one step, runs, and one frame that goes wrong.
-/

set_option autoImplicit false

namespace CamkesVm
namespace VirtioNet

open Transition Virtqueue

/-! ## The system -/

/-- Where the sending VMM is. -/
inductive Sender
  /-- Not sending. -/
  | idle
  /-- A frame is in the queue; about to call `notify`. -/
  | notify
  deriving DecidableEq

/-- Where the receiving VMM is. -/
inductive Receiver
  /-- Not in `virtio_net_notify_vswitch`. -/
  | idle
  /-- About to test `VQ_DEV_POLL`. -/
  | poll
  /-- At the head of the loop of `virtio_net_notify_vswitch_recv`. -/
  | loop
  /-- The loop is over, with the entries `left` still available; about to call `notify`. -/
  | leave (left : List (Entry (List (BitVec 8))))
  deriving DecidableEq

/-- About to leave the function. -/
def Receiver.isLeave : Receiver → Bool
  | .leave _ => true
  | _ => false

/-- The queue and the two VMMs. -/
structure RecvState where
  /-- The queue. -/
  queue : Queue (List (BitVec 8))
  /-- The receiver's notification. -/
  pending : Bool
  /-- The sending VMM. -/
  sender : Sender
  /-- The receiving VMM. -/
  receiver : Receiver
  /-- The frames handed to `rx_complete`. -/
  received : List (List (BitVec 8))
  /-- The entries that were taken and not put on the used ring. -/
  lost : List (Entry (List (BitVec 8)))
  /-- The sender's notification. -/
  sendPending : Bool
  /-- The sender is in `virtio_net_notify_vswitch_send`. -/
  reclaiming : Bool
  deriving DecidableEq

/-- An empty queue with `size` descriptors. -/
def RecvState.initial (size : ℕ) : RecvState :=
  ⟨.empty size, false, .idle, .idle, [], [], false, false⟩

/-- What happens next. -/
inductive RecvLabel
  /-- The sender puts a frame into the queue, over `n` descriptors. -/
  | send (n : ℕ) (frame : List (BitVec 8))
  /-- The sender calls `notify`. -/
  | notify
  /-- A notification for another queue. -/
  | notifyOther
  /-- The receiver takes its notification. -/
  | wake
  /-- The receiver tests `VQ_DEV_POLL`. -/
  | poll
  /-- A turn of the loop of `virtio_net_notify_vswitch_recv`; says whether `allocate_rx_buf` and
  `camkes_virtqueue_device_gather_copy_buffer` succeed. -/
  | recv (allocated gathered : Bool)
  /-- `virtio_net_notify_vswitch_recv` calls `notify` and returns. -/
  | leave
  /-- The sender takes its notification and enters `virtio_net_notify_vswitch_send`. -/
  | wakeSend
  /-- A turn of the loop of `virtio_net_notify_vswitch_send`. -/
  | reclaim
  deriving DecidableEq

/-- A turn of the loop of `virtio_net_notify_vswitch_recv`. -/
def RecvState.recv (s : RecvState) (allocated gathered : Bool) : RecvState :=
  match s.queue.getAvailable with
  | none => { s with receiver := .leave s.queue.available }
  | some (entry, queue) =>
    if !allocated then { s with
      queue := queue
      lost := s.lost ++ [entry]
      receiver := .leave queue.available }
    else if !gathered then { s with
      queue := queue.addUsed entry
      receiver := .leave queue.available }
    else { s with
      queue := queue.addUsed entry
      received := s.received ++ [entry.data] }

/-- A turn of the loop of `virtio_net_notify_vswitch_send`. -/
def RecvState.reclaim (s : RecvState) : RecvState :=
  match s.queue.reclaim with
  | none => { s with reclaiming := false }
  | some queue => { s with queue := queue }

/-- When something can happen.  The sender has to have the descriptors for a frame. -/
def RecvEnabled (s : RecvState) : RecvLabel → Prop
  | .send n _ => s.sender = .idle ∧ n ≤ s.queue.free
  | .notify => s.sender = .notify
  | .notifyOther => True
  | .wake => s.receiver = .idle ∧ s.pending = true
  | .poll => s.receiver = .poll
  | .recv _ _ => s.receiver = .loop
  | .leave => s.receiver.isLeave = true
  | .wakeSend => s.sendPending = true ∧ s.reclaiming = false
  | .reclaim => s.reclaiming = true

instance (s : RecvState) : (a : RecvLabel) → Decidable (RecvEnabled s a)
  | .send n _ => inferInstanceAs (Decidable (s.sender = .idle ∧ n ≤ s.queue.free))
  | .notify => inferInstanceAs (Decidable (s.sender = .notify))
  | .notifyOther => inferInstanceAs (Decidable True)
  | .wake => inferInstanceAs (Decidable (s.receiver = .idle ∧ s.pending = true))
  | .poll => inferInstanceAs (Decidable (s.receiver = .poll))
  | .recv _ _ => inferInstanceAs (Decidable (s.receiver = .loop))
  | .leave => inferInstanceAs (Decidable (s.receiver.isLeave = true))
  | .wakeSend => inferInstanceAs (Decidable (s.sendPending = true ∧ s.reclaiming = false))
  | .reclaim => inferInstanceAs (Decidable (s.reclaiming = true))

/-- What happens then. -/
def recvNext (s : RecvState) : RecvLabel → RecvState
  | .send n frame => { s with queue := s.queue.send n frame, sender := .notify }
  | .notify => { s with sender := .idle, pending := true }
  | .notifyOther => { s with pending := true }
  | .wake => { s with pending := false, receiver := .poll }
  | .poll => { s with receiver := if s.queue.available = [] then .idle else .loop }
  | .recv allocated gathered => s.recv allocated gathered
  | .leave => { s with receiver := .idle, sendPending := true }
  | .wakeSend => { s with sendPending := false, reclaiming := true }
  | .reclaim => s.reclaim

/-! ## Conservation -/

/-- Somebody is going to see to the available entries. -/
def RecvState.Attended (s : RecvState) : Prop :=
  s.pending = true ∨ s.sender = .notify ∨ s.receiver = .poll ∨ s.receiver = .loop

/-- Nothing gets stuck in a queue of `size` descriptors. -/
structure Conserved (size : ℕ) (s : RecvState) : Prop where
  /-- Each entry that was taken is on the used ring, or was taken back from there. -/
  lost : s.lost = []
  /-- All descriptors circulate. -/
  circulating : s.queue.circulating = size
  /-- The loop leaves no available entry untaken. -/
  left : ∀ left, s.receiver = .leave left → left = []
  /-- No frame waits for something else to happen. -/
  attended : s.queue.available ≠ [] → s.Attended

/-- A turn of the receiver's loop finds memory, and if the frame cannot be gathered, it was the last
one. -/
def Untroubled (s : RecvState) : RecvLabel → Prop
  | .recv allocated gathered => ∀ entry queue, s.queue.getAvailable = some (entry, queue) →
      allocated = true ∧ (gathered = true ∨ queue.available = [])
  | _ => True

section

variable {size : ℕ} {s t : RecvState} {a : RecvLabel}

/-- What a turn of the receiver's loop does, case by case. -/
theorem recv_cases (s : RecvState) (allocated gathered : Bool) :
    (s.queue.available = [] ∧ s.recv allocated gathered = { s with receiver := .leave [] }) ∨
      ∃ entry queue, s.queue.getAvailable = some (entry, queue) ∧
        ((allocated = false ∧ s.recv allocated gathered = { s with
            queue := queue
            lost := s.lost ++ [entry]
            receiver := .leave queue.available }) ∨
          (allocated = true ∧ gathered = false ∧ s.recv allocated gathered = { s with
            queue := queue.addUsed entry
            receiver := .leave queue.available }) ∨
          (allocated = true ∧ gathered = true ∧ s.recv allocated gathered = { s with
            queue := queue.addUsed entry
            received := s.received ++ [entry.data] })) := by
  cases hget : s.queue.getAvailable with
  | none =>
    have hnil := getAvailable_eq_none_iff.1 hget
    refine .inl ⟨hnil, ?_⟩
    simp only [RecvState.recv, hget, hnil]
  | some taken =>
    obtain ⟨entry, queue⟩ := taken
    refine .inr ⟨entry, queue, rfl, ?_⟩
    cases allocated with
    | false => exact .inl ⟨rfl, by simp [RecvState.recv, hget]⟩
    | true =>
      cases gathered with
      | false => exact .inr (.inl ⟨rfl, rfl, by simp [RecvState.recv, hget]⟩)
      | true => exact .inr (.inr ⟨rfl, rfl, by simp [RecvState.recv, hget]⟩)

/-- **No descriptor is unaccounted for.** -/
theorem accounted_recvNext (h : RecvEnabled s a) :
    (recvNext s a).queue.circulating + descs (recvNext s a).lost =
      s.queue.circulating + descs s.lost := by
  cases a with
  | send n frame =>
    change (s.queue.send n frame).circulating + descs s.lost = _
    rw [circulating_send h.2]
  | recv allocated gathered =>
    rw [recvNext]
    obtain ⟨-, hs⟩ | ⟨entry, queue, hget, ⟨-, hs⟩ | ⟨-, -, hs⟩ | ⟨-, -, hs⟩⟩ :=
      recv_cases s allocated gathered
    · rw [hs]
    · rw [hs, ← circulating_getAvailable hget]
      simp only [descs_append, descs_cons, descs_nil]
      omega
    all_goals
      rw [hs, ← circulating_getAvailable hget, circulating_addUsed]
  | reclaim =>
    rw [recvNext, RecvState.reclaim]
    split
    · rfl
    · rename_i queue hget
      rw [circulating_reclaim hget]
  | notify | notifyOther | wake | poll | leave | wakeSend => rfl

/-- Taking back what is used leaves what is available. -/
theorem available_reclaim (s : RecvState) :
    s.reclaim.queue.available = s.queue.available ∧ s.reclaim.pending = s.pending ∧
      s.reclaim.sender = s.sender ∧ s.reclaim.receiver = s.receiver ∧ s.reclaim.lost = s.lost := by
  rw [RecvState.reclaim]
  split
  · exact ⟨rfl, rfl, rfl, rfl, rfl⟩
  · rename_i queue hget
    obtain ⟨entry, -, havailable, -⟩ := reclaim_eq_some hget
    exact ⟨havailable, rfl, rfl, rfl, rfl⟩

/-- **A turn of the receiver's loop keeps everything exactly if it meets no trouble.** -/
theorem untroubled_recv_iff {allocated gathered : Bool}
    (hacc : s.queue.circulating + descs s.lost = size) (hs : Conserved size s)
    (hloop : s.receiver = .loop) :
    Untroubled s (.recv allocated gathered) ↔ Conserved size (s.recv allocated gathered) := by
  have htotal := accounted_recvNext (s := s) (a := .recv allocated gathered) hloop
  rw [hacc, recvNext] at htotal
  obtain ⟨hnil, hrecv⟩ | ⟨entry, queue, hget, ⟨hfail, hrecv⟩ | ⟨halloc, hfail, hrecv⟩ |
    ⟨halloc, hgather, hrecv⟩⟩ := recv_cases s allocated gathered
  · refine iff_of_true (fun entry queue hget ↦ ?_) ?_
    · rw [getAvailable_eq_none_iff.2 hnil] at hget
      exact nomatch hget
    · rw [hrecv]
      refine ⟨hs.lost, hs.circulating, ?_, fun h ↦ absurd hnil h⟩
      rintro left ⟨⟩
      rfl
  · refine iff_of_false (fun h ↦ ?_) fun h ↦ ?_
    · exact absurd ((h entry queue hget).1.symm.trans hfail) nofun
    · have hlost := h.lost
      rw [hrecv] at hlost
      exact absurd hlost (by simp)
  · constructor
    · intro h
      have hlast := (h entry queue hget).2.resolve_left (by simp [hfail])
      rw [hrecv] at htotal ⊢
      refine ⟨hs.lost, by simpa [hs.lost] using htotal, ?_, fun h ↦ absurd hlast h⟩
      rintro left ⟨⟩
      exact hlast
    · intro h entry' queue' hget'
      obtain ⟨rfl, rfl⟩ := Prod.mk.inj (Option.some.inj (hget.symm.trans hget'))
      rw [hrecv] at h
      exact ⟨halloc, .inr (h.left _ rfl)⟩
  · refine iff_of_true (fun entry' queue' hget' ↦ ⟨halloc, .inl hgather⟩) ?_
    rw [hrecv] at htotal ⊢
    refine ⟨hs.lost, by simpa [hs.lost] using htotal, ?_, fun _ ↦ .inr (.inr (.inr hloop))⟩
    intro left hleft
    exact absurd (hloop.symm.trans hleft) nofun

/-- **What keeps everything**, step by step. -/
theorem untroubled_iff (hacc : s.queue.circulating + descs s.lost = size) (hs : Conserved size s)
    (h : RecvEnabled s a) : Untroubled s a ↔ Conserved size (recvNext s a) := by
  have htotal := accounted_recvNext h
  rw [hacc] at htotal
  cases a with
  | recv allocated gathered => exact untroubled_recv_iff hacc hs h
  | send n frame =>
    refine iff_of_true trivial ⟨hs.lost, ?_, hs.left, fun _ ↦ .inr (.inl rfl)⟩
    simpa [recvNext, hs.lost] using htotal
  | notify =>
    exact iff_of_true trivial ⟨hs.lost, hs.circulating, hs.left, fun _ ↦ .inl rfl⟩
  | notifyOther =>
    exact iff_of_true trivial ⟨hs.lost, hs.circulating, hs.left, fun _ ↦ .inl rfl⟩
  | wake =>
    exact iff_of_true trivial ⟨hs.lost, hs.circulating, nofun, fun _ ↦ .inr (.inr (.inl rfl))⟩
  | poll =>
    refine iff_of_true trivial ⟨hs.lost, hs.circulating, ?_, ?_⟩
    · intro left hleft
      simp only [recvNext] at hleft
      split at hleft <;> exact nomatch hleft
    · intro havailable
      refine .inr (.inr (.inr ?_))
      simpa [recvNext] using havailable
  | leave =>
    have hleave : s.receiver.isLeave = true := h
    refine iff_of_true trivial ⟨hs.lost, hs.circulating, nofun, fun havailable ↦ ?_⟩
    rcases hs.attended havailable with hp | hn | hpoll | hloop
    · exact .inl hp
    · exact .inr (.inl hn)
    · rw [hpoll] at hleave
      exact nomatch hleave
    · rw [hloop] at hleave
      exact nomatch hleave
  | wakeSend =>
    exact iff_of_true trivial ⟨hs.lost, hs.circulating, hs.left, hs.attended⟩
  | reclaim =>
    obtain ⟨havailable, hpending, hsender, hreceiver, hlost⟩ := available_reclaim s
    refine iff_of_true trivial ⟨hlost.trans hs.lost, ?_, ?_, ?_⟩
    · simpa [recvNext, hlost, hs.lost] using htotal
    · rw [recvNext, hreceiver]
      exact hs.left
    · rw [recvNext, RecvState.Attended, havailable, hpending, hsender, hreceiver]
      exact hs.attended

end

/-- **When nothing gets stuck.**  The runs in which every turn of the receiver's loop finds memory,
and fails to gather a frame only if it is the last one, are those in which every state keeps all
descriptors circulating and attends to all frames. -/
theorem run_conserved_iff (size : ℕ) (as : List RecvLabel) (t : RecvState) :
    Run (Guarded Untroubled (Does RecvEnabled recvNext)) (.initial size) as t ↔
      Run (Guarded (fun s _ ↦ Conserved size s) (Does RecvEnabled recvNext)) (.initial size) as t ∧
        Conserved size t := by
  refine Run.guarded_iff_of_invariant
    (J := fun s ↦ s.queue.circulating + descs s.lost = size) ?_ rfl ?_ ?_
  · exact ⟨rfl, rfl, nofun, fun h ↦ absurd rfl h⟩
  · rintro s a _ hacc - ⟨hen, rfl⟩
    exact (accounted_recvNext hen).trans hacc
  · rintro s a _ hacc hs ⟨hen, rfl⟩
    exact untroubled_iff hacc hs hen

/-- **One frame for which there is no memory** takes its descriptor with it. -/
theorem not_conserved_noMemory :
    ¬ ∀ size as t, Run (Does RecvEnabled recvNext) (.initial size) as t → Conserved size t := by
  intro h
  have hconserved := h 1 [.send 1 [0], .notify, .wake, .poll, .recv false true] _
    (run_foldl (by decide))
  exact absurd hconserved.lost (by decide)

end VirtioNet
end CamkesVm
