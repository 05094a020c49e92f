import CamkesVm.Lib.Transition
import CamkesVm.Lib.Virtqueue
import CamkesVm.VirtioNet.Transmit

/-!
# The network of the Arm VMMs

Each VMM has a queue to and a queue from every node of its virtual switch.  It forwards the frames
of its guest in `tx_virtqueue_forward`, and it answers every notification with
`virtio_net_notify`, which polls all its queues: it hands the frames that have come to the guest,
and it takes the descriptors back of those that the other end is through with.

Here is the whole network, with any number of VMMs.  A VMM does one thing at a time, in the order of
the code (`Phase` has its places), and the steps of all VMMs interleave in any way.  The queue
library and the guest's driver may fail wherever they are asked (`Answer`): a queue may reject a
frame, a frame may not be gathered, and `allocate_rx_buf` may have no buffer for it.

Two things are simpler here than in the code.

* The notifications of a VMM have a badge for each queue.  They arrive merged in one word, and
  `virtio_net_notify` is registered for each of the badges, so it may be called several times in a
  row for one word.  Each call looks at all queues.  The model has one notification for a VMM, and
  the calls for one word are one wake: a second call right behind the first finds nothing that the
  first would not have found, or something new, which has a notification of its own.
* A node whose queues do not exist, which `virtio_net_notify` skips, is not in the `Layout`.

The results are about every run.  `Sound` is the invariant, with the books of each queue
(`Balanced`) seen from both ends; there is a lemma for each place of the code, from which
`sound_of_run` is put together.  `run_faithful` says what holds all the time, `run_settled` what has
become of all frames and descriptors whenever the network is at rest, and `run_delivered` that
nothing is lost when nothing fails.
-/

set_option autoImplicit false

namespace CamkesVm
namespace VirtioNet
namespace Network

open Transition Virtqueue

/-! ## The network -/

/-- Which nodes each VMM is connected to, in the order of its `vswitch_layout`. -/
structure Layout (ν : Type) where
  /-- The nodes of a VMM. -/
  nodes : ν → List ν
  /-- A node is listed once. -/
  nodup : ∀ i, (nodes i).Nodup
  /-- A queue has two ends. -/
  symm : ∀ {i j}, j ∈ nodes i → i ∈ nodes j

/-- What the queue library and the guest's driver say when they are asked. -/
inductive Answer
  /-- It is done; a frame that is put into a queue is scattered over `descs` descriptors. -/
  | ok (descs : ℕ)
  /-- It is not done; a frame that was not gathered may be on the used ring all the same. -/
  | error (returned : Bool)
  deriving DecidableEq

/-- It is done. -/
def Answer.isOk : Answer → Bool
  | .ok _ => true
  | .error _ => false

/-- What becomes of a frame at the other end. -/
inductive Fate
  /-- `camkes_virtqueue_device_gather_copy_buffer` fails. -/
  | ungathered
  /-- `allocate_rx_buf` fails in `virtio_net_rx`. -/
  | unallocated
  /-- `rx_complete` is called with it. -/
  | delivered
  deriving DecidableEq

/-- The queue from one VMM to another, and what has become of the frames. -/
structure Link where
  /-- The queue. -/
  queue : Queue (List Byte)
  /-- The descriptors that never got to the used ring. -/
  lost : ℕ
  /-- The frames that the queue was asked to take, and whether it did. -/
  offered : List (List Byte × Bool)
  /-- The frames that the receiver is through with. -/
  handled : List (List Byte × Fate)
  deriving DecidableEq

/-- The frames that the queue took. -/
def Link.accepted (l : Link) : List (List Byte) := (l.offered.filter Prod.snd).map Prod.fst

/-- The frames that the guest at the other end got. -/
def Link.delivered (l : Link) : List (List Byte) :=
  (l.handled.filter fun handled ↦ handled.2 = .delivered).map Prod.fst

/-- Where a VMM is. -/
inductive Phase (ν : Type)
  /-- Waiting for something to do. -/
  | idle
  /-- At the head of the loop of `emul_raw_tx`, with the frames to go. -/
  | tx (frames : List (List Byte))
  /-- At the head of the loop of `tx_virtqueue_forward`, with the nodes to go. -/
  | forward (frame : List Byte) (rest : List ν) (frames : List (List Byte))
  /-- The queue to the node has taken the frame; about to call `notify`. -/
  | notifySend (frame : List Byte) (node : ν) (rest : List ν) (frames : List (List Byte))
  /-- At the head of the loop of `virtio_net_notify`, with the nodes to go. -/
  | poll (rest : List ν)
  /-- At the head of the loop of `virtio_net_notify_recv`. -/
  | recv (node : ν) (rest : List ν)
  /-- An entry is taken; about to gather it. -/
  | gather (entry : Entry (List Byte)) (node : ν) (rest : List ν)
  /-- The frame is in `emul_buf`; about to call `virtio_net_rx`. -/
  | rx (frame : List Byte) (node : ν) (rest : List ν)
  /-- Through with a frame; about to call `notify`. -/
  | notifyRecv (node : ν) (rest : List ν)
  /-- About to test `VQ_DRV_POLL`. -/
  | pollSend (node : ν) (rest : List ν)
  /-- At the head of the loop of `virtio_net_notify_free_send`. -/
  | freeSend (node : ν) (rest : List ν)
  deriving DecidableEq

/-- The network at one moment. -/
structure State (ν : Type) where
  /-- The queue from a VMM to another. -/
  link : ν → ν → Link
  /-- A notification is pending for a VMM. -/
  pending : ν → Bool
  /-- Where the VMMs are. -/
  phase : ν → Phase ν
  /-- The frames `emul_raw_tx` passes on, or is going to. -/
  sent : ν → List (List Byte)
  /-- A frame was longer than `emul_buf`. -/
  overrun : Bool

/-- The queues are empty; `size` says how many descriptors they have. -/
def State.initial {ν : Type} (size : ν → ν → ℕ) : State ν where
  link i j := ⟨.empty (size i j), 0, [], []⟩
  pending _ := false
  phase _ := .idle
  sent _ := []
  overrun := false

/-- What happens next. -/
inductive Label (ν : Type)
  /-- The guest's driver calls `emul_raw_tx`. -/
  | tx (i : ν) (frames : List (List Byte))
  /-- A VMM takes its notification. -/
  | wake (i : ν)
  /-- A VMM goes on. -/
  | turn (i : ν) (answer : Answer)
  deriving DecidableEq

/-! ## The steps -/

/-- The frames up to the first that `emul_raw_tx` finds too long. -/
def fitting (frames : List (List Byte)) : List (List Byte) :=
  frames.takeWhile fun frame ↦ frame.length ≤ maxMtu

/-- `camkes_virtqueue_driver_scatter_send_buffer`. -/
def Link.offer (l : Link) (frame : List Byte) : Answer → Link
  | .ok descs => { l with
      queue := l.queue.send descs frame
      offered := l.offered ++ [(frame, true)] }
  | .error _ => { l with offered := l.offered ++ [(frame, false)] }

/-- `camkes_virtqueue_device_gather_copy_buffer`. -/
def Link.gather (l : Link) (entry : Entry (List Byte)) : Answer → Link
  | .ok _ => { l with queue := l.queue.addUsed entry }
  | .error true => { l with
      queue := l.queue.addUsed entry
      handled := l.handled ++ [(entry.data, .ungathered)] }
  | .error false => { l with
      lost := l.lost + entry.descs
      handled := l.handled ++ [(entry.data, .ungathered)] }

/-- `virtio_net_rx`. -/
def Link.rx (l : Link) (frame : List Byte) : Answer → Link
  | .ok _ => { l with handled := l.handled ++ [(frame, .delivered)] }
  | .error _ => { l with handled := l.handled ++ [(frame, .unallocated)] }

variable {ν : Type} [DecidableEq ν]

/-- A VMM gets to the next place of its code. -/
def State.goto (s : State ν) (i : ν) (p : Phase ν) : State ν := { s with
  phase := Function.update s.phase i p }

/-- Something happens to the queue from `i` to `j`. -/
def State.setLink (s : State ν) (i j : ν) (l : Link) : State ν := { s with
  link := fun a b ↦ if a = i ∧ b = j then l else s.link a b }

/-- `notify`, for the VMM `j`. -/
def State.notify (s : State ν) (j : ν) : State ν := { s with
  pending := Function.update s.pending j true }

/-- The notification of the VMM `j` is taken. -/
def State.take (s : State ν) (j : ν) : State ν := { s with
  pending := Function.update s.pending j false }

/-- The next step of a VMM that is not idle. -/
def State.turn (L : Layout ν) (s : State ν) (i : ν) (answer : Answer) : State ν :=
  match s.phase i with
  | .idle => s
  -- `emul_raw_tx`
  | .tx [] => s.goto i .idle
  | .tx (frame :: frames) =>
    if maxMtu < frame.length then s.goto i .idle
    else s.goto i (.forward frame (L.nodes i) frames)
  -- `tx_virtqueue_forward`
  | .forward _ [] frames => s.goto i (.tx frames)
  | .forward frame (node :: rest) frames =>
    (s.setLink i node ((s.link i node).offer frame answer)).goto i
      (if answer.isOk then .notifySend frame node rest frames else .forward frame rest frames)
  | .notifySend frame node rest frames => (s.notify node).goto i (.forward frame rest frames)
  -- `virtio_net_notify`
  | .poll [] => s.goto i .idle
  | .poll (node :: rest) =>
    s.goto i (if (s.link node i).queue.available = [] then .pollSend node rest
      else .recv node rest)
  -- `virtio_net_notify_recv`
  | .recv node rest =>
    match (s.link node i).queue.getAvailable with
    | none => s.goto i (.pollSend node rest)
    | some (entry, queue) =>
      (s.setLink node i { s.link node i with queue := queue }).goto i (.gather entry node rest)
  | .gather entry node rest =>
    { (s.setLink node i ((s.link node i).gather entry answer)).goto i
        (if answer.isOk then .rx entry.data node rest else .recv node rest) with
      overrun := s.overrun || maxMtu < entry.data.length }
  | .rx frame node rest =>
    (s.setLink node i ((s.link node i).rx frame answer)).goto i (.notifyRecv node rest)
  | .notifyRecv node rest => (s.notify node).goto i (.recv node rest)
  -- `virtio_net_notify` again
  | .pollSend node rest =>
    s.goto i (if (s.link i node).queue.used = [] then .poll rest else .freeSend node rest)
  -- `virtio_net_notify_free_send`
  | .freeSend node rest =>
    match (s.link i node).queue.reclaim with
    | none => s.goto i (.poll rest)
    | some queue => s.setLink i node { s.link i node with queue := queue }

/-- If a queue takes a frame, it has the descriptors. -/
def State.hasRoom (s : State ν) (i : ν) (answer : Answer) : Bool :=
  match s.phase i, answer with
  | .forward _ (node :: _) _, .ok descs => descs ≤ (s.link i node).queue.free
  | _, _ => true

/-- When something can happen. -/
def Enabled (s : State ν) : Label ν → Prop
  | .tx i _ => s.phase i = .idle
  | .wake i => s.phase i = .idle ∧ s.pending i = true
  | .turn i answer => s.phase i ≠ .idle ∧ s.hasRoom i answer = true

instance (s : State ν) : (a : Label ν) → Decidable (Enabled s a)
  | .tx i _ => inferInstanceAs (Decidable (s.phase i = .idle))
  | .wake i => inferInstanceAs (Decidable (s.phase i = .idle ∧ s.pending i = true))
  | .turn i answer =>
    inferInstanceAs (Decidable (s.phase i ≠ .idle ∧ s.hasRoom i answer = true))

/-- What happens then. -/
def next (L : Layout ν) (s : State ν) : Label ν → State ν
  | .tx i frames => { s.goto i (.tx frames) with
      sent := Function.update s.sent i (s.sent i ++ fitting frames) }
  | .wake i => (s.take i).goto i (.poll (L.nodes i))
  | .turn i answer => s.turn L i answer

/-! ## What is under way -/

/-- The nodes a VMM is at or has still to go to. -/
def Phase.toGo : Phase ν → List ν
  | .idle | .tx _ => []
  | .forward _ rest _ | .poll rest => rest
  | .notifySend _ node rest _ | .recv node rest | .gather _ node rest | .rx _ node rest
  | .notifyRecv node rest | .pollSend node rest | .freeSend node rest => node :: rest

/-- The frames a VMM is going to put into the queue to a node it is connected to. -/
def Phase.unsent : Phase ν → ν → List (List Byte)
  | .tx frames, _ => fitting frames
  | .forward frame rest frames, b | .notifySend frame _ rest frames, b =>
    (if b ∈ rest then [frame] else []) ++ fitting frames
  | _, _ => []

/-- How far the sender is with a queue. -/
structure SenderView where
  /-- It is about to notify the receiver of a frame. -/
  notifies : Bool
  /-- It is going to look at the used ring. -/
  frees : Bool

/-- How far the receiver is with a queue. -/
structure ReceiverView where
  /-- The entry it has taken and not put on the used ring. -/
  held : List (Entry (List Byte))
  /-- The frame that is in `emul_buf`. -/
  copied : List (List Byte)
  /-- It is going to notify the sender of a used entry. -/
  notifies : Bool
  /-- It is going to look at the available ring. -/
  receives : Bool

/-- How far a VMM is with the queue to a node. -/
def Phase.sender : Phase ν → ν → SenderView
  | .notifySend _ node _ _, b => ⟨b = node, false⟩
  | .poll rest, b => ⟨false, b ∈ rest⟩
  | .recv node rest, b | .gather _ node rest, b | .rx _ node rest, b | .notifyRecv node rest, b
  | .pollSend node rest, b | .freeSend node rest, b => ⟨false, b ∈ node :: rest⟩
  | .idle, _ | .tx _, _ | .forward _ _ _, _ => ⟨false, false⟩

/-- How far a VMM is with the queue from a node. -/
def Phase.receiver : Phase ν → ν → ReceiverView
  | .recv node rest, a => ⟨[], [], false, a ∈ node :: rest⟩
  | .gather entry node rest, a => ⟨if a = node then [entry] else [], [], false, a ∈ node :: rest⟩
  | .rx frame node rest, a => ⟨[], if a = node then [frame] else [], a = node, a ∈ node :: rest⟩
  | .notifyRecv node rest, a => ⟨[], [], a = node, a ∈ node :: rest⟩
  | .poll rest, a | .pollSend _ rest, a | .freeSend _ rest, a => ⟨[], [], false, a ∈ rest⟩
  | .idle, _ | .tx _, _ | .forward _ _ _, _ | .notifySend _ _ _ _, _ => ⟨[], [], false, false⟩

/-- The last frame could not be gathered: the receiver does not notify the sender of it. -/
def Link.unannounced (l : Link) : Prop := ∃ frame, l.handled.getLast? = some (frame, .ungathered)

/-- The books of a queue with `size` descriptors balance.  `pendingSender` and `pendingReceiver` say
whether its ends have a notification. -/
structure Balanced (size : ℕ) (l : Link) (v : SenderView) (w : ReceiverView)
    (pendingSender pendingReceiver : Bool) : Prop where
  /-- Each frame that the queue has taken is handled once, in order. -/
  handled : l.handled.map Prod.fst ++ w.copied ++ w.held.map Entry.data ++ l.queue.messages =
    l.accepted
  /-- No descriptor is unaccounted for. -/
  conserved : l.queue.circulating + descs w.held + l.lost = size
  /-- A frame that waits is seen to. -/
  waiting : l.queue.available ≠ [] →
    pendingReceiver = true ∨ v.notifies = true ∨ w.receives = true
  /-- A used entry is seen to, unless its frame could not be gathered. -/
  used : l.queue.used ≠ [] →
    pendingSender = true ∨ w.notifies = true ∨ v.frees = true ∨ l.unannounced

/-- The books of the network balance. -/
structure Sound (L : Layout ν) (size : ν → ν → ℕ) (s : State ν) : Prop where
  /-- Whoever goes through its nodes does so in order. -/
  toGo : ∀ i, (s.phase i).toGo <:+ L.nodes i
  /-- VMMs that are not connected have nothing to do with each other. -/
  apart : ∀ a b, b ∉ L.nodes a → s.link a b = ⟨.empty (size a b), 0, [], []⟩
  /-- Each frame is offered to the queue of each node once, in order. -/
  offered : ∀ a b, b ∈ L.nodes a →
    (s.link a b).offered.map Prod.fst ++ (s.phase a).unsent b = s.sent a
  /-- The books of each queue balance. -/
  balanced : ∀ a b, Balanced (size a b) (s.link a b) ((s.phase a).sender b)
    ((s.phase b).receiver a) (s.pending a) (s.pending b)
  /-- The frames are not too long. -/
  fits : ∀ a, ∀ frame ∈ s.sent a, frame.length ≤ maxMtu
  /-- `emul_buf` is long enough. -/
  intact : s.overrun = false

/-! ## One queue -/

section

variable {size : ℕ} {l : Link} {v v' : SenderView} {w w' : ReceiverView} {e f e' f' : Bool}
  {frame : List Byte} {entry : Entry (List Byte)} {queue : Queue (List Byte)}

@[simp] theorem accepted_offer_ok (l : Link) (frame : List Byte) (n : ℕ) :
    (l.offer frame (.ok n)).accepted = l.accepted ++ [frame] := by
  simp [Link.accepted, Link.offer]

@[simp] theorem accepted_offer_error (l : Link) (frame : List Byte) (returned : Bool) :
    (l.offer frame (.error returned)).accepted = l.accepted := by
  simp [Link.accepted, Link.offer]

/-- What has still to be done may be done by somebody else. -/
theorem Balanced.mono (h : Balanced size l v w e f) (hheld : w'.held = w.held)
    (hcopied : w'.copied = w.copied)
    (hwaiting : l.queue.available ≠ [] → f = true ∨ v.notifies = true ∨ w.receives = true →
      f' = true ∨ v'.notifies = true ∨ w'.receives = true)
    (hused : l.queue.used ≠ [] → e = true ∨ w.notifies = true ∨ v.frees = true →
      e' = true ∨ w'.notifies = true ∨ v'.frees = true) :
    Balanced size l v' w' e' f' where
  handled := by rw [hheld, hcopied, h.handled]
  conserved := by rw [hheld, h.conserved]
  waiting havailable := hwaiting havailable (h.waiting havailable)
  used hne := by
    rcases h.used hne with hpending | hnotifies | hfrees | hunannounced
    · have := hused hne (.inl hpending)
      tauto
    · have := hused hne (.inr (.inl hnotifies))
      tauto
    · have := hused hne (.inr (.inr hfrees))
      tauto
    · exact .inr (.inr (.inr hunannounced))

/-- The queue takes a frame, and its receiver is going to be notified, or it does not. -/
theorem Balanced.offer (h : Balanced size l v w e f) (frame : List Byte) (answer : Answer)
    (hfree : ∀ n, answer = .ok n → n ≤ l.queue.free) :
    Balanced size (l.offer frame answer) ⟨answer.isOk || v.notifies, v.frees⟩ w e f := by
  cases answer with
  | ok n =>
    refine ⟨?_, ?_, fun _ ↦ .inr (.inl rfl), h.used⟩
    · rw [accepted_offer_ok, ← h.handled]
      simp [Link.offer]
    · rw [← h.conserved]
      exact congrArg (· + _ + _) (circulating_send (hfree n rfl) frame)
  | error returned =>
    refine ⟨?_, h.conserved, h.waiting, h.used⟩
    rw [accepted_offer_error, ← h.handled]
    rfl

/-- The receiver takes an entry. -/
theorem Balanced.take (h : Balanced size l v w e f) (hheld : w.held = [])
    (hreceives : w.receives = true) (hget : l.queue.getAvailable = some (entry, queue)) :
    Balanced size { l with queue := queue } v { w with held := [entry] } e f where
  handled := by
    have hmessages := h.handled
    rw [hheld, messages_getAvailable hget] at hmessages
    simpa [Link.accepted] using hmessages
  conserved := by
    have htotal := h.conserved
    rw [hheld, ← circulating_getAvailable hget] at htotal
    simpa using htotal
  waiting _ := .inr (.inr hreceives)
  used hne := by
    have hsame : l.queue.used = queue.used := by rw [getAvailable_eq_some hget]
    exact h.used (hsame ▸ hne)

/-- The receiver gathers the entry it has taken, and keeps the frame, or it fails to. -/
theorem Balanced.gather (h : Balanced size l v w e f) (hheld : w.held = [entry])
    (hcopied : w.copied = []) (answer : Answer) :
    Balanced size (l.gather entry answer) v
      ⟨[], if answer.isOk then [entry.data] else [], answer.isOk, true⟩ e f := by
  have hmessages := h.handled
  have htotal := h.conserved
  rw [hheld, hcopied] at hmessages
  rw [hheld] at htotal
  cases answer with
  | ok n =>
    refine ⟨?_, ?_, fun _ ↦ .inr (.inr rfl), fun _ ↦ .inr (.inl rfl)⟩
    · simpa [Link.gather, Answer.isOk, Link.accepted] using hmessages
    · simpa [Link.gather] using htotal
  | error returned =>
    refine ⟨?_, ?_, fun _ ↦ .inr (.inr rfl), fun _ ↦ .inr (.inr (.inr ⟨entry.data, ?_⟩))⟩
    all_goals cases returned
    · simpa [Link.gather, Answer.isOk, Link.accepted] using hmessages
    · simpa [Link.gather, Answer.isOk, Link.accepted] using hmessages
    · simp only [Link.gather, descs_nil, descs_cons] at htotal ⊢
      omega
    · simpa [Link.gather] using htotal
    · simp [Link.gather]
    · simp [Link.gather]

/-- The receiver hands the frame over, or has no buffer for it. -/
theorem Balanced.rx (h : Balanced size l v w e f) (hcopied : w.copied = [frame])
    (hheld : w.held = []) (hnotifies : w.notifies = true) (answer : Answer) :
    Balanced size (l.rx frame answer) v { w with copied := [] } e f := by
  have hmessages := h.handled
  rw [hheld, hcopied] at hmessages
  cases answer with
  | ok n =>
    refine ⟨?_, h.conserved, h.waiting, fun _ ↦ .inr (.inl hnotifies)⟩
    simpa [Link.rx, Link.accepted, hheld] using hmessages
  | error returned =>
    refine ⟨?_, h.conserved, h.waiting, fun _ ↦ .inr (.inl hnotifies)⟩
    simpa [Link.rx, Link.accepted, hheld] using hmessages

/-- The sender takes the descriptors of an entry back. -/
theorem Balanced.reclaim (h : Balanced size l v w e f) (hfrees : v.frees = true)
    (hget : l.queue.reclaim = some queue) : Balanced size { l with queue := queue } v w e f where
  handled := by
    rw [messages_reclaim hget]
    exact h.handled
  conserved := by
    rw [circulating_reclaim hget]
    exact h.conserved
  waiting havailable := by
    obtain ⟨entry, -, hsame, -⟩ := reclaim_eq_some hget
    exact h.waiting (hsame ▸ havailable)
  used _ := .inr (.inr (.inl hfrees))

end

section

variable {L : Layout ν} {size : ν → ν → ℕ} {s : State ν} {i : ν} {answer : Answer}

/-! ## What the steps do -/

@[simp] theorem goto_link (s : State ν) (i : ν) (p : Phase ν) : (s.goto i p).link = s.link := rfl

@[simp] theorem goto_pending (s : State ν) (i : ν) (p : Phase ν) :
    (s.goto i p).pending = s.pending := rfl

@[simp] theorem goto_sent (s : State ν) (i : ν) (p : Phase ν) : (s.goto i p).sent = s.sent := rfl

@[simp] theorem goto_overrun (s : State ν) (i : ν) (p : Phase ν) :
    (s.goto i p).overrun = s.overrun := rfl

theorem goto_phase (s : State ν) (i : ν) (p : Phase ν) (a : ν) :
    (s.goto i p).phase a = if a = i then p else s.phase a := Function.update_apply ..

theorem setLink_link (s : State ν) (i j a b : ν) (l : Link) :
    (s.setLink i j l).link a b = if a = i ∧ b = j then l else s.link a b := rfl

@[simp] theorem setLink_phase (s : State ν) (i j : ν) (l : Link) :
    (s.setLink i j l).phase = s.phase := rfl

@[simp] theorem setLink_pending (s : State ν) (i j : ν) (l : Link) :
    (s.setLink i j l).pending = s.pending := rfl

@[simp] theorem setLink_sent (s : State ν) (i j : ν) (l : Link) :
    (s.setLink i j l).sent = s.sent := rfl

@[simp] theorem setLink_overrun (s : State ν) (i j : ν) (l : Link) :
    (s.setLink i j l).overrun = s.overrun := rfl

@[simp] theorem notify_link (s : State ν) (j : ν) : (s.notify j).link = s.link := rfl

@[simp] theorem notify_phase (s : State ν) (j : ν) : (s.notify j).phase = s.phase := rfl

@[simp] theorem notify_sent (s : State ν) (j : ν) : (s.notify j).sent = s.sent := rfl

@[simp] theorem notify_overrun (s : State ν) (j : ν) : (s.notify j).overrun = s.overrun := rfl

@[simp] theorem take_link (s : State ν) (j : ν) : (s.take j).link = s.link := rfl

@[simp] theorem take_phase (s : State ν) (j : ν) : (s.take j).phase = s.phase := rfl

theorem take_pending (s : State ν) (j a : ν) :
    (s.take j).pending a = if a = j then false else s.pending a := Function.update_apply ..

theorem notify_pending (s : State ν) (j a : ν) :
    (s.notify j).pending a = if a = j then true else s.pending a := Function.update_apply ..

/-! ## Every step keeps the books -/

/-- What holds of one queue after a step is shown for it; the others are as they were. -/
theorem balanced_frame {t : State ν} (a₀ b₀ : ν)
    (h : ∀ a b, Balanced (size a b) (s.link a b) ((s.phase a).sender b) ((s.phase b).receiver a)
      (s.pending a) (s.pending b))
    (hlink : ∀ a b, ¬ (a = a₀ ∧ b = b₀) → t.link a b = s.link a b)
    (hsender : ∀ a b, ¬ (a = a₀ ∧ b = b₀) → (t.phase a).sender b = (s.phase a).sender b)
    (hreceiver : ∀ a b, ¬ (a = a₀ ∧ b = b₀) → (t.phase b).receiver a = (s.phase b).receiver a)
    (hpending : ∀ a, s.pending a = true → t.pending a = true)
    (h₀ : Balanced (size a₀ b₀) (t.link a₀ b₀) ((t.phase a₀).sender b₀) ((t.phase b₀).receiver a₀)
      (t.pending a₀) (t.pending b₀)) (a b : ν) :
    Balanced (size a b) (t.link a b) ((t.phase a).sender b) ((t.phase b).receiver a)
      (t.pending a) (t.pending b) := by
  by_cases hab : a = a₀ ∧ b = b₀
  · obtain ⟨rfl, rfl⟩ := hab
    exact h₀
  · rw [hlink a b hab, hsender a b hab, hreceiver a b hab]
    refine (h a b).mono rfl rfl (fun _ hseen ↦ ?_) fun _ hseen ↦ ?_
    · exact hseen.imp_left (hpending b)
    · exact hseen.imp_left (hpending a)

/-- A property of the phase of a VMM that is the same before and after. -/
theorem goto_phase_congr {β : Type} (f : Phase ν → β) {p : Phase ν} (h : f p = f (s.phase i))
    (a : ν) : f ((s.goto i p).phase a) = f (s.phase a) := by
  rw [goto_phase]
  split
  · rename_i hai
    rw [h, hai]
  · rfl

theorem toGo_goto (h : ∀ a, (s.phase a).toGo <:+ L.nodes a) {p : Phase ν}
    (hp : p.toGo <:+ L.nodes i) (a : ν) : ((s.goto i p).phase a).toGo <:+ L.nodes a := by
  rw [goto_phase]
  split
  · rename_i hai
    exact hai ▸ hp
  · exact h a

/-- A step of the VMM `i` at one queue. -/
theorem Sound.step {t : State ν} {p : Phase ν} (h : Sound L size s) (a₀ b₀ : ν)
    (hphase : t.phase = (s.goto i p).phase) (hsent : t.sent = s.sent)
    (hpending : ∀ a, s.pending a = true → t.pending a = true)
    (hlink : ∀ a b, ¬ (a = a₀ ∧ b = b₀) → t.link a b = s.link a b) (hnode : b₀ ∈ L.nodes a₀)
    (htoGo : p.toGo <:+ L.nodes i)
    (hoffered : ∀ a b, b ∈ L.nodes a → (t.link a b).offered.map Prod.fst ++ (t.phase a).unsent b =
      (s.link a b).offered.map Prod.fst ++ (s.phase a).unsent b)
    (hsender : ∀ b, ¬ (i = a₀ ∧ b = b₀) → p.sender b = (s.phase i).sender b)
    (hreceiver : ∀ a, ¬ (a = a₀ ∧ i = b₀) → p.receiver a = (s.phase i).receiver a)
    (h₀ : Balanced (size a₀ b₀) (t.link a₀ b₀) ((t.phase a₀).sender b₀) ((t.phase b₀).receiver a₀)
      (t.pending a₀) (t.pending b₀))
    (hintact : t.overrun = false) : Sound L size t where
  toGo a := by
    rw [hphase]
    exact toGo_goto h.toGo htoGo a
  apart a b hab := by
    rw [hlink a b]
    · exact h.apart a b hab
    · rintro ⟨rfl, rfl⟩
      exact hab hnode
  offered a b hab := by
    rw [hoffered a b hab, hsent]
    exact h.offered a b hab
  balanced := by
    refine balanced_frame a₀ b₀ h.balanced hlink (fun a b hab ↦ ?_) (fun a b hab ↦ ?_) hpending h₀
    · rw [hphase, goto_phase]
      split
      · rename_i hai
        subst hai
        exact hsender b hab
      · rfl
    · rw [hphase, goto_phase]
      split
      · rename_i hbi
        subst hbi
        exact hreceiver a hab
      · rfl
  fits := by
    rw [hsent]
    exact h.fits
  intact := hintact

/-- A VMM moves on, and has the same to do. -/
theorem Sound.goto {p : Phase ν} (h : Sound L size s) (htoGo : p.toGo <:+ L.nodes i)
    (hunsent : ∀ b ∈ L.nodes i, p.unsent b = (s.phase i).unsent b)
    (hsender : p.sender = (s.phase i).sender) (hreceiver : p.receiver = (s.phase i).receiver) :
    Sound L size (s.goto i p) where
  toGo := toGo_goto h.toGo htoGo
  apart := h.apart
  offered a b hab := by
    rw [goto_phase]
    split
    · rename_i hai
      subst hai
      rw [hunsent b hab]
      exact h.offered a b hab
    · exact h.offered a b hab
  balanced a b := by
    rw [goto_phase_congr Phase.sender hsender, goto_phase_congr Phase.receiver hreceiver]
    exact h.balanced a b
  fits := h.fits
  intact := h.intact

/-- **A VMM does something at its end of the queue to a node.** -/
theorem Sound.send {node : ν} {l : Link} {p : Phase ν} (h : Sound L size s)
    (hnode : node ∈ L.nodes i) (htoGo : p.toGo <:+ L.nodes i)
    (hoffered : l.offered.map Prod.fst ++ p.unsent node =
      (s.link i node).offered.map Prod.fst ++ (s.phase i).unsent node)
    (hunsent : ∀ b, b ≠ node → p.unsent b = (s.phase i).unsent b)
    (hsender : ∀ b, b ≠ node → p.sender b = (s.phase i).sender b)
    (hreceiver : p.receiver = (s.phase i).receiver)
    (hbalanced : Balanced (size i node) l (p.sender node) ((s.phase node).receiver i) (s.pending i)
      (s.pending node)) : Sound L size ((s.setLink i node l).goto i p) := by
  refine h.step i node rfl rfl (fun _ ↦ id) (fun a b hab ↦ if_neg hab) hnode htoGo ?_
    (fun b hb ↦ hsender b fun heq ↦ hb ⟨rfl, heq⟩) (fun a _ ↦ by rw [hreceiver]) ?_ h.intact
  · intro a b _
    rw [goto_phase, goto_link, setLink_link]
    by_cases hai : a = i
    · subst hai
      by_cases hbn : b = node
      · subst hbn
        simpa using hoffered
      · simp [hbn, hunsent b hbn]
    · simp [hai]
  · rw [goto_phase_congr (fun p ↦ p.receiver i) (by rw [setLink_phase, hreceiver]), goto_phase,
      if_pos rfl, goto_link, setLink_link, if_pos ⟨rfl, rfl⟩]
    exact hbalanced

/-- **A VMM does something at its end of the queue from a node.** -/
theorem Sound.receive {node : ν} {l : Link} {p : Phase ν} (h : Sound L size s)
    (hnode : node ∈ L.nodes i) (htoGo : p.toGo <:+ L.nodes i)
    (hoffered : l.offered = (s.link node i).offered) (hunsent : p.unsent = (s.phase i).unsent)
    (hsender : p.sender = (s.phase i).sender)
    (hreceiver : ∀ a, a ≠ node → p.receiver a = (s.phase i).receiver a)
    (hbalanced : Balanced (size node i) l ((s.phase node).sender i) (p.receiver node)
      (s.pending node) (s.pending i)) : Sound L size ((s.setLink node i l).goto i p) := by
  refine h.step node i rfl rfl (fun _ ↦ id) (fun a b hab ↦ if_neg hab) (L.symm hnode) htoGo ?_
    (fun b _ ↦ by rw [hsender]) (fun a ha ↦ hreceiver a fun heq ↦ ha ⟨heq, rfl⟩) ?_ h.intact
  · intro a b _
    rw [goto_phase_congr Phase.unsent (by rw [setLink_phase, hunsent]), setLink_phase, goto_link,
      setLink_link]
    split
    · rename_i hab
      rw [hab.1, hab.2, hoffered]
    · rfl
  · rw [goto_phase_congr (fun p ↦ p.sender i) (by rw [setLink_phase, hsender]), goto_phase,
      if_pos rfl, goto_link, setLink_link, if_pos ⟨rfl, rfl⟩]
    exact hbalanced

theorem goto_self (s : State ν) {p : Phase ν} (hp : s.phase i = p) : s.goto i p = s := by
  subst hp
  rw [State.goto, Function.update_eq_self]

theorem setLink_self (s : State ν) (i j : ν) : s.setLink i j (s.link i j) = s := by
  have hlink : (s.setLink i j (s.link i j)).link = s.link := by
    funext a b
    rw [setLink_link]
    split
    · rename_i hab
      rw [hab.1, hab.2]
    · rfl
  rw [State.setLink] at hlink ⊢
  exact congrArg (fun link ↦ { s with link := link }) hlink

/-- A notification more does no harm. -/
theorem Sound.notify (h : Sound L size s) (j : ν) : Sound L size (s.notify j) where
  toGo := h.toGo
  apart := h.apart
  offered := h.offered
  balanced a b := by
    refine (h.balanced a b).mono rfl rfl (fun _ hseen ↦ ?_) fun _ hseen ↦ ?_
    · exact hseen.imp_left fun hpending ↦ by simp [notify_pending, hpending]
    · exact hseen.imp_left fun hpending ↦ by simp [notify_pending, hpending]
  fits := h.fits
  intact := h.intact

theorem fitting_cons_of_le {frame : List Byte} (h : frame.length ≤ maxMtu)
    (frames : List (List Byte)) : fitting (frame :: frames) = frame :: fitting frames := by
  simp [fitting, h]

theorem fitting_cons_of_lt {frame : List Byte} (h : maxMtu < frame.length)
    (frames : List (List Byte)) : fitting (frame :: frames) = [] := by
  simp [fitting, Nat.not_le.2 h]

/-- A node the VMM is at or goes to is one it is connected to. -/
theorem Sound.toGo_of (h : Sound L size s) {p : Phase ν} (hp : s.phase i = p) :
    p.toGo <:+ L.nodes i :=
  hp ▸ h.toGo i

/-- `emul_raw_tx`. -/
theorem Sound.turn_tx {frames : List (List Byte)} (h : Sound L size s)
    (hp : s.phase i = .tx frames) (answer : Answer) : Sound L size (s.turn L i answer) := by
  cases frames with
  | nil =>
    simp only [State.turn, hp]
    exact h.goto List.nil_suffix (by rw [hp]; exact fun _ _ ↦ rfl) (by rw [hp]; rfl)
      (by rw [hp]; rfl)
  | cons frame frames =>
    simp only [State.turn, hp]
    split
    · rename_i hlong
      refine h.goto List.nil_suffix (fun b _ ↦ ?_) (by rw [hp]; rfl) (by rw [hp]; rfl)
      rw [hp]
      exact (fitting_cons_of_lt hlong frames).symm
    · rename_i hfits
      refine h.goto (List.suffix_refl _) (fun b hb ↦ ?_) (by rw [hp]; rfl) (by rw [hp]; rfl)
      rw [hp]
      simp only [Phase.unsent, if_pos hb, fitting_cons_of_le (Nat.not_lt.1 hfits),
        List.singleton_append]

/-- `tx_virtqueue_forward`. -/
theorem Sound.turn_forward {frame : List Byte} {rest : List ν} {frames : List (List Byte)}
    (h : Sound L size s) (hp : s.phase i = .forward frame rest frames)
    (hen : Enabled s (.turn i answer)) : Sound L size (s.turn L i answer) := by
  have htoGo : rest <:+ L.nodes i := h.toGo_of hp
  cases rest with
  | nil =>
    simp only [State.turn, hp]
    exact h.goto List.nil_suffix (by rw [hp]; exact fun _ _ ↦ rfl) (by rw [hp]; rfl)
      (by rw [hp]; rfl)
  | cons node rest =>
    have hnotin : node ∉ rest := (List.nodup_cons.1 (htoGo.sublist.nodup (L.nodup i))).1
    have hbalanced := (h.balanced i node).offer frame answer fun n hn ↦ by
      subst hn
      simpa [State.hasRoom, hp] using hen.2
    rw [hp] at hbalanced
    simp only [State.turn, hp]
    refine h.send (htoGo.subset (List.mem_cons_self ..)) ?_ ?_ (fun b hb ↦ ?_) (fun b hb ↦ ?_) ?_ ?_
    all_goals try rw [hp]
    all_goals cases answer
    · exact htoGo
    · exact (List.suffix_cons node rest).trans htoGo
    · simp [Link.offer, Answer.isOk, Phase.unsent, hnotin]
    · simp [Link.offer, Answer.isOk, Phase.unsent, hnotin]
    · simp [Answer.isOk, Phase.unsent, hb]
    · simp [Answer.isOk, Phase.unsent, hb]
    · simp [Answer.isOk, Phase.sender, hb]
    · rfl
    · rfl
    · rfl
    · simpa [Phase.sender, Answer.isOk] using hbalanced
    · exact hbalanced

theorem Sound.turn_notifySend {frame : List Byte} {node : ν} {rest : List ν}
    {frames : List (List Byte)} (h : Sound L size s)
    (hp : s.phase i = .notifySend frame node rest frames) (answer : Answer) :
    Sound L size (s.turn L i answer) := by
  have htoGo : node :: rest <:+ L.nodes i := h.toGo_of hp
  have hbalanced := (h.notify node).balanced i node
  rw [notify_phase, hp] at hbalanced
  simp only [State.turn, hp]
  rw [← setLink_self (s.notify node) i node]
  refine (h.notify node).send (htoGo.subset (List.mem_cons_self ..))
    ((List.suffix_cons node rest).trans htoGo) (by rw [notify_phase, hp]; rfl)
    (fun b _ ↦ by rw [notify_phase, hp]; rfl) (fun b hb ↦ ?_) (by rw [notify_phase, hp]; rfl) ?_
  · rw [notify_phase, hp]
    simp [Phase.sender, hb]
  · exact hbalanced.mono rfl rfl (fun _ _ ↦ .inl (by simp [notify_pending])) fun _ ↦ id

/-- `virtio_net_notify`, at a node from which frames may have come. -/
theorem Sound.turn_poll {rest : List ν} (h : Sound L size s) (hp : s.phase i = .poll rest)
    (answer : Answer) : Sound L size (s.turn L i answer) := by
  have htoGo : rest <:+ L.nodes i := h.toGo_of hp
  cases rest with
  | nil =>
    simp only [State.turn, hp]
    exact h.goto List.nil_suffix (by rw [hp]; exact fun _ _ ↦ rfl) (by rw [hp]; rfl)
      (by rw [hp]; rfl)
  | cons node rest =>
    have hbalanced := h.balanced node i
    rw [hp] at hbalanced
    simp only [State.turn, hp]
    split
    · rename_i hnil
      rw [← setLink_self s node i]
      refine h.receive (htoGo.subset (List.mem_cons_self ..)) htoGo rfl (by rw [hp]; rfl)
        (by rw [hp]; rfl) (fun a ha ↦ ?_) ?_
      · simp [hp, Phase.receiver, ha]
      · exact hbalanced.mono rfl rfl (fun hne ↦ absurd hnil hne) fun _ ↦ id
    · exact h.goto htoGo (by rw [hp]; exact fun _ _ ↦ rfl) (by rw [hp]; rfl) (by rw [hp]; rfl)

/-- `virtio_net_notify_recv`, at the head of its loop. -/
theorem Sound.turn_recv {node : ν} {rest : List ν} (h : Sound L size s)
    (hp : s.phase i = .recv node rest) (answer : Answer) : Sound L size (s.turn L i answer) := by
  have htoGo : node :: rest <:+ L.nodes i := h.toGo_of hp
  have hnode : node ∈ L.nodes i := htoGo.subset (List.mem_cons_self ..)
  have hbalanced := h.balanced node i
  rw [hp] at hbalanced
  simp only [State.turn, hp]
  cases hget : (s.link node i).queue.getAvailable with
  | none =>
    have hnil := getAvailable_eq_none_iff.1 hget
    dsimp only
    rw [← setLink_self s node i]
    refine h.receive hnode htoGo rfl (by rw [hp]; rfl) (by rw [hp]; rfl) (fun a ha ↦ ?_) ?_
    · simp [hp, Phase.receiver, ha]
    · exact hbalanced.mono rfl rfl (fun hne ↦ absurd hnil hne) fun _ ↦ id
  | some taken =>
    obtain ⟨entry, queue⟩ := taken
    refine h.receive hnode htoGo rfl (by rw [hp]; rfl) (by rw [hp]; rfl) (fun a ha ↦ ?_) ?_
    · simp [hp, Phase.receiver, ha]
    · have htake := hbalanced.take rfl (by simp [Phase.receiver]) hget
      simpa [Phase.receiver] using htake

/-- The frames in the queues are not too long. -/
theorem Sound.length_le (h : Sound L size s) {a b : ν} {frame : List Byte}
    (hframe : frame ∈ (s.link a b).accepted) : frame.length ≤ maxMtu := by
  obtain ⟨offer, hoffer, rfl⟩ := List.mem_map.1 hframe
  have hmem : offer.1 ∈ (s.link a b).offered.map Prod.fst :=
    List.mem_map_of_mem (List.mem_of_mem_filter hoffer)
  by_cases hab : b ∈ L.nodes a
  · refine h.fits a _ ?_
    rw [← h.offered a b hab]
    exact List.mem_append_left _ hmem
  · rw [h.apart a b hab] at hmem
    exact nomatch hmem

/-- `virtio_net_notify_recv`, with an entry in hand. -/
theorem Sound.turn_gather {entry : Entry (List Byte)} {node : ν} {rest : List ν}
    (h : Sound L size s) (hp : s.phase i = .gather entry node rest) (answer : Answer) :
    Sound L size (s.turn L i answer) := by
  have htoGo : node :: rest <:+ L.nodes i := h.toGo_of hp
  have hbalanced := h.balanced node i
  rw [hp] at hbalanced
  have hheld : ((Phase.gather entry node rest).receiver node).held = [entry] := if_pos rfl
  have hfits : entry.data.length ≤ maxMtu := by
    refine h.length_le (a := node) (b := i) ?_
    rw [← hbalanced.handled, hheld]
    simp
  have hover : (s.overrun || decide (maxMtu < entry.data.length)) = s.overrun := by
    rw [h.intact, Bool.false_or, decide_eq_false (Nat.not_lt.2 hfits)]
  have hgather := hbalanced.gather hheld rfl answer
  simp only [State.turn, hp]
  rw [hover]
  refine h.receive (htoGo.subset (List.mem_cons_self ..)) ?_ ?_ ?_ ?_ (fun a ha ↦ ?_) ?_
  all_goals try rw [hp]
  · cases answer <;> exact htoGo
  · rcases answer with n | _ | _ <;> rfl
  · cases answer <;> rfl
  · cases answer <;> rfl
  · cases answer <;> simp [Answer.isOk, Phase.receiver, ha]
  · cases answer <;> simpa [Answer.isOk, Phase.receiver] using hgather

/-- `virtio_net_notify_recv`, with a frame in `emul_buf`. -/
theorem Sound.turn_rx {frame : List Byte} {node : ν} {rest : List ν} (h : Sound L size s)
    (hp : s.phase i = .rx frame node rest) (answer : Answer) :
    Sound L size (s.turn L i answer) := by
  have htoGo : node :: rest <:+ L.nodes i := h.toGo_of hp
  have hbalanced := h.balanced node i
  rw [hp] at hbalanced
  have hrx := hbalanced.rx (if_pos rfl) rfl (by simp [Phase.receiver]) answer
  simp only [State.turn, hp]
  refine h.receive (htoGo.subset (List.mem_cons_self ..)) htoGo (by cases answer <;> rfl)
    (by rw [hp]; rfl) (by rw [hp]; rfl) (fun a ha ↦ ?_) hrx
  simp [hp, Phase.receiver, ha]

theorem Sound.turn_notifyRecv {node : ν} {rest : List ν} (h : Sound L size s)
    (hp : s.phase i = .notifyRecv node rest) (answer : Answer) :
    Sound L size (s.turn L i answer) := by
  have htoGo : node :: rest <:+ L.nodes i := h.toGo_of hp
  have hbalanced := (h.notify node).balanced node i
  rw [notify_phase, hp] at hbalanced
  simp only [State.turn, hp]
  rw [← setLink_self (s.notify node) node i]
  refine (h.notify node).receive (htoGo.subset (List.mem_cons_self ..)) htoGo rfl
    (by rw [notify_phase, hp]; rfl) (by rw [notify_phase, hp]; rfl) (fun a ha ↦ ?_) ?_
  · rw [notify_phase, hp]
    simp [Phase.receiver, ha]
  · exact hbalanced.mono rfl rfl (fun _ ↦ id) fun _ _ ↦ .inl (by simp [notify_pending])

/-- `virtio_net_notify`, at a node that may have put entries on the used ring. -/
theorem Sound.turn_pollSend {node : ν} {rest : List ν} (h : Sound L size s)
    (hp : s.phase i = .pollSend node rest) (answer : Answer) :
    Sound L size (s.turn L i answer) := by
  have htoGo : node :: rest <:+ L.nodes i := h.toGo_of hp
  have hbalanced := h.balanced i node
  rw [hp] at hbalanced
  simp only [State.turn, hp]
  split
  · rename_i hnil
    rw [← setLink_self s i node]
    refine h.send (htoGo.subset (List.mem_cons_self ..)) ((List.suffix_cons node rest).trans htoGo)
      (by rw [hp]; rfl) (fun b _ ↦ by rw [hp]; rfl) (fun b hb ↦ ?_) (by rw [hp]; rfl) ?_
    · simp [hp, Phase.sender, hb]
    · exact hbalanced.mono rfl rfl (fun _ ↦ id) fun hne ↦ absurd hnil hne
  · exact h.goto htoGo (by rw [hp]; exact fun _ _ ↦ rfl) (by rw [hp]; rfl) (by rw [hp]; rfl)

/-- `virtio_net_notify_free_send`. -/
theorem Sound.turn_freeSend {node : ν} {rest : List ν} (h : Sound L size s)
    (hp : s.phase i = .freeSend node rest) (answer : Answer) :
    Sound L size (s.turn L i answer) := by
  have htoGo : node :: rest <:+ L.nodes i := h.toGo_of hp
  have hnode : node ∈ L.nodes i := htoGo.subset (List.mem_cons_self ..)
  have hbalanced := h.balanced i node
  rw [hp] at hbalanced
  simp only [State.turn, hp]
  cases hget : (s.link i node).queue.reclaim with
  | none =>
    have hnil := reclaim_eq_none_iff.1 hget
    dsimp only
    rw [← setLink_self s i node]
    refine h.send hnode ((List.suffix_cons node rest).trans htoGo) (by rw [hp]; rfl)
      (fun b _ ↦ by rw [hp]; rfl) (fun b hb ↦ ?_) (by rw [hp]; rfl) ?_
    · simp [hp, Phase.sender, hb]
    · exact hbalanced.mono rfl rfl (fun _ ↦ id) fun hne ↦ absurd hnil hne
  | some queue =>
    dsimp only
    rw [← goto_self (s.setLink i node _) hp]
    refine h.send hnode htoGo (by rw [hp]) (fun b _ ↦ by rw [hp]) (fun b _ ↦ by rw [hp])
      (by rw [hp]) (hbalanced.reclaim (by simp [Phase.sender]) hget)

/-- **A VMM that goes on keeps the books.** -/
theorem Sound.turn (h : Sound L size s) (hen : Enabled s (.turn i answer)) :
    Sound L size (s.turn L i answer) := by
  cases hp : s.phase i with
  | idle => exact absurd hp hen.1
  | tx frames => exact h.turn_tx hp answer
  | forward frame rest frames => exact h.turn_forward hp hen
  | notifySend frame node rest frames => exact h.turn_notifySend hp answer
  | poll rest => exact h.turn_poll hp answer
  | recv node rest => exact h.turn_recv hp answer
  | gather entry node rest => exact h.turn_gather hp answer
  | rx frame node rest => exact h.turn_rx hp answer
  | notifyRecv node rest => exact h.turn_notifyRecv hp answer
  | pollSend node rest => exact h.turn_pollSend hp answer
  | freeSend node rest => exact h.turn_freeSend hp answer

/-- Something in a queue is between two VMMs that are connected. -/
theorem Sound.mem_of_ne_empty (h : Sound L size s) {a b : ν}
    (hne : (s.link a b).queue ≠ .empty (size a b)) : b ∈ L.nodes a := by
  by_contra hab
  rw [h.apart a b hab] at hne
  exact hne rfl

/-- **A VMM that takes its notification** is going to look at all its queues. -/
theorem Sound.wake (h : Sound L size s) (hen : Enabled s (.wake i)) :
    Sound L size (next L s (.wake i)) where
  toGo := toGo_goto h.toGo (List.suffix_refl _)
  apart := h.apart
  offered a b hab := by
    have hunsent : ((s.goto i (.poll (L.nodes i))).phase a).unsent = (s.phase a).unsent :=
      goto_phase_congr Phase.unsent (by rw [hen.1]; rfl) a
    exact (congrArg (_ ++ · b) hunsent).trans (h.offered a b hab)
  balanced a b := by
    have hheld := goto_phase_congr (s := s) (i := i) (p := .poll (L.nodes i))
      (fun p ↦ (p.receiver a).held) (by rw [hen.1]; rfl) b
    have hcopied := goto_phase_congr (s := s) (i := i) (p := .poll (L.nodes i))
      (fun p ↦ (p.receiver a).copied) (by rw [hen.1]; rfl) b
    refine (h.balanced a b).mono hheld hcopied (fun hne hseen ↦ ?_) fun hne hseen ↦ ?_
    · have hab : b ∈ L.nodes a := h.mem_of_ne_empty fun heq ↦ hne (by rw [heq]; rfl)
      change Function.update s.pending i false b = true ∨
        (((s.goto i _).phase a).sender b).notifies = true ∨
          (((s.goto i _).phase b).receiver a).receives = true
      rw [goto_phase, goto_phase]
      by_cases hbi : b = i
      · subst hbi
        exact .inr (.inr (by simpa [Phase.receiver] using L.symm hab))
      · by_cases hai : a = i
        · subst hai
          rw [hen.1] at hseen
          simpa [hbi, Phase.sender] using hseen
        · simpa [hbi, hai] using hseen
    · have hab : b ∈ L.nodes a := h.mem_of_ne_empty fun heq ↦ hne (by rw [heq]; rfl)
      change Function.update s.pending i false a = true ∨
        (((s.goto i _).phase b).receiver a).notifies = true ∨
          (((s.goto i _).phase a).sender b).frees = true
      rw [goto_phase, goto_phase]
      by_cases hai : a = i
      · subst hai
        exact .inr (.inr (by simpa [Phase.sender] using hab))
      · by_cases hbi : b = i
        · subst hbi
          rw [hen.1] at hseen
          simpa [hai, Phase.receiver] using hseen
        · simpa [hbi, hai] using hseen
  fits := h.fits
  intact := h.intact

/-- **A VMM whose guest has frames** has them to send. -/
theorem Sound.tx (h : Sound L size s) {frames : List (List Byte)}
    (hen : Enabled s (.tx i frames)) : Sound L size (next L s (.tx i frames)) where
  toGo := toGo_goto h.toGo List.nil_suffix
  apart := h.apart
  offered a b hab := by
    have hidle : s.phase i = .idle := hen
    have hoffered := h.offered a b hab
    change (s.link a b).offered.map Prod.fst ++ ((s.goto i (.tx frames)).phase a).unsent b =
      Function.update s.sent i (s.sent i ++ fitting frames) a
    rw [goto_phase]
    by_cases hai : a = i
    · subst hai
      rw [hidle] at hoffered
      simp only [if_true, Function.update_self, ← hoffered]
      simp [Phase.unsent]
    · simpa [hai] using hoffered
  balanced a b := by
    have hidle : s.phase i = .idle := hen
    have hsender := goto_phase_congr (s := s) (i := i) (p := .tx frames) Phase.sender
      (by rw [hidle]; rfl) a
    have hreceiver := goto_phase_congr (s := s) (i := i) (p := .tx frames) Phase.receiver
      (by rw [hidle]; rfl) b
    have hbalanced := h.balanced a b
    rw [← hsender, ← hreceiver] at hbalanced
    exact hbalanced
  fits a frame hframe := by
    change frame ∈ Function.update s.sent i (s.sent i ++ fitting frames) a at hframe
    by_cases hai : a = i
    · subst hai
      rw [Function.update_self, List.mem_append] at hframe
      rcases hframe with hold | hnew
      · exact h.fits a frame hold
      · simpa using List.mem_takeWhile_imp (p := fun frame : List Byte ↦ frame.length ≤ maxMtu) hnew
    · rw [Function.update_of_ne hai] at hframe
      exact h.fits a frame hframe
  intact := h.intact

theorem sound_initial (L : Layout ν) (size : ν → ν → ℕ) : Sound L size (.initial size) where
  toGo _ := List.nil_suffix
  apart _ _ _ := rfl
  offered _ _ _ := rfl
  balanced _ _ := ⟨rfl, rfl, fun hne ↦ absurd rfl hne, fun hne ↦ absurd rfl hne⟩
  fits _ _ hframe := nomatch hframe
  intact := rfl

/-- **Every step keeps the books.** -/
theorem Sound.next (h : Sound L size s) {a : Label ν} (hen : Enabled s a) :
    Sound L size (next L s a) := by
  cases a with
  | tx i frames => exact h.tx hen
  | wake i => exact h.wake hen
  | turn i answer => exact h.turn hen

/-- **The books balance all the time.** -/
theorem sound_of_run {as : List (Label ν)} {t : State ν}
    (h : Run (Does Enabled (next L)) (.initial size) as t) : Sound L size t :=
  h.invariant (sound_initial L size) fun _ _ _ hs hstep ↦ hstep.2 ▸ hs.next hstep.1

/-! ## The loop of `tx_virtqueue_forward` as a whole -/

/-- What a call of `tx_virtqueue_forward` does to a queue; `descs` are the descriptors it takes. -/
def State.apply (i : ν) (descs : ν → ℕ) (s : State ν) : Effect ν → State ν
  | .enqueue node bytes => s.setLink i node ((s.link i node).offer bytes (.ok (descs node)))
  | .notify node => s.notify node

/-- The queues and the notifications are the same. -/
def SameQueues (s t : State ν) : Prop :=
  (∀ a b, (s.link a b).queue = (t.link a b).queue) ∧ s.pending = t.pending

theorem SameQueues.apply {t : State ν} (h : SameQueues s t) (i : ν) (descs : ν → ℕ)
    (effect : Effect ν) : SameQueues (s.apply i descs effect) (t.apply i descs effect) := by
  cases effect with
  | enqueue node bytes =>
    refine ⟨fun a b ↦ ?_, h.2⟩
    rw [State.apply, State.apply, setLink_link, setLink_link]
    split
    · rw [Link.offer, Link.offer, h.1]
    · exact h.1 a b
  | notify node =>
    refine ⟨h.1, ?_⟩
    rw [State.apply, State.apply, State.notify, State.notify, h.2]

theorem SameQueues.foldl_apply {t : State ν} (h : SameQueues s t) (i : ν) (descs : ν → ℕ)
    (effects : List (Effect ν)) :
    SameQueues (effects.foldl (State.apply i descs) s) (effects.foldl (State.apply i descs) t) := by
  induction effects generalizing s t with
  | nil => exact h
  | cons effect effects ih => exact ih (h.apply i descs effect)

/-- The turn for a node whose queue takes nothing. -/
theorem turn_forward_error {data : List Byte} {node : ν} {nodes : List ν}
    {frames : List (List Byte)} (hp : s.phase i = .forward data (node :: nodes) frames) :
    (s.turn L i (.error true)).phase i = .forward data nodes frames ∧
      SameQueues (s.turn L i (.error true)) s := by
  have hturn : s.turn L i (.error true) =
      (s.setLink i node ((s.link i node).offer data (.error true))).goto i
        (.forward data nodes frames) := by
    simp only [State.turn, hp]
    rfl
  rw [hturn]
  refine ⟨Function.update_self .., fun a b ↦ ?_, rfl⟩
  rw [goto_link, setLink_link]
  split
  · rename_i hab
    rw [hab.1, hab.2]
    rfl
  · rfl

/-- The two turns for a node whose queue takes the frame. -/
theorem turn_forward_ok {frame : Frame} {node : ν} {nodes : List ν} {frames : List (List Byte)}
    (descs : ν → ℕ) (hp : s.phase i = .forward frame.bytes (node :: nodes) frames) :
    ((s.turn L i (.ok (descs node))).turn L i (.ok 0)).phase i =
        .forward frame.bytes nodes frames ∧
      SameQueues ((s.turn L i (.ok (descs node))).turn L i (.ok 0))
        ((copyTo frame node).foldl (State.apply i descs) s) := by
  have hsent : s.turn L i (.ok (descs node)) =
      (s.setLink i node ((s.link i node).offer frame.bytes (.ok (descs node)))).goto i
        (.notifySend frame.bytes node nodes frames) := by
    simp only [State.turn, hp]
    rfl
  have hphase : (s.turn L i (.ok (descs node))).phase i =
      .notifySend frame.bytes node nodes frames := by
    rw [hsent]
    exact Function.update_self ..
  have hnotified : (s.turn L i (.ok (descs node))).turn L i (.ok 0) =
      ((s.turn L i (.ok (descs node))).notify node).goto i (.forward frame.bytes nodes frames) := by
    rw [State.turn]
    simp only [hphase]
  rw [hnotified, hsent]
  exact ⟨Function.update_self .., fun _ _ ↦ rfl, rfl⟩

/-- The turns of the loop for some nodes. -/
theorem foldl_turn_forward {frame : Frame} {frames : List (List Byte)} (rejects : ν → Bool)
    (descs : ν → ℕ) (nodes : List ν) (hp : s.phase i = .forward frame.bytes nodes frames) :
    ∃ answers : List Answer, ((answers.map (Label.turn i)).foldl (Network.next L) s).phase i =
        .forward frame.bytes [] frames ∧
      SameQueues ((answers.map (Label.turn i)).foldl (Network.next L) s)
        (((nodes.filter fun node ↦ !rejects node).flatMap (copyTo frame)).foldl
          (State.apply i descs) s) := by
  induction nodes generalizing s with
  | nil => exact ⟨[], hp, fun _ _ ↦ rfl, rfl⟩
  | cons node nodes ih =>
    cases hrejects : rejects node with
    | true =>
      obtain ⟨hturn, hsame⟩ := turn_forward_error (L := L) hp
      obtain ⟨answers, hphase, hqueues⟩ := ih hturn
      refine ⟨.error true :: answers, hphase, ?_⟩
      rw [List.filter_cons_of_neg (by simp [hrejects])]
      have hrest := hsame.foldl_apply i descs
        ((nodes.filter fun node ↦ !rejects node).flatMap (copyTo frame))
      exact ⟨fun a b ↦ (hqueues.1 a b).trans (hrest.1 a b), hqueues.2.trans hrest.2⟩
    | false =>
      obtain ⟨hturn, hsame⟩ := turn_forward_ok (L := L) descs hp
      obtain ⟨answers, hphase, hqueues⟩ := ih hturn
      refine ⟨.ok (descs node) :: .ok 0 :: answers, hphase, ?_⟩
      rw [List.filter_cons_of_pos (by simp [hrejects]), List.flatMap_cons, List.foldl_append]
      have hrest := hsame.foldl_apply i descs
        ((nodes.filter fun node ↦ !rejects node).flatMap (copyTo frame))
      exact ⟨fun a b ↦ (hqueues.1 a b).trans (hrest.1 a b), hqueues.2.trans hrest.2⟩

/-- **The turns make up the call**: there are answers with which the steps of the loop do to the
queues what `txVirtqueueForward` says. -/
theorem foldl_turn_txVirtqueueForward {V : Vswitch ν} {frame : Frame} {frames : List (List Byte)}
    (hnodes : visited V V.nConnected 0 = L.nodes i) (rejects : ν → Bool) (descs : ν → ℕ)
    (hp : s.phase i = .forward frame.bytes (L.nodes i) frames) :
    ∃ answers : List Answer, ((answers.map (Label.turn i)).foldl (Network.next L) s).phase i =
        .forward frame.bytes [] frames ∧
      SameQueues ((answers.map (Label.turn i)).foldl (Network.next L) s)
        ((txVirtqueueForward V rejects frame).foldl (State.apply i descs) s) := by
  rw [txVirtqueueForward, txVirtqueueForwardNodes_eq, hnodes]
  exact foldl_turn_forward rejects descs _ hp

/-! ## At rest -/

/-- Nobody has anything to do. -/
def State.AtRest (s : State ν) : Prop := ∀ i, s.phase i = .idle ∧ s.pending i = false

instance [Fintype ν] (s : State ν) : Decidable s.AtRest :=
  inferInstanceAs (Decidable (∀ i, s.phase i = .idle ∧ s.pending i = false))

/-- Nobody who is asked says no. -/
def Succeeds : Label ν → Prop
  | .turn _ answer => answer.isOk = true
  | .tx _ _ | .wake _ => True

instance : (a : Label ν) → Decidable (Succeeds a)
  | .turn _ answer => inferInstanceAs (Decidable (answer.isOk = true))
  | .tx _ _ | .wake _ => inferInstanceAs (Decidable True)

/-- Two VMMs that are connected with each other. -/
def twoVmms : Layout Bool where
  nodes i := [!i]
  nodup _ := List.nodup_singleton _
  symm {i j} h := by
    rw [List.mem_singleton] at h ⊢
    rw [h, Bool.not_not]

/-- One VMM forwards a frame, the other one hands it to its guest, and the first one takes the
descriptor back. -/
def frameSteps : List (Label Bool) :=
  List.replicate 5 (.turn false (.ok 1)) ++ .wake true :: List.replicate 8 (.turn true (.ok 1)) ++
    .wake false :: List.replicate 5 (.turn false (.ok 1))

/-- The frame has arrived, and nobody has anything to do. -/
def arrived : State Bool :=
  (.tx false [[7]] :: frameSteps).foldl (Network.next twoVmms) (.initial fun _ _ ↦ 4)

theorem arrived_run :
    Run (Guarded (fun _ a ↦ Succeeds a) (Does Enabled (Network.next twoVmms)))
      (.initial fun _ _ ↦ 4) (.tx false [[7]] :: frameSteps) arrived :=
  run_guarded_foldl (by decide +kernel)

theorem delivered_sublist (l : Link) : l.delivered.Sublist (l.handled.map Prod.fst) :=
  (List.filter_sublist ..).map _

theorem accepted_sublist (l : Link) : l.accepted.Sublist (l.offered.map Prod.fst) :=
  (List.filter_sublist ..).map _

/-- **What holds all the time.**  A guest gets from another one what that one has sent, with gaps at
most; all descriptors are free, in the queue, in the receiver's hand or lost; and no frame is longer
than `emul_buf`, which `virtio_net_notify_recv` does not check. -/
theorem run_faithful {as : List (Label ν)} {t : State ν}
    (h : Run (Does Enabled (Network.next L)) (.initial size) as t) :
    t.overrun = false ∧ ∀ a b, (t.link a b).delivered.Sublist (t.sent a) ∧
      (t.link a b).queue.circulating + descs ((t.phase b).receiver a).held + (t.link a b).lost =
        size a b := by
  have hsound := sound_of_run h
  refine ⟨hsound.intact, fun a b ↦ ⟨?_, (hsound.balanced a b).conserved⟩⟩
  have haccepted : (t.link a b).delivered.Sublist (t.link a b).accepted := by
    rw [← (hsound.balanced a b).handled, List.append_assoc, List.append_assoc]
    exact (delivered_sublist _).trans (List.sublist_append_left ..)
  by_cases hab : b ∈ L.nodes a
  · rw [← hsound.offered a b hab]
    exact (haccepted.trans (accepted_sublist _)).trans (List.sublist_append_left ..)
  · rw [hsound.apart a b hab]
    exact List.nil_sublist _

/-- When a frame has arrived. -/
theorem run_faithful_arrived :
    arrived.overrun = false ∧ ∀ a b, (arrived.link a b).delivered.Sublist (arrived.sent a) ∧
      (arrived.link a b).queue.circulating + descs ((arrived.phase b).receiver a).held +
        (arrived.link a b).lost = 4 :=
  run_faithful (arrived_run.mono fun _ _ _ hs ↦ hs.2)

/-- At rest, the receiver is through with all frames that the queue has taken. -/
theorem Sound.handled_eq (h : Sound L size s) (hrest : s.AtRest) (a b : ν) :
    (s.link a b).handled.map Prod.fst = (s.link a b).accepted ∧
      (s.link a b).queue.available = [] := by
  have hbalanced := h.balanced a b
  rw [(hrest a).1, (hrest b).1, (hrest b).2] at hbalanced
  have havailable : (s.link a b).queue.available = [] := by
    by_contra hne
    simpa [Phase.sender, Phase.receiver] using hbalanced.waiting hne
  refine ⟨?_, havailable⟩
  rw [← hbalanced.handled]
  simp [Phase.receiver, Queue.messages, havailable]

/-- At rest, the sender has offered all frames to the queues. -/
theorem Sound.offered_eq (h : Sound L size s) (hrest : s.AtRest) {a b : ν} (hab : b ∈ L.nodes a) :
    (s.link a b).offered.map Prod.fst = s.sent a := by
  have hoffered := h.offered a b hab
  rw [(hrest a).1] at hoffered
  simpa [Phase.unsent] using hoffered

/-- At rest, the descriptors are free, unless the sender was not told of the last one. -/
theorem Sound.free_eq (h : Sound L size s) (hrest : s.AtRest) {a b : ν}
    (hlast : ¬ (s.link a b).unannounced) :
    (s.link a b).queue.used = [] ∧ (s.link a b).queue.free + (s.link a b).lost = size a b := by
  have hbalanced := h.balanced a b
  rw [(hrest a).1, (hrest b).1, (hrest a).2] at hbalanced
  have hused : (s.link a b).queue.used = [] := by
    by_contra hne
    have hseen := hbalanced.used hne
    simp only [Phase.sender, Phase.receiver] at hseen
    tauto
  refine ⟨hused, ?_⟩
  rw [← hbalanced.conserved]
  simp [Queue.circulating, (h.handled_eq hrest a b).2, hused, Phase.receiver]

/-- **What has become of everything, whenever the network is at rest.**  Each frame a guest has sent
was offered once to the queue of each node, and each frame a queue has taken was handled once by its
receiver, in the order in which they were sent.  No frame is left in a queue.  Unless the last frame
could not be gathered, no used entry is left either, and the sender has all descriptors back that
got to the used ring. -/
theorem run_settled {as : List (Label ν)} {t : State ν}
    (h : Run (Does Enabled (Network.next L)) (.initial size) as t) (hrest : t.AtRest) {a b : ν}
    (hab : b ∈ L.nodes a) :
    (t.link a b).offered.map Prod.fst = t.sent a ∧
      (t.link a b).handled.map Prod.fst = (t.link a b).accepted ∧
      (t.link a b).queue.available = [] ∧
      ((∀ frame, (t.link a b).handled.getLast? ≠ some (frame, .ungathered)) →
        (t.link a b).queue.used = [] ∧
          (t.link a b).queue.free + (t.link a b).lost = size a b) := by
  have hsound := sound_of_run h
  obtain ⟨hhandled, havailable⟩ := hsound.handled_eq hrest a b
  refine ⟨hsound.offered_eq hrest hab, hhandled, havailable, fun hlast ↦ ?_⟩
  exact hsound.free_eq hrest fun ⟨frame, hframe⟩ ↦ hlast frame hframe

/-- When the frame has arrived. -/
theorem run_settled_arrived :
    (arrived.link false true).offered.map Prod.fst = arrived.sent false ∧
      (arrived.link false true).handled.map Prod.fst = (arrived.link false true).accepted ∧
      (arrived.link false true).queue.available = [] ∧
      ((∀ frame, (arrived.link false true).handled.getLast? ≠ some (frame, .ungathered)) →
        (arrived.link false true).queue.used = [] ∧
          (arrived.link false true).queue.free + (arrived.link false true).lost = 4) :=
  run_settled (arrived_run.mono fun _ _ _ hs ↦ hs.2) (by decide +kernel) (by decide)

/-! ## When nothing fails -/

/-- No frame has been dropped and no descriptor lost. -/
structure Link.Lossless (l : Link) : Prop where
  /-- The queue took all frames. -/
  offered : ∀ offer ∈ l.offered, offer.2 = true
  /-- The receiver handed all frames over. -/
  handled : ∀ frame ∈ l.handled, frame.2 = .delivered
  /-- All descriptors came back. -/
  lost : l.lost = 0

theorem Link.Lossless.offer {l : Link} (h : l.Lossless) (frame : List Byte) (n : ℕ) :
    (l.offer frame (.ok n)).Lossless where
  offered offer hoffer := by
    rcases List.mem_append.1 hoffer with hold | hnew
    · exact h.offered offer hold
    · rw [List.mem_singleton.1 hnew]
  handled := h.handled
  lost := h.lost

theorem Link.Lossless.gather {l : Link} (h : l.Lossless) (entry : Entry (List Byte)) (n : ℕ) :
    (l.gather entry (.ok n)).Lossless :=
  ⟨h.offered, h.handled, h.lost⟩

theorem Link.Lossless.rx {l : Link} (h : l.Lossless) (frame : List Byte) (n : ℕ) :
    (l.rx frame (.ok n)).Lossless where
  offered := h.offered
  handled handled hhandled := by
    rcases List.mem_append.1 hhandled with hold | hnew
    · exact h.handled handled hold
    · rw [List.mem_singleton.1 hnew]
  lost := h.lost

theorem Link.Lossless.queue {l : Link} (h : l.Lossless) (queue : Queue (List Byte)) :
    Link.Lossless { l with queue := queue } :=
  ⟨h.offered, h.handled, h.lost⟩

theorem lossless_setLink (h : ∀ a b, (s.link a b).Lossless) {i j : ν} {l : Link} (hl : l.Lossless)
    (a b : ν) : ((s.setLink i j l).link a b).Lossless := by
  rw [setLink_link]
  split
  · exact hl
  · exact h a b

/-- **A VMM that is not told no loses nothing.** -/
theorem lossless_turn (h : ∀ a b, (s.link a b).Lossless) (n : ℕ) :
    ∀ a b, ((s.turn L i (.ok n)).link a b).Lossless := by
  rw [State.turn]
  split
  · exact h
  · exact h
  · split <;> exact h
  · exact h
  · exact lossless_setLink h ((h ..).offer ..)
  · exact h
  · exact h
  · exact h
  · split
    · exact h
    · exact lossless_setLink h ((h ..).queue _)
  · exact lossless_setLink h ((h ..).gather ..)
  · exact lossless_setLink h ((h ..).rx ..)
  · exact h
  · exact h
  · split
    · exact h
    · exact lossless_setLink h ((h ..).queue _)

/-- **When nothing fails nothing is lost.**  At rest, every guest has got what every guest it is
connected to has sent, frame by frame and in order, and all descriptors are free. -/
theorem run_delivered {as : List (Label ν)} {t : State ν}
    (h : Run (Guarded (fun _ a ↦ Succeeds a) (Does Enabled (Network.next L))) (.initial size) as t)
    (hrest : t.AtRest) {a b : ν} (hab : b ∈ L.nodes a) :
    (t.link a b).delivered = t.sent a ∧ (t.link a b).queue = .empty (size a b) := by
  have hlossless : ∀ a b, (t.link a b).Lossless := by
    refine h.invariant_guarded (I := fun s ↦ ∀ a b, (s.link a b).Lossless)
      (fun _ _ ↦ ⟨nofun, nofun, rfl⟩) ?_
    rintro s a _ hs hsucceeds ⟨-, rfl⟩
    cases a with
    | tx i frames => exact hs
    | wake i => exact hs
    | turn i answer =>
      cases answer with
      | ok n => exact lossless_turn hs n
      | error returned => exact nomatch hsucceeds
  have hsound := sound_of_run (h.mono fun _ _ _ hs ↦ hs.2)
  obtain ⟨hhandled, havailable⟩ := hsound.handled_eq hrest a b
  have haccepted : (t.link a b).accepted = (t.link a b).offered.map Prod.fst :=
    congrArg _ (List.filter_eq_self.2 (hlossless a b).offered)
  have hdelivered : (t.link a b).delivered = (t.link a b).handled.map Prod.fst :=
    congrArg _ (List.filter_eq_self.2 fun frame hframe ↦
      decide_eq_true ((hlossless a b).handled frame hframe))
  obtain ⟨hused, hfree⟩ := hsound.free_eq hrest (a := a) (b := b) fun ⟨frame, hframe⟩ ↦
    nomatch (hlossless a b).handled _ (List.mem_of_getLast? hframe)
  refine ⟨?_, ?_⟩
  · rw [hdelivered, hhandled, haccepted, hsound.offered_eq hrest hab]
  · rw [(hlossless a b).lost, Nat.add_zero] at hfree
    rw [Queue.empty, ← hfree]
    calc (t.link a b).queue
        = ⟨(t.link a b).queue.free, (t.link a b).queue.available, (t.link a b).queue.used⟩ := rfl
      _ = ⟨(t.link a b).queue.free, [], []⟩ := by rw [havailable, hused]

/-- When the frame has arrived. -/
theorem run_delivered_arrived : (arrived.link false true).delivered = arrived.sent false ∧
    (arrived.link false true).queue = .empty 4 :=
  run_delivered arrived_run (by decide +kernel) (by decide)

end

end Network
end VirtioNet
end CamkesVm
