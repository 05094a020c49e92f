import CamkesVm.Ethernet.Driver
import CamkesVm.Lib.Transition

/-!
# Sending while the link is down

The threads of the `UDPServer` share lwIP, whose lock they take, and one dataport to the driver.
`raw_tx` gathers a frame in the dataport and calls `ethdriver_tx`.  While that fails, it gives the
lock away and takes it again, for others to go on, and then tries the same length again.

Whoever has the lock in between may send a frame of its own, or fetch one in `raw_poll`, and both go
through the same dataport.  So a frame that is tried again need not be there any more.
`run_sendsRight` says what does hold: what a first attempt puts on the network is right, and so is
what later ones do unless another thread has used the dataport in the meantime.

## What is here

* `Outgoing`, `Thread` — a frame in a thread's hands, with what was to be sent, and where the thread
  is: with the lock or without it.
* `UdpServer`, `Step`, `CanStep` — the server: driver, dataport, lock and threads, and one step of
  one thread. `lwip_lock` returns only while nobody has the lock.
* `UdpServer.poll`, `UdpServer.transmit`, `UdpServer.attempt`, `UdpServer.relock` — the functions of
  the source, `raw_tx` cut at its calls.
* `Exclusive`, `Stored`, `Orderly` — the invariant, in three parts: the lock, the frames, and what
  was sent.
* `run_sendsRight`, `run_sendsRight_bothSent` — every run, and one in which a frame is overtaken.

The threads are of any type, so there may be any number of them.
-/

set_option autoImplicit false

namespace CamkesVm
namespace Ethernet

open Transition

/-! ## The threads -/

/-- A frame that a thread is sending. -/
structure Outgoing where
  /-- What lwIP wants to send. -/
  data : List Byte
  /-- `total_len`. -/
  totalLen : ℕ
  /-- An attempt has failed. -/
  retried : Bool
  /-- The dataport has been used by another thread since it was stored there. -/
  disturbed : Bool
  deriving DecidableEq

/-- Where a thread is. -/
inductive Thread
  /-- Without the lock, and not about to send. -/
  | outside
  /-- In lwIP, with the lock. -/
  | inside
  /-- In `raw_tx`, with the lock, about to call `ethdriver_tx`. -/
  | trying (frame : Outgoing)
  /-- In `raw_tx`, between `lwip_unlock` and `lwip_lock`. -/
  | waiting (frame : Outgoing)
  deriving DecidableEq

/-- A frame that has been sent, and what was put on the network for it. -/
structure SentFrame where
  /-- The frame. -/
  frame : Outgoing
  /-- What the driver was given. -/
  wire : List Byte
  deriving DecidableEq

/-- The `UDPServer`, with threads `τ`. -/
structure UdpServer (τ σ : Type) where
  /-- The driver. -/
  driver : σ
  /-- The dataport `ethdriver_buf`. -/
  buf : Dataport
  /-- The lock is taken. -/
  locked : Bool
  /-- The threads. -/
  thread : τ → Thread
  /-- The frames that have been sent. -/
  log : List SentFrame

/-- At the start. -/
def UdpServer.initial {τ σ : Type} (driver : σ) (buf : Dataport) : UdpServer τ σ :=
  ⟨driver, buf, false, fun _ ↦ .outside, []⟩

/-- What a thread does next. -/
inductive Step (τ : Type)
  /-- `lwip_lock`, of a thread that is not sending. -/
  | lock (t : τ)
  /-- `lwip_unlock` of such a thread. -/
  | unlock (t : τ)
  /-- `raw_poll` calls `ethdriver_rx`. -/
  | poll (t : τ)
  /-- `raw_tx`, up to its loop. -/
  | transmit (t : τ) (bufs : List (List Byte))
  /-- `raw_tx` calls `ethdriver_tx`, and `lwip_unlock` if that fails. -/
  | attempt (t : τ)
  /-- `raw_tx` calls `lwip_lock`. -/
  | relock (t : τ)

/-- Another thread uses the dataport. -/
def Thread.disturb : Thread → Thread
  | .waiting frame => .waiting { frame with disturbed := true }
  | thread => thread

/-- About to call `ethdriver_tx`. -/
def Thread.isTrying : Thread → Bool
  | .trying _ => true
  | _ => false

/-- About to try again. -/
def Thread.isWaiting : Thread → Bool
  | .waiting _ => true
  | _ => false

/-- Having the lock. -/
def Thread.Holds : Thread → Prop
  | .inside | .trying _ => True
  | .outside | .waiting _ => False

section

variable {τ σ : Type} [DecidableEq τ]

/-- `raw_poll` calls `ethdriver_rx`. -/
def UdpServer.poll (D : Driver σ) (s : UdpServer τ σ) : UdpServer τ σ :=
  let result := D.rx s.driver s.buf
  { s with
    driver := result.state
    buf := result.buf
    thread := fun u ↦ (s.thread u).disturb }

/-- `raw_tx`, up to its loop. -/
def UdpServer.transmit (s : UdpServer τ σ) (t : τ) (bufs : List (List Byte)) : UdpServer τ σ :=
  let (buf, totalLen) := gather s.buf 0 bufs
  { s with
    buf := buf
    thread := Function.update (fun u ↦ (s.thread u).disturb) t
      (.trying ⟨bufs.flatten, totalLen, false, false⟩) }

/-- The condition of the loop of `raw_tx`, and the first call in it. -/
def UdpServer.attempt (D : Driver σ) (s : UdpServer τ σ) (t : τ) : UdpServer τ σ :=
  match s.thread t with
  | .trying frame =>
    let (status, driver) := D.tx s.driver s.buf frame.totalLen
    if status = .failed then { s with
      driver := driver
      locked := false
      thread := Function.update s.thread t (.waiting { frame with retried := true }) }
    else { s with
      driver := driver
      thread := Function.update s.thread t .inside
      log := s.log ++ [⟨frame, bytes s.buf frame.totalLen⟩] }
  | _ => s

/-- The second call there. -/
def UdpServer.relock (s : UdpServer τ σ) (t : τ) : UdpServer τ σ :=
  match s.thread t with
  | .waiting frame => { s with
      locked := true
      thread := Function.update s.thread t (.trying frame) }
  | _ => s

/-- When it can do that.  A dataport has a page, and no frame is larger. -/
def CanStep (s : UdpServer τ σ) : Step τ → Prop
  | .lock t => s.thread t = .outside ∧ s.locked = false
  | .unlock t => s.thread t = .inside
  | .poll t => s.thread t = .inside
  | .transmit t bufs => s.thread t = .inside ∧ bufs.flatten.length ≤ 4096
  | .attempt t => (s.thread t).isTrying = true
  | .relock t => (s.thread t).isWaiting = true ∧ s.locked = false

instance (s : UdpServer τ σ) : (a : Step τ) → Decidable (CanStep s a)
  | .lock t => inferInstanceAs (Decidable (s.thread t = .outside ∧ s.locked = false))
  | .unlock t => inferInstanceAs (Decidable (s.thread t = .inside))
  | .poll t => inferInstanceAs (Decidable (s.thread t = .inside))
  | .transmit t bufs =>
    inferInstanceAs (Decidable (s.thread t = .inside ∧ bufs.flatten.length ≤ 4096))
  | .attempt t => inferInstanceAs (Decidable ((s.thread t).isTrying = true))
  | .relock t => inferInstanceAs (Decidable ((s.thread t).isWaiting = true ∧ s.locked = false))

/-- What happens then. -/
def afterStep (D : Driver σ) (s : UdpServer τ σ) : Step τ → UdpServer τ σ
  | .lock t => { s with locked := true, thread := Function.update s.thread t .inside }
  | .unlock t => { s with locked := false, thread := Function.update s.thread t .outside }
  | .poll _ => s.poll D
  | .transmit t bufs => s.transmit t bufs
  | .attempt t => s.attempt D t
  | .relock t => s.relock t

end

/-! ## What is sent -/

/-- A frame is still what it was, unless it has been disturbed, for which it must have been
retried. -/
structure Outgoing.Intact (frame : Outgoing) (stored : List Byte) : Prop where
  totalLen : frame.totalLen = frame.data.length
  stored : frame.disturbed = false → stored = frame.data
  disturbed : frame.retried = false → frame.disturbed = false

/-- What the lock is for, and what comes out at the driver. -/
structure SendsRight {τ σ : Type} (V : View σ) (start : σ) (s : UdpServer τ σ) : Prop where
  /-- One thread at a time has the lock. -/
  exclusive : ∀ t u, (s.thread t).Holds → (s.thread u).Holds → t = u
  /-- The driver sends one frame for each that lwIP wants to be sent, of its length. -/
  wire : V.sent s.driver = V.sent start ++ s.log.map SentFrame.wire
  length : ∀ sent ∈ s.log, sent.wire.length = sent.frame.data.length
  /-- It is the right one, if no other thread has used the dataport in between. -/
  undisturbed : ∀ sent ∈ s.log, sent.frame.disturbed = false → sent.wire = sent.frame.data
  /-- So it is if the first attempt succeeds. -/
  first : ∀ sent ∈ s.log, sent.frame.retried = false → sent.wire = sent.frame.data

/-- The lock is taken if a thread has it, and only one has. -/
structure Exclusive {τ : Type} (thread : τ → Thread) (locked : Bool) : Prop where
  locked : ∀ t, (thread t).Holds → locked = true
  only : ∀ t u, (thread t).Holds → (thread u).Holds → t = u

/-- The frames in the threads' hands. -/
structure Stored {τ : Type} (thread : τ → Thread) (buf : Dataport) : Prop where
  trying : ∀ t frame, thread t = .trying frame → frame.Intact (bytes buf frame.totalLen)
  waiting : ∀ t frame, thread t = .waiting frame →
    frame.Intact (bytes buf frame.totalLen) ∧ frame.retried = true

/-- The invariant. -/
structure Orderly {τ σ : Type} (V : View σ) (start : σ) (s : UdpServer τ σ) : Prop where
  exclusive : Exclusive s.thread s.locked
  stored : Stored s.thread s.buf
  wire : V.sent s.driver = V.sent start ++ s.log.map SentFrame.wire
  log : ∀ sent ∈ s.log, sent.frame.Intact sent.wire ∧ sent.wire.length = sent.frame.totalLen

section

variable {τ : Type} {thread : τ → Thread} {locked : Bool} {buf : Dataport} {t : τ} {new : Thread}

@[simp] theorem holds_disturb (old : Thread) : old.disturb.Holds ↔ old.Holds := by
  cases old <;> exact Iff.rfl

theorem Exclusive.disturb (h : Exclusive thread locked) :
    Exclusive (fun u ↦ (thread u).disturb) locked :=
  ⟨fun u hu ↦ h.locked u ((holds_disturb _).1 hu),
    fun u v hu hv ↦ h.only u v ((holds_disturb _).1 hu) ((holds_disturb _).1 hv)⟩

/-- Using the dataport while one has the lock spoils no frame but those of threads that wait. -/
theorem Stored.disturb (h : Stored thread buf) (hexclusive : Exclusive thread locked)
    (ht : thread t = .inside) (buf' : Dataport) :
    Stored (fun u ↦ (thread u).disturb) buf' := by
  constructor
  · intro u frame hu
    cases hthread : thread u with
    | outside | inside | waiting other =>
      simp only [hthread, Thread.disturb] at hu
      exact nomatch hu
    | trying other =>
      -- then both have the lock
      have hsame : t = u := hexclusive.only t u (by rw [ht]; trivial) (by rw [hthread]; trivial)
      rw [hsame, hthread] at ht
      exact nomatch ht
  · intro u frame hu
    cases hthread : thread u with
    | outside | inside | trying other =>
      simp only [hthread, Thread.disturb] at hu
      exact nomatch hu
    | waiting other =>
      simp only [hthread, Thread.disturb] at hu
      obtain rfl := Thread.waiting.inj hu
      obtain ⟨hintact, hretried⟩ := h.waiting u other hthread
      exact ⟨⟨hintact.totalLen, nofun, fun hfirst ↦ absurd (hretried.symm.trans hfirst) nofun⟩,
        hretried⟩

variable [DecidableEq τ]

/-- Taking the lock. -/
theorem Exclusive.take (h : Exclusive thread false) (t : τ) (new : Thread) :
    Exclusive (Function.update thread t new) true := by
  have honly : ∀ u, (Function.update thread t new u).Holds → u = t := by
    intro u hu
    by_contra hne
    rw [Function.update_of_ne hne] at hu
    exact absurd (h.locked u hu) nofun
  exact ⟨fun _ _ ↦ rfl, fun u v hu hv ↦ (honly u hu).trans (honly v hv).symm⟩

/-- Giving it away. -/
theorem Exclusive.give (h : Exclusive thread locked) (ht : (thread t).Holds) (hnew : ¬new.Holds)
    (locked' : Bool) : Exclusive (Function.update thread t new) locked' := by
  have hnone : ∀ u, ¬(Function.update thread t new u).Holds := by
    intro u hu
    by_cases hut : u = t
    · rw [hut, Function.update_self] at hu
      exact hnew hu
    · rw [Function.update_of_ne hut] at hu
      exact hut (h.only u t hu ht)
  exact ⟨fun u hu ↦ absurd hu (hnone u), fun u _ hu ↦ absurd hu (hnone u)⟩

/-- Keeping it. -/
theorem Exclusive.keep (h : Exclusive thread locked) (ht : (thread t).Holds) (new : Thread) :
    Exclusive (Function.update thread t new) locked := by
  have hold : ∀ u, (Function.update thread t new u).Holds → (thread u).Holds := by
    intro u hu
    by_cases hut : u = t
    · rwa [hut]
    · rwa [Function.update_of_ne hut] at hu
  exact ⟨fun u hu ↦ h.locked u (hold u hu), fun u v hu hv ↦ h.only u v (hold u hu) (hold v hv)⟩

theorem Stored.update (h : Stored thread buf)
    (htrying : ∀ frame, new = .trying frame → frame.Intact (bytes buf frame.totalLen))
    (hwaiting : ∀ frame, new = .waiting frame →
      frame.Intact (bytes buf frame.totalLen) ∧ frame.retried = true) :
    Stored (Function.update thread t new) buf := by
  constructor <;> intro u frame hu <;> by_cases hut : u = t
  · rw [hut, Function.update_self] at hu
    exact htrying frame hu
  · rw [Function.update_of_ne hut] at hu
    exact h.trying u frame hu
  · rw [hut, Function.update_self] at hu
    exact hwaiting frame hu
  · rw [Function.update_of_ne hut] at hu
    exact h.waiting u frame hu

end

section

variable {τ σ : Type} {D : Driver σ} {V : View σ} {start : σ} {s r : UdpServer τ σ} {t : τ}

theorem Orderly.sendsRight (hs : Orderly V start s) : SendsRight V start s where
  exclusive := hs.exclusive.only
  wire := hs.wire
  length sent hmem := (hs.log sent hmem).2.trans (hs.log sent hmem).1.totalLen
  undisturbed sent hmem := (hs.log sent hmem).1.stored
  first sent hmem hfirst := (hs.log sent hmem).1.stored ((hs.log sent hmem).1.disturbed hfirst)

theorem orderly_poll (h : D.Lawful V) (hs : Orderly V start s) (ht : s.thread t = .inside) :
    Orderly V start (s.poll D) :=
  ⟨hs.exclusive.disturb, hs.stored.disturb hs.exclusive ht _, (h.rx_sent ..).trans hs.wire, hs.log⟩

variable [DecidableEq τ]

theorem orderly_transmit (hs : Orderly V start s) (ht : s.thread t = .inside)
    (bufs : List (List Byte)) : Orderly V start (s.transmit t bufs) := by
  have hholds : ((s.thread t).disturb).Holds := by
    rw [ht]
    trivial
  refine ⟨hs.exclusive.disturb.keep hholds _, ?_, hs.wire, hs.log⟩
  refine (hs.stored.disturb hs.exclusive ht _).update ?_ nofun
  rintro frame ⟨⟩
  refine ⟨?_, fun _ ↦ bytes_gather s.buf 0 bufs, fun _ ↦ rfl⟩
  exact (gather_snd s.buf 0 bufs).trans (Nat.zero_add _)

theorem orderly_attempt (h : D.Lawful V) (hs : Orderly V start s) {frame : Outgoing}
    (ht : s.thread t = .trying frame) : Orderly V start (s.attempt D t) := by
  have hintact := hs.stored.trying t frame ht
  have hsent := h.tx_sent s.driver s.buf frame.totalLen
  have hholds : (s.thread t).Holds := by
    rw [ht]
    trivial
  simp only [UdpServer.attempt, ht]
  by_cases hfailed : (D.tx s.driver s.buf frame.totalLen).1 = .failed
  · rw [if_pos hfailed] at hsent ⊢
    refine ⟨hs.exclusive.give hholds id _, hs.stored.update nofun ?_, ?_, hs.log⟩
    · rintro _ ⟨⟩
      exact ⟨⟨hintact.totalLen, hintact.stored, nofun⟩, rfl⟩
    · rw [hsent, List.append_nil, hs.wire]
  · rw [if_neg hfailed] at hsent ⊢
    refine ⟨hs.exclusive.keep hholds _, hs.stored.update nofun nofun, ?_, ?_⟩
    · rw [hsent, hs.wire, List.append_assoc, List.map_append, List.map_singleton]
    · intro sent hmem
      rcases List.mem_append.1 hmem with hmem | hmem
      · exact hs.log sent hmem
      · obtain rfl := List.mem_singleton.1 hmem
        exact ⟨hintact, length_bytes ..⟩

theorem orderly_relock (hs : Orderly V start s) {frame : Outgoing}
    (ht : s.thread t = .waiting frame) (hfree : s.locked = false) :
    Orderly V start (s.relock t) := by
  simp only [UdpServer.relock, ht]
  refine ⟨(hfree ▸ hs.exclusive).take t _, hs.stored.update ?_ nofun, hs.wire, hs.log⟩
  rintro _ ⟨⟩
  exact (hs.stored.waiting t frame ht).1

theorem orderly_afterStep (h : D.Lawful V) (hs : Orderly V start s) {a : Step τ}
    (hcan : CanStep s a) : Orderly V start (afterStep D s a) := by
  cases a with
  | lock t =>
    exact ⟨(hcan.2 ▸ hs.exclusive).take t _, hs.stored.update nofun nofun, hs.wire, hs.log⟩
  | unlock t =>
    have ht : s.thread t = .inside := hcan
    refine ⟨hs.exclusive.give (by rw [ht]; trivial) id _, ?_, hs.wire, hs.log⟩
    exact hs.stored.update nofun nofun
  | poll t => exact orderly_poll h hs hcan
  | transmit t bufs => exact orderly_transmit hs hcan.1 bufs
  | attempt t =>
    cases hthread : s.thread t with
    | trying frame => exact orderly_attempt h hs hthread
    | outside | inside | waiting frame =>
      rw [CanStep, hthread] at hcan
      exact nomatch hcan
  | relock t =>
    cases hthread : s.thread t with
    | waiting frame => exact orderly_relock hs hthread hcan.2
    | outside | inside | trying frame =>
      rw [CanStep, hthread] at hcan
      exact nomatch hcan.1

/-- **What the threads send**, in any interleaving: it goes wrong only where another thread has used
the dataport between two attempts. -/
theorem run_sendsRight (h : D.Lawful V) {buf : Dataport} {as : List (Step τ)}
    (hrun : Run (Does CanStep (afterStep D)) (.initial start buf) as r) : SendsRight V start r := by
  have hstart : Orderly V start (.initial start buf : UdpServer τ σ) :=
    ⟨⟨nofun, nofun⟩, ⟨nofun, nofun⟩, (List.append_nil _).symm, nofun⟩
  refine Orderly.sendsRight (hrun.invariant (I := Orderly V start) hstart ?_)
  rintro s a _ hs ⟨hcan, rfl⟩
  exact orderly_afterStep h hs hcan

end

/-! ## A link that is down for two attempts -/

/-- The network interface. -/
def linkDown : Nic := ⟨2, [], [], true, 4⟩

/-- The second thread sends a frame while the first one waits to try again. -/
def overtaken : List (Step Bool) :=
  [.lock false, .transmit false [[1], [2]], .attempt false, .lock true, .transmit true [[3, 4, 5]],
    .attempt true, .relock false, .attempt false, .unlock false, .relock true, .attempt true]

/-- At the end. -/
def bothSent : UdpServer Bool Nic :=
  overtaken.foldl (afterStep Nic.driver) (.initial linkDown fun _ ↦ 0)

theorem bothSent_run :
    Run (Does CanStep (afterStep Nic.driver)) (.initial linkDown fun _ ↦ 0) overtaken bothSent :=
  run_foldl (by decide)

/-- What has been sent. -/
theorem run_sendsRight_bothSent : SendsRight Nic.view linkDown bothSent :=
  run_sendsRight Nic.lawful bothSent_run

/-- The frame of the first thread has been overwritten. -/
example : bothSent.log.map (fun sent ↦ (sent.frame.data, sent.frame.disturbed, sent.wire)) =
    [([1, 2], true, [3, 4]), ([3, 4, 5], false, [3, 4, 5])] := by
  decide

end Ethernet
end CamkesVm
