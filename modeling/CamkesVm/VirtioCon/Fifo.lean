import CamkesVm.VirtioCon.System

/-!
# The console ring is a lossless queue as long as it never fills

`PortOk` is the invariant of one ring, stated with two counters the code does not have: the number
of bytes forwarded and the number delivered.  Modulo `BUFSIZE` these are `tail` and the slot the
receiver has read up to, and the slots between them hold the bytes outstanding.  A snapshot
`last_read_tail` of the receiver is some count in between.  Each access of either party keeps
`PortOk` — with one exception: the store that advances `tail` keeps it only if the ring has room,
because a `tail` that catches up with the receiver makes a full ring look empty.

`lossless_of_hasRoom` is the result about whole runs.  That the code does not itself make sure that
there is room is `not_lossless_of_full`: `BUFSIZE` bytes forwarded to a receiver that has not
started polling are all lost.

## What is here

* `SenderOk`, `PortOk` — the invariant of one ring, with the program points of its two parties; its
  lemmas are one for each store.
* `State.PortOk`, `SenderFrame` — the same in the system, and what an access by one sender leaves
  alone.
* `senderStep_portOk`, `receiverStep_portOk`, `step_portOk`, `run_portOk` — the accesses of each
  party, one step, and a run.
* `run_lossless`, `not_lossless_of_full` — delivered bytes are a prefix of the forwarded ones, and
  the ring has the rest.
-/

set_option autoImplicit false

namespace CamkesVm
namespace VirtioCon

open Transition Cyclic

variable {n : ℕ}

theorem bufsize_pos : 0 < bufsize := by decide

/-! ## The invariant of one ring -/

/-- What the local values of a sender say about its ring, `f` bytes having been forwarded. -/
def SenderOk (r : SerialShmem) (f : ℕ) : Sender → Prop
  | .store _ t => t = f % bufsize
  | .reload c => r.buf (f % bufsize) = c
  | .advance c t => t = f % bufsize ∧ r.buf t = c
  | _ => True

/-- The invariant of a ring `r` whose sender is at `p`, whose receiver has read up to slot `pos` and
may hold a snapshot of `tail`, when the bytes `fwd` went in and the bytes `dlv` came out. -/
structure PortOk (r : SerialShmem) (p : Sender) (pos : ℕ) (snap : Option ℕ) (fwd dlv : List Byte) :
    Prop where
  /-- The bytes outstanding are in the ring, in order. -/
  contents : dlv ++ window bufsize r.buf dlv.length (fwd.length - dlv.length) = fwd
  /-- The ring is not overfull. -/
  room : fwd.length < dlv.length + bufsize
  /-- `tail` counts the bytes forwarded. -/
  tail : r.tail = fwd.length % bufsize
  /-- The read position counts the bytes delivered. -/
  pos : pos = dlv.length % bufsize
  /-- The sender's local values are about the next slot. -/
  sender : SenderOk r fwd.length p
  /-- A snapshot of `tail` is a count between the two. -/
  snap : ∀ t ∈ snap, ∃ k, dlv.length ≤ k ∧ k ≤ fwd.length ∧ t = k % bufsize

section

variable {r : SerialShmem} {p p' : Sender} {pos t : ℕ} {snap : Option ℕ} {fwd dlv : List Byte}
  {c : Byte}

theorem PortOk.length_le (h : PortOk r p pos snap fwd dlv) : dlv.length ≤ fwd.length := by
  have hlen := congrArg List.length h.contents
  rw [List.length_append, length_window] at hlen
  omega

theorem PortOk.span_eq (h : PortOk r p pos snap fwd dlv) :
    span bufsize pos r.tail = fwd.length - dlv.length := by
  rw [h.pos, h.tail, span_mod h.length_le h.room]

/-- The window between the read position and `tail` is what is outstanding. -/
theorem PortOk.append_window (h : PortOk r p pos snap fwd dlv) :
    dlv ++ window bufsize r.buf pos (span bufsize pos r.tail) = fwd := by
  rw [h.span_eq, h.pos, window_mod, h.contents]

/-- A sender that only moved, and whose local values are right, keeps the invariant. -/
theorem PortOk.moveSender (h : PortOk r p pos snap fwd dlv) (hp : SenderOk r fwd.length p') :
    PortOk r p' pos snap fwd dlv :=
  ⟨h.contents, h.room, h.tail, h.pos, hp, h.snap⟩

/-- `buf[tail] = c` writes the free slot. -/
theorem PortOk.store (h : PortOk r (.store c t) pos snap fwd dlv) :
    PortOk { r with buf := Function.update r.buf t c } (.reload c) pos snap fwd dlv := by
  have ht : t = (dlv.length + (fwd.length - dlv.length)) % bufsize := by
    rw [Nat.add_sub_cancel' h.length_le]
    exact h.sender
  have hle := h.length_le
  have hroom := h.room
  refine ⟨?_, h.room, h.tail, h.pos, ?_, h.snap⟩
  · rw [ht, window_update _ _ (by omega), h.contents]
  · show Function.update r.buf t c (fwd.length % bufsize) = c
    rw [show fwd.length % bufsize = t from h.sender.symm, Function.update_self]

/-- **Advancing `tail` over the stored byte forwards it**, provided the ring has room. -/
theorem PortOk.advance (h : PortOk r (.advance c t) pos snap fwd dlv)
    (hroom : fwd.length - dlv.length + 1 < bufsize) :
    PortOk { r with tail := (t + 1) % bufsize } (.test c) pos snap (fwd ++ [c]) dlv := by
  obtain ⟨ht, hc⟩ := h.sender
  have hle := h.length_le
  refine ⟨?_, ?_, ?_, h.pos, trivial, ?_⟩
  · have hlen : (fwd ++ [c]).length - dlv.length = fwd.length - dlv.length + 1 := by
      rw [List.length_append, List.length_singleton]; omega
    have hslot : (dlv.length + (fwd.length - dlv.length)) % bufsize = t := by
      rw [Nat.add_sub_cancel' hle, ht]
    rw [hlen, window_succ', hslot, hc, ← List.append_assoc, h.contents]
  · rw [List.length_append, List.length_singleton]; omega
  · show (t + 1) % bufsize = _
    rw [ht, Nat.mod_add_mod, List.length_append, List.length_singleton]
  · intro u hu
    obtain ⟨k, hk, hk', rfl⟩ := h.snap u hu
    exact ⟨k, hk, by rw [List.length_append]; omega, rfl⟩

/-- Loading `tail` as `last_read_tail` takes a snapshot. -/
theorem PortOk.snapshot (h : PortOk r p pos snap fwd dlv) :
    PortOk r p pos (some r.tail) fwd dlv := by
  refine ⟨h.contents, h.room, h.tail, h.pos, h.sender, ?_⟩
  rintro t ⟨⟩
  exact ⟨fwd.length, h.length_le, le_rfl, h.tail⟩

/-- **`emul_putchar` consumes the oldest byte outstanding**, as long as it has not come to the
snapshot. -/
theorem PortOk.deliver (h : PortOk r p pos (some t) fwd dlv) (hne : pos ≠ t) :
    PortOk r p ((pos + 1) % bufsize) (some t) fwd (dlv ++ [r.buf pos]) := by
  obtain ⟨k, hk, hk', rfl⟩ := h.snap t rfl
  have hlt : dlv.length < k := by
    refine lt_of_le_of_ne hk fun he ↦ hne ?_
    rw [h.pos, he]
  have hlen : fwd.length - dlv.length = fwd.length - (dlv.length + 1) + 1 := by omega
  have hroom := h.room
  have hcont := h.contents
  rw [hlen, window_succ, ← h.pos] at hcont
  refine ⟨?_, ?_, h.tail, ?_, h.sender, ?_⟩
  · rw [List.length_append, List.length_singleton, List.append_assoc, List.singleton_append]
    exact hcont
  · rw [List.length_append]; omega
  · rw [h.pos, Nat.mod_add_mod, List.length_append, List.length_singleton]
  · rintro u ⟨⟩
    exact ⟨k, by rw [List.length_append, List.length_singleton]; omega, hk', rfl⟩

/-- Storing `last_read_tail` in `head` gives up the snapshot. -/
theorem PortOk.finish (h : PortOk r p pos snap fwd dlv) :
    PortOk { r with head := pos } p pos none fwd dlv := by
  refine ⟨h.contents, h.room, h.tail, h.pos, ?_, by simp⟩
  have hs := h.sender
  cases p <;> exact hs

theorem PortOk.dropSnap (h : PortOk r p pos snap fwd dlv) : PortOk r p pos none fwd dlv :=
  ⟨h.contents, h.room, h.tail, h.pos, h.sender, by simp⟩

end

/-! ## The invariant of the system -/

/-- The snapshot `last_read_tail` the receiver holds of ring `i`, if it holds one. -/
def State.snapshot (s : State n) (i : Fin n) : Option ℕ :=
  match s.receiver with
  | .readHead j t => if j = i then some t else none
  | .putchar j _ t => if j = i then some t else none
  | _ => none

/-- `PortOk` of ring `i` in state `s`. -/
def State.PortOk (s : State n) (i : Fin n) : Prop :=
  VirtioCon.PortOk (s.ring i) (s.sender i) (s.readPos i) (s.snapshot i) (s.forwarded i)
    (s.delivered i)

theorem State.PortOk.unread {s : State n} {i : Fin n} (h : s.PortOk i) :
    s.delivered i ++ s.unread i = s.forwarded i :=
  h.append_window

theorem State.PortOk.unread_length {s : State n} {i : Fin n} (h : s.PortOk i) :
    (s.unread i).length = (s.forwarded i).length - (s.delivered i).length := by
  rw [State.unread, length_window]
  exact h.span_eq

/-- A state in which nothing of ring `i` changed has its invariant. -/
theorem State.PortOk.frame {s s' : State n} {i : Fin n} (h : s.PortOk i)
    (hring : s'.ring i = s.ring i) (hsender : s'.sender i = s.sender i)
    (hpos : s'.readPos i = s.readPos i) (hsnap : s'.snapshot i = s.snapshot i)
    (hfwd : s'.forwarded i = s.forwarded i) (hdlv : s'.delivered i = s.delivered i) :
    s'.PortOk i := by
  rw [State.PortOk, hring, hsender, hpos, hsnap, hfwd, hdlv]
  exact h

theorem readPos_congr {s s' : State n} {i : Fin n} (hr : s'.receiver = s.receiver)
    (hh : (s'.ring i).head = (s.ring i).head) : s'.readPos i = s.readPos i := by
  simp only [State.readPos, hr, hh]

theorem snapshot_congr {s s' : State n} {i : Fin n} (hr : s'.receiver = s.receiver) :
    s'.snapshot i = s.snapshot i := by
  simp only [State.snapshot, hr]

/-- All rings start empty. -/
theorem initial_portOk (buf : Fin n → ℕ → Byte) (i : Fin n) : (State.initial buf).PortOk i :=
  ⟨by simp [State.initial], bufsize_pos, rfl, rfl, trivial, by simp [State.snapshot, State.initial]⟩

/-- What an access by the sender of ring `i` leaves alone: the other rings and the receiver. -/
structure SenderFrame (s s' : State n) (i : Fin n) : Prop where
  /-- The receiver does not move. -/
  receiver : s'.receiver = s.receiver
  /-- The sender never stores `head`. -/
  head : (s'.ring i).head = (s.ring i).head
  /-- Nothing is delivered. -/
  delivered : s'.delivered = s.delivered
  /-- The other rings are not touched. -/
  others : ∀ j, j ≠ i → s'.ring j = s.ring j ∧ s'.sender j = s.sender j ∧
    s'.forwarded j = s.forwarded j

theorem senderFrame_setSender (s : State n) (i : Fin n) (p : Sender) :
    SenderFrame s (s.setSender i p) i :=
  ⟨rfl, rfl, rfl, fun _ hj ↦ ⟨rfl, Function.update_of_ne hj _ _, rfl⟩⟩

/-- **An access of a sender is about its own ring.** -/
theorem senderStep_frame {s s' : State n} {i : Fin n} (hs : senderStep s i = some s') :
    SenderFrame s s' i := by
  rw [senderStep] at hs
  cases hp : s.sender i with
  | idle => simp [hp] at hs
  | store c t =>
    simp only [hp, Option.some_inj] at hs
    subst hs
    refine ⟨rfl, by simp [State.setRing, State.setSender], rfl, fun j hj ↦ ?_⟩
    simp [State.setRing, State.setSender, hj]
  | advance c t =>
    simp only [hp, Option.some_inj] at hs
    subst hs
    refine ⟨rfl, by simp [State.setRing, State.setSender], rfl, fun j hj ↦ ?_⟩
    simp [State.setRing, State.setSender, hj]
  | test c =>
    simp only [hp] at hs
    split at hs <;>
    · simp only [Option.some_inj] at hs
      subst hs
      exact senderFrame_setSender s i _
  | full t =>
    simp only [hp] at hs
    split at hs <;>
    · simp only [Option.some_inj] at hs
      subst hs
      exact senderFrame_setSender s i _
  | notify =>
    simp only [hp, Option.some_inj] at hs
    subst hs
    obtain ⟨-, -, -, hothers⟩ := senderFrame_setSender s i .idle
    exact ⟨rfl, rfl, rfl, hothers⟩
  | _ =>
    simp only [hp, Option.some_inj] at hs
    subst hs
    exact senderFrame_setSender s i _

/-- With the frame of a sender's access, only its own ring is left to check. -/
theorem SenderFrame.portOk {s s' : State n} {i : Fin n} (hf : SenderFrame s s' i)
    (h : ∀ j, s.PortOk j)
    (hi : VirtioCon.PortOk (s'.ring i) (s'.sender i) (s.readPos i) (s.snapshot i) (s'.forwarded i)
      (s.delivered i)) : ∀ j, s'.PortOk j := by
  intro j
  by_cases hj : j = i
  · subst hj
    rw [State.PortOk, readPos_congr hf.receiver hf.head, snapshot_congr hf.receiver, hf.delivered]
    exact hi
  · obtain ⟨hring, hsender, hfwd⟩ := hf.others j hj
    exact (h j).frame hring hsender (readPos_congr hf.receiver (by rw [hring]))
      (snapshot_congr hf.receiver) hfwd (by rw [hf.delivered])

/-- The sender only moved. -/
theorem setSender_portOk {s : State n} {i : Fin n} {p : Sender} (h : ∀ j, s.PortOk j)
    (hp : SenderOk (s.ring i) (s.forwarded i).length p) : ∀ j, (s.setSender i p).PortOk j := by
  refine (senderFrame_setSender s i p).portOk h ?_
  simp only [State.setSender, Function.update_self]
  exact (h i).moveSender hp

/-- **Every access of a sender keeps the invariant**, the advance of `tail` if there is room. -/
theorem senderStep_portOk {s s' : State n} {i : Fin n} (h : ∀ j, s.PortOk j)
    (hroom : HasRoom s (.sender i)) (hs : senderStep s i = some s') : ∀ j, s'.PortOk j := by
  have hi := h i
  have hf := senderStep_frame hs
  rw [senderStep] at hs
  cases hp : s.sender i with
  | idle => simp [hp] at hs
  | index c =>
    simp only [hp, Option.some_inj] at hs
    subst hs
    exact setSender_portOk h hi.tail
  | store c t =>
    simp only [hp, Option.some_inj] at hs
    subst hs
    refine hf.portOk h ?_
    rw [State.PortOk, hp] at hi
    simpa [State.setRing, State.setSender] using hi.store
  | reload c =>
    simp only [hp, Option.some_inj] at hs
    subst hs
    refine setSender_portOk h ⟨hi.tail, ?_⟩
    have hc := hi.sender
    rw [hp] at hc
    rw [hi.tail]
    exact hc
  | advance c t =>
    simp only [hp, Option.some_inj] at hs
    subst hs
    refine hf.portOk h ?_
    have hlt : (s.unread i).length + 1 < bufsize := by simpa only [HasRoom, hp] using hroom
    rw [hi.unread_length] at hlt
    rw [State.PortOk, hp] at hi
    simpa [State.setRing, State.setSender] using hi.advance hlt
  | test c =>
    simp only [hp] at hs
    split at hs <;>
    · simp only [Option.some_inj] at hs
      subst hs
      exact setSender_portOk h trivial
  | full t =>
    simp only [hp] at hs
    split at hs <;>
    · simp only [Option.some_inj] at hs
      subst hs
      exact setSender_portOk h trivial
  | notify =>
    simp only [hp, Option.some_inj] at hs
    subst hs
    exact fun j ↦ (setSender_portOk h (p := .idle) trivial j).frame rfl rfl rfl rfl rfl rfl

/-- A receiver that moves on without holding anything of a ring keeps that ring's invariant. -/
theorem moveReceiver_portOk {s : State n} {q : Receiver n} (i : Fin n) (h : s.PortOk i)
    (hs : ∀ j pos t, s.receiver ≠ .putchar j pos t) (hq : ∀ j pos t, q ≠ .putchar j pos t)
    (hq' : ∀ j t, q ≠ .readHead j t) : ({ s with receiver := q } : State n).PortOk i := by
  have hpos : ({ s with receiver := q } : State n).readPos i = s.readPos i := by
    cases hr : s.receiver <;> cases hq0 : q <;> simp_all [State.readPos]
  have hsnap : ({ s with receiver := q } : State n).snapshot i = none := by
    cases hq0 : q <;> simp_all [State.snapshot]
  rw [State.PortOk, hpos, hsnap]
  exact h.dropSnap

theorem nextPort_ne_putchar (i j : Fin n) (pos t : ℕ) : nextPort i ≠ .putchar j pos t := by
  rw [nextPort]; split <;> simp

theorem nextPort_ne_readHead (i j : Fin n) (t : ℕ) : nextPort i ≠ .readHead j t := by
  rw [nextPort]; split <;> simp

/-- Taking a byte off a ring keeps its invariant, and so does the advance of `head` after the
last. -/
theorem receiverStep_putchar_portOk {s s' : State n} {i : Fin n} {pos t : ℕ} (h : s.PortOk i)
    (hr : s.receiver = .putchar i pos t) (hs : receiverStep s = some s') : s'.PortOk i := by
  rw [receiverStep] at hs
  simp only [hr] at hs
  rw [State.PortOk] at h
  simp only [State.readPos, State.snapshot, hr, if_true] at h
  split at hs
  · rename_i hpt
    simp only [Option.some_inj] at hs
    subst hs hpt
    have hend := moveReceiver_portOk (s := { s.setRing i { s.ring i with head := pos } with
      receiver := .idle }) (q := nextPort i) i ?_ (by simp) (nextPort_ne_putchar i)
      (nextPort_ne_readHead i)
    · exact hend
    · rw [State.PortOk]
      simpa [State.readPos, State.snapshot, State.setRing] using h.finish
  · rename_i hpt
    simp only [Option.some_inj] at hs
    subst hs
    rw [State.PortOk]
    simpa [State.readPos, State.snapshot] using h.deliver hpt

/-- It leaves the other rings alone. -/
theorem receiverStep_putchar_portOk_of_ne {s s' : State n} {i j : Fin n} {pos t : ℕ}
    (h : s.PortOk j) (hr : s.receiver = .putchar i pos t) (hij : i ≠ j)
    (hs : receiverStep s = some s') : s'.PortOk j := by
  rw [receiverStep] at hs
  simp only [hr] at hs
  have hpos : s.readPos j = (s.ring j).head := by simp [State.readPos, hr, hij]
  have hsnap : s.snapshot j = none := by simp [State.snapshot, hr, hij]
  split at hs
  · simp only [Option.some_inj] at hs
    subst hs
    have hend := moveReceiver_portOk (s := { s.setRing i { s.ring i with head := t } with
      receiver := .idle }) (q := nextPort i) j ?_ (by simp) (nextPort_ne_putchar i)
      (nextPort_ne_readHead i)
    · exact hend
    · rw [State.PortOk, hpos, hsnap] at h
      rw [State.PortOk]
      simpa [State.readPos, State.snapshot, State.setRing, hij.symm] using h
  · simp only [Option.some_inj] at hs
    subst hs
    refine h.frame rfl rfl ?_ ?_ rfl ?_
    · rw [hpos]; simp [State.readPos, hij]
    · rw [hsnap]; simp [State.snapshot, hij]
    · simp [hij.symm]

/-- **Every access of the receiver keeps the invariant.** -/
theorem receiverStep_portOk {s s' : State n} (h : ∀ j, s.PortOk j)
    (hs : receiverStep s = some s') : ∀ j, s'.PortOk j := by
  intro j
  have hj := h j
  have hs' := hs
  rw [receiverStep] at hs
  cases hr : s.receiver with
  | idle => simp [hr] at hs
  | testHead i =>
    simp only [hr, Option.some_inj] at hs
    subst hs
    exact moveReceiver_portOk j hj (by simp [hr]) (by simp) (by simp)
  | testTail i v =>
    simp only [hr] at hs
    split at hs <;>
    · simp only [Option.some_inj] at hs
      subst hs
      exact moveReceiver_portOk j hj (by simp [hr]) (by simp [nextPort_ne_putchar])
        (by simp [nextPort_ne_readHead])
  | readTail i =>
    simp only [hr, Option.some_inj] at hs
    subst hs
    rw [State.PortOk] at hj ⊢
    simp only [State.readPos, State.snapshot, hr] at hj ⊢
    split
    · rename_i hij
      subst hij
      exact hj.snapshot
    · exact hj
  | readHead i t =>
    simp only [hr, Option.some_inj] at hs
    subst hs
    rw [State.PortOk] at hj ⊢
    simp only [State.readPos, State.snapshot, hr] at hj ⊢
    split
    · rename_i hij
      subst hij
      simpa using hj
    · rename_i hij
      simpa [hij] using hj
  | putchar i pos t =>
    by_cases hij : i = j
    · subst hij
      exact receiverStep_putchar_portOk hj hr hs'
    · exact receiverStep_putchar_portOk_of_ne hj hr hij hs'

/-- **One step of the system keeps the invariant of every ring**, if it is not an advance of `tail`
on a ring without room. -/
theorem step_portOk {s s' : State n} {a : Label n} (h : ∀ j, s.PortOk j) (hroom : HasRoom s a)
    (hs : step s a = some s') : ∀ j, s'.PortOk j := by
  cases a with
  | forward i c =>
    simp only [step] at hs
    split at hs
    · simp only [Option.some_inj] at hs
      subst hs
      exact setSender_portOk h trivial
    · simp at hs
  | sender i => exact senderStep_portOk h hroom hs
  | poll =>
    simp only [step] at hs
    split at hs
    · rename_i hidle
      simp only [Option.some_inj] at hs
      subst hs
      intro j
      refine (moveReceiver_portOk j (h j) (q := if h : 0 < n then .testHead ⟨0, h⟩ else .idle)
        (by simp [hidle]) ?_ ?_).frame rfl rfl rfl rfl rfl rfl
      · intro k pos t; split <;> simp
      · intro k t; split <;> simp
    · simp at hs
  | receiver => exact receiverStep_portOk h hs

theorem run_portOk {buf : Fin n → ℕ → Byte} {as : List (Label n)} {t : State n}
    (h : Run (Guarded HasRoom fun s a t ↦ step s a = some t) (State.initial buf) as t) :
    ∀ j, t.PortOk j :=
  h.invariant_guarded (initial_portOk buf) fun _ _ _ hi hc hs ↦ step_portOk hi hc hs

/-- **The console ring is a lossless queue in every run that leaves it room.**  In every state
reached, on every ring, the bytes handed to `emul_putchar` are a prefix of those forwarded, and the
ring holds exactly the rest, in order. -/
theorem run_lossless {buf : Fin n → ℕ → Byte} {as : List (Label n)} {t : State n}
    (h : Run (Guarded HasRoom fun s a t ↦ step s a = some t) (State.initial buf) as t) (i : Fin n) :
    t.delivered i <+: t.forwarded i ∧ t.delivered i ++ t.unread i = t.forwarded i :=
  have hi := (run_portOk h i).unread
  ⟨⟨_, hi⟩, hi⟩

/-- The theorem at work on one newline that is on its way through the ring. -/
theorem run_lossless_newline : ∃ t : State 1, t.forwarded 0 = [newline] ∧
    (t.delivered 0 <+: t.forwarded 0 ∧ t.delivered 0 ++ t.unread 0 = t.forwarded 0) := by
  have h : Run (Guarded HasRoom fun s a t ↦ step s a = some t)
      (State.initial fun (_ : Fin 1) _ ↦ 0) [.forward 0 newline, .sender 0, .sender 0, .sender 0,
        .sender 0] _ :=
    .cons ⟨trivial, rfl⟩ <| .cons ⟨trivial, rfl⟩ <| .cons ⟨trivial, rfl⟩ <|
      .cons ⟨trivial, rfl⟩ <| .single ⟨show 0 + 1 < bufsize by decide, rfl⟩
  exact ⟨_, rfl, run_lossless h 0⟩

/-! ## The ring that fills -/

/-- One call of `tx_virtcon_forward` with a newline, the receiver not moving: `tail` moves on,
whatever is in the ring. -/
theorem forward_run {s : State n} {i : Fin n} (h : s.sender i = .idle) :
    ∃ as s', ConsoleRun s as s' ∧ s'.sender i = .idle ∧ s'.receiver = s.receiver ∧
      (s'.ring i).tail = ((s.ring i).tail + 1) % bufsize ∧ (s'.ring i).head = (s.ring i).head ∧
      s'.forwarded i = s.forwarded i ++ [newline] ∧ s'.delivered i = s.delivered i := by
  have h1 : step s (.forward i newline) = some (s.setSender i (.index newline)) := if_pos h
  refine ⟨_, _, .cons h1 <|
    .cons (a := .sender i) (by simp [step, senderStep, State.setSender]; rfl) <|
    .cons (a := .sender i) (by simp [step, senderStep, State.setSender, State.setRing]; rfl) <|
    .cons (a := .sender i) (by simp [step, senderStep, State.setSender]; rfl) <|
    .cons (a := .sender i) (by simp [step, senderStep, State.setSender, State.setRing]; rfl) <|
    .cons (a := .sender i) (by simp [step, senderStep, State.setSender]; rfl) <|
    .single (a := .sender i) (by simp [step, senderStep, State.setSender]; rfl), ?_⟩
  simp

/-- `m` newlines forwarded to a receiver that has not started: `head` stays at 0 and `tail` has gone
`m` slots round the ring. -/
theorem fill_run (buf : Fin 1 → ℕ → Byte) (m : ℕ) :
    ∃ as s, ConsoleRun (State.initial buf) as s ∧ s.sender 0 = .idle ∧ s.receiver = .idle ∧
      (s.ring 0).tail = m % bufsize ∧ (s.ring 0).head = 0 ∧
      s.forwarded 0 = List.replicate m newline ∧ s.delivered 0 = [] := by
  induction m with
  | zero => exact ⟨[], _, .nil, rfl, rfl, rfl, rfl, rfl, rfl⟩
  | succ m ih =>
    obtain ⟨as, s, hrun, hidle, hrecv, htail, hhead, hfwd, hdlv⟩ := ih
    obtain ⟨bs, s', hrun', hidle', hrecv', htail', hhead', hfwd', hdlv'⟩ := forward_run hidle
    refine ⟨as ++ bs, s', hrun.append hrun', hidle', hrecv'.trans hrecv, ?_, hhead'.trans hhead,
      ?_, hdlv'.trans hdlv⟩
    · rw [htail', htail, Nat.mod_add_mod]
    · rw [hfwd', hfwd, List.replicate_succ']

/-- **A sender that runs a whole ring ahead loses the ring**: after `BUFSIZE` bytes `tail` is back
at `head`, and what was forwarded can no longer be told from nothing. -/
theorem not_lossless_of_full :
    ¬ ∀ (n : ℕ) (buf : Fin n → ℕ → Byte) (as : List (Label n)) (t : State n),
      ConsoleRun (State.initial buf) as t → ∀ i,
        t.delivered i <+: t.forwarded i ∧ t.delivered i ++ t.unread i = t.forwarded i := by
  intro h
  obtain ⟨as, t, hrun, -, hrecv, htail, hhead, hfwd, hdlv⟩ := fill_run (fun _ _ ↦ 0) bufsize
  have hlost := (h 1 _ as t hrun 0).2
  have hpos : t.readPos 0 = 0 := by simp only [State.readPos, hrecv, hhead]
  rw [State.unread, hpos, htail, Nat.mod_self, hdlv, hfwd] at hlost
  have hlen := congrArg List.length hlost
  rw [List.nil_append, length_window, List.length_replicate] at hlen
  exact absurd hlen (by decide)

end VirtioCon
end CamkesVm
