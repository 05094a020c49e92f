import CamkesVm.VirtioCon.Fifo

/-!
# No completed line is stranded in a console ring

A receiver looks at its rings only when it is notified, and then once at each.  So a newline that
waits in a ring has to have somebody who will see to it: a notification that is pending, its sender
if it has not got to `notify` yet, or the receiver's present run of `handle_serial_console`.

`Awake` says this of the newlines from some slot up to `tail`.  The invariant of a ring needs it
twice.  From `head` on, it is what is wanted of the ring.  From a snapshot `last_read_tail` on, it
speaks of the newlines that have come since the snapshot was taken, which the present run will not
see: when the run stores the snapshot in `head`, the second becomes the first.

The ring may fill up and be overrun meanwhile; then bytes are lost, and newlines with them, but
those that are between `head` and `tail` have still got their notification.

## What is here

* `Sender.Notifying`, `Awake` — who sees to a newline; `Awake` has a lemma for each access that can
  change it.
* `Receiver.WillRead`, `Seen` — the invariant of one ring. `will` is whether the present run is
  still going to take a snapshot.
* `ReceiverOk`, `Watched` — the invariant of the system, with one lemma for each program point of
  either party; `watched_step` collects them.
* `Alone`, `Leaves`, `Reads` — the receiver by itself: each loop over a port ends, so the ports
  behind it are reached.
* `State.Covered`, `run_line_seen` — the result, for any number of rings.

No fairness is assumed: it is shown that somebody is on the way, and that the receiver, once it
runs, gets there.
-/

set_option autoImplicit false

namespace CamkesVm
namespace VirtioCon

open Transition Cyclic

variable {n : ℕ}

/-! ## Who sees to a newline -/

/-- The sender has forwarded a newline, or found the ring full, and has not called `notify` yet. -/
def Sender.Notifying (p : Sender) : Prop := p = .test newline ∨ p = .notify

/-- Every newline from slot `pos` up to `tail` has a notification, is the last byte of a sender that
is about to notify, or is excused by `Q`, which is given the distance from `pos`. -/
def Awake (r : SerialShmem) (p : Sender) (pending : Bool) (pos : ℕ) (Q : ℕ → Prop) : Prop :=
  ∀ d < span bufsize pos r.tail, r.buf ((pos + d) % bufsize) = newline →
    pending = true ∨ (d + 1 = span bufsize pos r.tail ∧ p.Notifying) ∨ Q d

section

variable {r : SerialShmem} {p p' : Sender} {pending : Bool} {pos t : ℕ} {Q Q' : ℕ → Prop} {c : Byte}

theorem Awake.mono (h : Awake r p pending pos Q)
    (hQ : ∀ d < span bufsize pos r.tail, Q d → Q' d) : Awake r p pending pos Q' := by
  intro d hd hnl
  rcases h d hd hnl with hp | hs | hq
  · exact .inl hp
  · exact .inr (.inl hs)
  · exact .inr (.inr (hQ d hd hq))

/-- A pending notification is for all. -/
theorem awake_of_pending (r : SerialShmem) (p : Sender) (pos : ℕ) (Q : ℕ → Prop) :
    Awake r p true pos Q := fun _ _ _ ↦ .inl rfl

/-- In an empty region there is nothing to see to. -/
theorem awake_of_empty (h : span bufsize pos r.tail = 0) : Awake r p pending pos Q := by
  intro d hd
  rw [h] at hd
  exact absurd hd (Nat.not_lt_zero d)

/-- A sender moves without giving up a notification it owes. -/
theorem Awake.move (h : Awake r p pending pos Q) (hp : p.Notifying → p'.Notifying) :
    Awake r p' pending pos Q := by
  intro d hd hnl
  rcases h d hd hnl with hn | ⟨hlast, hs⟩ | hq
  · exact .inl hn
  · exact .inr (.inl ⟨hlast, hp hs⟩)
  · exact .inr (.inr hq)

/-- `buf[tail] = c` leaves the bytes before `tail` alone. -/
theorem Awake.store (h : Awake r p pending pos Q) (hp : p.Notifying → p'.Notifying)
    (hpos : pos < bufsize) (ht : r.tail < bufsize) :
    Awake { r with buf := Function.update r.buf r.tail c } p' pending pos Q := by
  intro d hd hnl
  have hlt : span bufsize pos r.tail < bufsize := span_lt (Nat.zero_lt_of_lt hpos) pos r.tail
  have hne : (pos + d) % bufsize ≠ r.tail := by
    rw [← add_span_mod hpos ht]
    exact slot_ne hd hlt
  have hsame : Function.update r.buf r.tail c ((pos + d) % bufsize) = r.buf ((pos + d) % bufsize) :=
    Function.update_of_ne hne _ _
  exact h.move hp d hd (hsame ▸ hnl)

/-- **Advancing `tail` over a newline leaves its sender about to notify.** -/
theorem Awake.advance (h : Awake r (.advance c t) pending pos Q) (hc : r.buf r.tail = c)
    (hpos : pos < bufsize) (ht : r.tail < bufsize) :
    Awake { r with tail := (r.tail + 1) % bufsize } (.test c) pending pos Q := by
  by_cases hfull : (r.tail + 1) % bufsize = pos
  · refine awake_of_empty ?_
    rw [hfull, span_eq_zero_iff hpos hpos]
  · have hspan := span_succ_right hpos ht hfull
    intro d hd hnl
    change d < span bufsize pos ((r.tail + 1) % bufsize) at hd
    change pending = true ∨ (d + 1 = span bufsize pos ((r.tail + 1) % bufsize) ∧ _) ∨ Q d
    rw [hspan] at hd ⊢
    rcases Nat.lt_succ_iff_lt_or_eq.1 hd with hold | rfl
    · -- a newline of the region before: its sender has notified long ago
      rcases h d hold hnl with hp | ⟨-, hs⟩ | hq
      · exact .inl hp
      · rcases hs with hs | hs <;> exact nomatch hs
      · exact .inr (.inr hq)
    · rw [add_span_mod hpos ht] at hnl
      exact .inr (.inl ⟨rfl, .inl (congrArg Sender.test (hc.symm.trans hnl))⟩)

end

/-! ## The invariant of one ring -/

/-- The present run of `handle_serial_console` has not loaded `last_read_tail` of port `i` yet. -/
def Receiver.WillRead (q : Receiver n) (i : Fin n) : Prop :=
  match q with
  | .idle => False
  | .testHead j | .testTail j _ | .readTail j => j ≤ i
  | .readHead j _ | .putchar j _ _ => j < i

/-- The invariant of a ring `r` whose sender is at `p`, when the receiver may hold a snapshot of
`tail` and `will` says whether it is going to take one. -/
structure Seen (r : SerialShmem) (p : Sender) (pending : Bool) (snap : Option ℕ) (will : Prop) :
    Prop where
  /-- `head` is a slot. -/
  head : r.head < bufsize
  /-- `tail` is a slot. -/
  tail : r.tail < bufsize
  /-- The sender's local values are about `tail`. -/
  sender : SenderOk r r.tail p
  /-- A snapshot is a slot. -/
  slot : ∀ t ∈ snap, t < bufsize
  /-- What is unread is seen to. -/
  unread : Awake r p pending r.head fun d ↦ (∃ t ∈ snap, d < span bufsize r.head t) ∨ will
  /-- So is what has come since the snapshot. -/
  since : ∀ t ∈ snap, Awake r p pending t fun _ ↦ False

section

variable {r : SerialShmem} {p p' : Sender} {pending : Bool} {snap : Option ℕ} {will will' : Prop}
  {c : Byte} {t : ℕ}

theorem Seen.move (h : Seen r p pending snap will) (hp : p.Notifying → p'.Notifying)
    (hs : SenderOk r r.tail p') : Seen r p' pending snap will :=
  ⟨h.head, h.tail, hs, h.slot, h.unread.move hp, fun t ht ↦ (h.since t ht).move hp⟩

theorem Seen.store (h : Seen r (.store c t) pending snap will) :
    Seen { r with buf := Function.update r.buf t c } (.reload c) pending snap will := by
  obtain rfl : t = r.tail := Eq.trans h.sender (Nat.mod_eq_of_lt h.tail)
  have hp : (Sender.store c r.tail).Notifying → (Sender.reload c).Notifying := by
    rintro (hs | hs) <;> exact nomatch hs
  have hc : Function.update r.buf r.tail c (r.tail % bufsize) = c := by
    rw [Nat.mod_eq_of_lt h.tail, Function.update_self]
  exact ⟨h.head, h.tail, hc, h.slot, h.unread.store hp h.head h.tail,
    fun u hu ↦ (h.since u hu).store hp (h.slot u hu) h.tail⟩

theorem Seen.advance (h : Seen r (.advance c t) pending snap will) :
    Seen { r with tail := (t + 1) % bufsize } (.test c) pending snap will := by
  obtain ⟨ht, hc⟩ := h.sender
  obtain rfl : t = r.tail := ht.trans (Nat.mod_eq_of_lt h.tail)
  exact ⟨h.head, Nat.mod_lt _ (by decide), trivial, h.slot, h.unread.advance hc h.head h.tail,
    fun u hu ↦ (h.since u hu).advance hc (h.slot u hu) h.tail⟩

/-- `notify` makes the notification pending. -/
theorem Seen.notify (h : Seen r .notify pending snap will) : Seen r .idle true snap will :=
  ⟨h.head, h.tail, trivial, h.slot, awake_of_pending _ _ _ _, fun _ _ ↦ awake_of_pending _ _ _ _⟩

/-- Somebody else's notification does no harm. -/
theorem Seen.setPending (h : Seen r p pending snap will) : Seen r p true snap will :=
  ⟨h.head, h.tail, h.sender, h.slot, awake_of_pending _ _ _ _, fun _ _ ↦ awake_of_pending _ _ _ _⟩

/-- The receiver moves on and has the port before it as much as before. -/
theorem Seen.mono (h : Seen r p pending snap will) (hw : will → will') :
    Seen r p pending snap will' :=
  ⟨h.head, h.tail, h.sender, h.slot, h.unread.mono fun _ _ ↦ Or.imp_right hw, h.since⟩

/-- A run that begins, or has not come to the port, will see to everything. -/
theorem Seen.poll (h : Seen r p pending snap will) : Seen r p false none True :=
  ⟨h.head, h.tail, h.sender, nofun, fun _ _ _ ↦ .inr (.inr (.inr trivial)), nofun⟩

/-- An empty ring can be left. -/
theorem Seen.pass (h : Seen r p pending none will) (hempty : r.head = r.tail) :
    Seen r p pending none will' :=
  ⟨h.head, h.tail, h.sender, nofun,
    awake_of_empty ((span_eq_zero_iff h.head h.tail).2 hempty), nofun⟩

/-- **Loading `last_read_tail` takes everything in**: what comes next comes after the snapshot. -/
theorem Seen.snapshot (h : Seen r p pending none will) :
    Seen r p pending (some r.tail) will' := by
  refine ⟨h.head, h.tail, h.sender, ?_, ?_, ?_⟩
  · rintro t ⟨⟩
    exact h.tail
  · exact h.unread.mono fun d hd _ ↦ .inl ⟨r.tail, rfl, hd⟩
  · rintro t ⟨⟩
    exact awake_of_empty ((span_eq_zero_iff h.tail h.tail).2 rfl)

/-- **Storing the snapshot in `head`** leaves what has come since. -/
theorem Seen.finish (h : Seen r p pending (some t) will) :
    Seen { r with head := t } p pending none will' := by
  refine ⟨h.slot t rfl, h.tail, ?_, nofun, ?_, nofun⟩
  · have hs := h.sender
    cases p <;> exact hs
  · exact (h.since t rfl).mono fun _ _ hf ↦ hf.elim

end

/-! ## The invariant of the system -/

/-- `Seen` of ring `i` in state `s`. -/
def State.Seen (s : State n) (i : Fin n) : Prop :=
  VirtioCon.Seen (s.ring i) (s.sender i) s.pending (s.snapshot i) (s.receiver.WillRead i)

/-- What the local values of the receiver say. -/
def ReceiverOk (ring : Fin n → SerialShmem) : Receiver n → Prop
  | .testTail j h => h = (ring j).head
  | .putchar _ pos _ => pos < bufsize
  | _ => True

/-- The invariant of the system: somebody sees to every newline. -/
structure Watched (s : State n) : Prop where
  /-- It holds of every ring. -/
  seen : ∀ i, s.Seen i
  /-- The receiver's local values are right. -/
  receiver : ReceiverOk s.ring s.receiver

theorem watched_initial (buf : Fin n → ℕ → Byte) : Watched (State.initial buf) := by
  refine ⟨fun i ↦ ⟨bufsize_pos, bufsize_pos, trivial, nofun, ?_, nofun⟩, trivial⟩
  exact awake_of_empty ((span_eq_zero_iff bufsize_pos bufsize_pos).2 rfl)

section

variable {s s' : State n} {i : Fin n}

/-- With the frame of a sender's access, only its own ring is left to check. -/
theorem SenderFrame.watched (hf : SenderFrame s s' i) (h : Watched s)
    (hpending : s'.pending = s.pending ∨ s'.pending = true)
    (hi : VirtioCon.Seen (s'.ring i) (s'.sender i) s'.pending (s.snapshot i)
      (s.receiver.WillRead i)) : Watched s' := by
  refine ⟨fun j ↦ ?_, ?_⟩
  · rw [State.Seen, snapshot_congr hf.receiver, hf.receiver]
    by_cases hj : j = i
    · subst hj
      exact hi
    · obtain ⟨hring, hsender, -⟩ := hf.others j hj
      rw [hring, hsender]
      rcases hpending with hp | hp
      · rw [hp]
        exact h.seen j
      · rw [hp]
        exact (h.seen j).setPending
  · have hr := h.receiver
    rw [hf.receiver]
    cases hq : s.receiver with
    | testTail j v =>
      rw [hq] at hr
      have hhead : (s'.ring j).head = (s.ring j).head := by
        by_cases hj : j = i
        · rw [hj, hf.head]
        · rw [(hf.others j hj).1]
      exact Eq.trans hr hhead.symm
    | putchar j pos t =>
      rw [hq] at hr
      exact hr
    | _ => trivial

/-- The sender only moved. -/
theorem watched_setSender {p : Sender} (h : Watched s)
    (hp : (s.sender i).Notifying → p.Notifying) (hs : SenderOk (s.ring i) (s.ring i).tail p) :
    Watched (s.setSender i p) := by
  refine (senderFrame_setSender s i p).watched h (.inl rfl) ?_
  simp only [State.setSender, Function.update_self]
  exact (h.seen i).move hp hs

/-! ### The program points of a sender -/

theorem watched_index {c : Byte} (h : Watched s) (hp : s.sender i = .index c) :
    Watched (s.setSender i (.store c (s.ring i).tail)) :=
  watched_setSender h (by rw [hp]; rintro (h | h) <;> cases h)
    (Nat.mod_eq_of_lt (h.seen i).tail).symm

theorem watched_store {c : Byte} {t : ℕ} (h : Watched s) (hp : s.sender i = .store c t) :
    Watched ((s.setRing i { s.ring i with buf := Function.update (s.ring i).buf t c }).setSender i
      (.reload c)) := by
  have hi := h.seen i
  rw [State.Seen, hp] at hi
  refine SenderFrame.watched (i := i) (senderStep_frame ?_) h (.inl rfl) ?_
  · simp only [senderStep, hp]
  · simpa [State.setRing, State.setSender] using hi.store

theorem watched_reload {c : Byte} (h : Watched s) (hp : s.sender i = .reload c) :
    Watched (s.setSender i (.advance c (s.ring i).tail)) := by
  have hi := h.seen i
  have hc := hi.sender
  rw [hp, SenderOk, Nat.mod_eq_of_lt hi.tail] at hc
  exact watched_setSender h (by rw [hp]; rintro (h | h) <;> cases h)
    ⟨(Nat.mod_eq_of_lt hi.tail).symm, hc⟩

theorem watched_advance {c : Byte} {t : ℕ} (h : Watched s) (hp : s.sender i = .advance c t) :
    Watched { (s.setRing i { s.ring i with tail := (t + 1) % bufsize }).setSender i (.test c) with
      forwarded := Function.update s.forwarded i (s.forwarded i ++ [c]) } := by
  have hi := h.seen i
  rw [State.Seen, hp] at hi
  refine SenderFrame.watched (i := i) (senderStep_frame ?_) h (.inl rfl) ?_
  · simp only [senderStep, hp]
  · simpa [State.setRing, State.setSender] using hi.advance

/-- After a newline the sender is going to notify. -/
theorem watched_test_newline (h : Watched s) : Watched (s.setSender i .notify) :=
  watched_setSender h (fun _ ↦ .inr rfl) trivial

/-- After another byte it does not have to. -/
theorem watched_test_other {c : Byte} {p : Sender} (h : Watched s) (hp : s.sender i = .test c)
    (hc : c ≠ newline) (hok : SenderOk (s.ring i) (s.ring i).tail p) :
    Watched (s.setSender i p) := by
  refine watched_setSender h ?_ hok
  rw [hp]
  rintro (h | h)
  · exact absurd (Sender.test.inj h) hc
  · cases h

theorem watched_full {t : ℕ} {p : Sender} (h : Watched s) (hp : s.sender i = .full t)
    (hok : SenderOk (s.ring i) (s.ring i).tail p) : Watched (s.setSender i p) :=
  watched_setSender h (by rw [hp]; rintro (h | h) <;> cases h) hok

theorem watched_notify (h : Watched s) (hp : s.sender i = .notify) :
    Watched { s.setSender i .idle with pending := true } := by
  have hi := h.seen i
  rw [State.Seen, hp] at hi
  refine SenderFrame.watched (i := i) (senderStep_frame ?_) h (.inr rfl) ?_
  · simp only [senderStep, hp]
  · simpa [State.setSender] using hi.notify

/-- **Every access of a sender keeps the invariant.** -/
theorem watched_senderStep (h : Watched s) (hs : senderStep s i = some s') : Watched s' := by
  cases hp : s.sender i with
  | idle => simp [senderStep, hp] at hs
  | index c =>
    simp only [senderStep, hp, Option.some_inj] at hs
    exact hs ▸ watched_index h hp
  | store c t =>
    simp only [senderStep, hp, Option.some_inj] at hs
    exact hs ▸ watched_store h hp
  | reload c =>
    simp only [senderStep, hp, Option.some_inj] at hs
    exact hs ▸ watched_reload h hp
  | advance c t =>
    simp only [senderStep, hp, Option.some_inj] at hs
    exact hs ▸ watched_advance h hp
  | test c =>
    simp only [senderStep, hp] at hs
    split at hs
    · exact Option.some.inj hs ▸ watched_test_newline h
    next hc => exact Option.some.inj hs ▸ watched_test_other h hp hc trivial
  | full t =>
    simp only [senderStep, hp] at hs
    split at hs <;> exact Option.some.inj hs ▸ watched_full h hp trivial
  | notify =>
    simp only [senderStep, hp, Option.some_inj] at hs
    exact hs ▸ watched_notify h hp

/-- A run that leaves port `i` has the ports behind it before it. -/
theorem willRead_nextPort {j : Fin n} (h : i < j) : (nextPort i).WillRead j := by
  have hlt : i.val + 1 < n := by omega
  rw [nextPort, dif_pos hlt]
  exact Nat.succ_le_of_lt h

theorem snapshot_nextPort (s : State n) (i j : Fin n) :
    ({ s with receiver := nextPort i } : State n).snapshot j = none := by
  by_cases hlast : i.val + 1 < n <;> simp [State.snapshot, nextPort, hlast]

theorem receiverOk_nextPort (ring : Fin n → SerialShmem) (i : Fin n) :
    ReceiverOk ring (nextPort i) := by
  rw [nextPort]
  split <;> trivial

/-- An access that changes only local values of the receiver, and keeps its snapshots. -/
theorem Watched.congr (h : Watched s) (hring : s'.ring = s.ring) (hsender : s'.sender = s.sender)
    (hpending : s'.pending = s.pending) (hsnap : ∀ j, s'.snapshot j = s.snapshot j)
    (hwill : ∀ j, s.receiver.WillRead j ↔ s'.receiver.WillRead j)
    (hok : ReceiverOk s.ring s'.receiver) : Watched s' := by
  refine ⟨fun j ↦ ?_, hring ▸ hok⟩
  have hj := h.seen j
  rw [State.Seen] at hj ⊢
  rw [hring, hsender, hpending, hsnap]
  exact hj.mono (hwill j).1

/-! ### The program points of the receiver -/

theorem watched_testHead (h : Watched s) (hq : s.receiver = .testHead i) :
    Watched { s with receiver := .testTail i (s.ring i).head } :=
  h.congr rfl rfl rfl (fun j ↦ by simp [State.snapshot, hq])
    (fun j ↦ by simp [Receiver.WillRead, hq]) rfl

theorem watched_testTail_unread {v : ℕ} (h : Watched s) (hq : s.receiver = .testTail i v) :
    Watched { s with receiver := .readTail i } :=
  h.congr rfl rfl rfl (fun j ↦ by simp [State.snapshot, hq])
    (fun j ↦ by simp [Receiver.WillRead, hq]) trivial

/-- An empty ring is passed over. -/
theorem watched_testTail_empty (h : Watched s) (hq : s.receiver = .testTail i (s.ring i).tail) :
    Watched { s with receiver := nextPort i } := by
  have hr := h.receiver
  rw [hq] at hr
  refine ⟨fun j ↦ ?_, receiverOk_nextPort _ _⟩
  have hj := h.seen j
  simp only [State.Seen, State.snapshot, hq, Receiver.WillRead] at hj
  rw [State.Seen, snapshot_nextPort]
  by_cases hij : j = i
  · subst hij
    exact hj.pass (Eq.symm hr)
  · exact hj.mono fun hle ↦
      willRead_nextPort (Nat.lt_of_le_of_ne hle fun h ↦ hij (Fin.ext h.symm))

/-- The snapshot is taken. -/
theorem watched_readTail (h : Watched s) (hq : s.receiver = .readTail i) :
    Watched { s with receiver := .readHead i (s.ring i).tail } := by
  refine ⟨fun j ↦ ?_, trivial⟩
  have hj := h.seen j
  simp only [State.Seen, State.snapshot, hq, Receiver.WillRead] at hj ⊢
  by_cases hij : i = j
  · subst hij
    rw [if_pos rfl]
    exact hj.snapshot
  · rw [if_neg hij]
    exact hj.mono fun hle ↦ Nat.lt_of_le_of_ne hle fun h ↦ hij (Fin.ext h)

theorem watched_readHead {t : ℕ} (h : Watched s) (hq : s.receiver = .readHead i t) :
    Watched { s with receiver := .putchar i (s.ring i).head t } :=
  h.congr rfl rfl rfl (fun j ↦ by simp [State.snapshot, hq])
    (fun j ↦ by simp [Receiver.WillRead, hq]) (h.seen i).head

/-- The snapshot is stored in `head`. -/
theorem watched_putchar_last {t : ℕ} (h : Watched s) (hq : s.receiver = .putchar i t t) :
    Watched { s.setRing i { s.ring i with head := t } with receiver := nextPort i } := by
  refine ⟨fun j ↦ ?_, receiverOk_nextPort _ _⟩
  have hj := h.seen j
  simp only [State.Seen, State.snapshot, hq, Receiver.WillRead] at hj
  rw [State.Seen, snapshot_nextPort]
  by_cases hij : i = j
  · subst hij
    rw [if_pos rfl] at hj
    simpa [State.setRing] using hj.finish
  · rw [if_neg hij] at hj
    simpa [State.setRing, Ne.symm hij] using hj.mono fun hlt ↦ willRead_nextPort hlt

theorem watched_putchar {pos t : ℕ} (h : Watched s) (hq : s.receiver = .putchar i pos t) :
    Watched { s with
      receiver := .putchar i ((pos + 1) % bufsize) t
      delivered := Function.update s.delivered i (s.delivered i ++ [(s.ring i).buf pos]) } :=
  h.congr rfl rfl rfl (fun j ↦ by simp [State.snapshot, hq])
    (fun j ↦ by simp [Receiver.WillRead, hq]) (Nat.mod_lt _ bufsize_pos)

/-- **Every access of the receiver keeps the invariant.** -/
theorem watched_receiverStep (h : Watched s) (hs : receiverStep s = some s') : Watched s' := by
  cases hq : s.receiver with
  | idle => simp [receiverStep, hq] at hs
  | testHead i =>
    simp only [receiverStep, hq, Option.some_inj] at hs
    exact hs ▸ watched_testHead h hq
  | testTail i v =>
    simp only [receiverStep, hq] at hs
    split at hs
    · exact Option.some.inj hs ▸ watched_testTail_unread h hq
    next hempty =>
      rw [not_not.1 hempty] at hq
      exact Option.some.inj hs ▸ watched_testTail_empty h hq
  | readTail i =>
    simp only [receiverStep, hq, Option.some_inj] at hs
    exact hs ▸ watched_readTail h hq
  | readHead i t =>
    simp only [receiverStep, hq, Option.some_inj] at hs
    exact hs ▸ watched_readHead h hq
  | putchar i pos t =>
    simp only [receiverStep, hq] at hs
    split at hs
    next hlast =>
      rw [hlast] at hq
      exact Option.some.inj hs ▸ watched_putchar_last h hq
    · exact Option.some.inj hs ▸ watched_putchar h hq

/-- **Every step of the system keeps the invariant**, room or no room. -/
theorem watched_step {a : Label n} (h : Watched s) (hs : step s a = some s') : Watched s' := by
  cases a with
  | forward i c =>
    simp only [step] at hs
    split at hs
    · rename_i hidle
      simp only [Option.some_inj] at hs
      subst hs
      exact watched_setSender h (by rw [hidle]; rintro (h | h) <;> cases h) trivial
    · simp at hs
  | sender i => exact watched_senderStep h hs
  | poll =>
    simp only [step] at hs
    split at hs
    · simp only [Option.some_inj] at hs
      subst hs
      refine ⟨fun j ↦ ?_, ?_⟩
      · have hpos : 0 < n := Nat.lt_of_le_of_lt (Nat.zero_le _) j.isLt
        simp only [State.Seen, State.snapshot, dif_pos hpos, Receiver.WillRead]
        exact (h.seen j).poll.mono fun _ ↦ Nat.zero_le _
      · split <;> trivial
    · simp at hs
  | receiver => exact watched_receiverStep h hs

end

theorem run_watched {buf : Fin n → ℕ → Byte} {as : List (Label n)} {t : State n}
    (h : ConsoleRun (State.initial buf) as t) : Watched t :=
  h.invariant (watched_initial buf) fun _ _ _ hi hs ↦ watched_step hi hs

/-! ## The receiver on its own

That a run of `handle_serial_console` will take a snapshot of a port means that it gets there: no
port before it keeps the receiver for ever. -/

/-- Some number of accesses of the receiver, and nothing else, lead from `s` to `u`. -/
def Alone (s u : State n) : Prop := ∃ k, ConsoleRun s (List.replicate k .receiver) u

section

variable {s s' u v : State n} {i j : Fin n}

theorem Alone.trans (h : Alone s u) (h' : Alone u v) : Alone s v := by
  obtain ⟨k, hrun⟩ := h
  obtain ⟨k', hrun'⟩ := h'
  refine ⟨k + k', ?_⟩
  rw [List.replicate_add]
  exact hrun.append hrun'

theorem alone_of_step (h : receiverStep s = some s') : Alone s s' :=
  ⟨1, Run.single (a := Label.receiver) h⟩

theorem Alone.watched (h : Alone s u) (hs : Watched s) : Watched u := by
  obtain ⟨k, hrun⟩ := h
  exact hrun.invariant hs fun _ _ _ hi hs ↦ watched_step hi hs

/-- The receiver gets away from port `j`, and touches no other ring on the way. -/
def Leaves (s : State n) (j : Fin n) : Prop :=
  ∃ u, Alone s u ∧ u.receiver = nextPort j ∧ ∀ i, i ≠ j → u.ring i = s.ring i

/-- An access that changes no ring. -/
theorem Leaves.of_step (hstep : receiverStep s = some s') (hring : s'.ring = s.ring)
    (h : Leaves s' j) : Leaves s j := by
  obtain ⟨u, halone, hu, hrings⟩ := h
  exact ⟨u, (alone_of_step hstep).trans halone, hu, fun i hi ↦ (hrings i hi).trans (by rw [hring])⟩

/-- **The loop of `emul_putchar`** hands on the bytes up to the snapshot, and ends: the distance to
the snapshot shrinks. -/
theorem alone_putchar {pos t m : ℕ} (hq : s.receiver = .putchar j pos t) (hpos : pos < bufsize)
    (ht : t < bufsize) (hm : span bufsize pos t = m) :
    ∃ u, Alone s u ∧ u.receiver = nextPort j ∧ (∀ i, i ≠ j → u.ring i = s.ring i) ∧
      u.ring j = { s.ring j with head := t } ∧
      u.delivered j = s.delivered j ++ window bufsize (s.ring j).buf pos m := by
  induction m generalizing s pos with
  | zero =>
    obtain rfl := (span_eq_zero_iff hpos ht).1 hm
    have hstep : receiverStep s = some { s.setRing j { s.ring j with head := pos } with
        receiver := nextPort j } := by
      simp only [receiverStep, hq, if_pos]
    refine ⟨_, alone_of_step hstep, rfl, fun i hi ↦ Function.update_of_ne hi _ _,
      Function.update_self .., ?_⟩
    rw [window_zero, List.append_nil]
    rfl
  | succ m ih =>
    have hne : pos ≠ t := by
      rintro rfl
      rw [(span_eq_zero_iff hpos hpos).2 rfl] at hm
      exact absurd hm (Nat.succ_ne_zero m).symm
    have hstep : receiverStep s = some { s with
        receiver := .putchar j ((pos + 1) % bufsize) t
        delivered := Function.update s.delivered j (s.delivered j ++ [(s.ring j).buf pos]) } := by
      simp only [receiverStep, hq, if_neg hne]
    rw [span_succ_left hpos ht hne] at hm
    obtain ⟨u, halone, hu, hrings, hring, hdlv⟩ := ih (s := { s with
      receiver := .putchar j ((pos + 1) % bufsize) t
      delivered := Function.update s.delivered j (s.delivered j ++ [(s.ring j).buf pos]) }) rfl
      (Nat.mod_lt _ bufsize_pos) (Nat.succ.inj hm)
    refine ⟨u, (alone_of_step hstep).trans halone, hu, hrings, hring, ?_⟩
    simp only [Function.update_self, window_mod] at hdlv
    rw [hdlv, window_succ, Nat.mod_eq_of_lt hpos, List.append_assoc, List.singleton_append]

theorem leaves_putchar {pos t : ℕ} (hq : s.receiver = .putchar j pos t) (hpos : pos < bufsize)
    (ht : t < bufsize) : Leaves s j := by
  obtain ⟨u, halone, hu, hrings, -⟩ := alone_putchar hq hpos ht rfl
  exact ⟨u, halone, hu, hrings⟩

theorem leaves_readHead {t : ℕ} (h : Watched s) (hq : s.receiver = .readHead j t) :
    Leaves s j := by
  have hstep : receiverStep s = some { s with receiver := .putchar j (s.ring j).head t } := by
    simp only [receiverStep, hq]
  have ht : t < bufsize := (h.seen j).slot t (by simp [State.snapshot, hq])
  exact .of_step hstep rfl (leaves_putchar rfl (h.seen j).head ht)

theorem leaves_readTail (h : Watched s) (hq : s.receiver = .readTail j) : Leaves s j := by
  have hstep : receiverStep s = some { s with receiver := .readHead j (s.ring j).tail } := by
    simp only [receiverStep, hq]
  exact .of_step hstep rfl (leaves_readHead (watched_receiverStep h hstep) rfl)

theorem leaves_testTail {v : ℕ} (h : Watched s) (hq : s.receiver = .testTail j v) :
    Leaves s j := by
  by_cases hv : v = (s.ring j).tail
  · have hstep : receiverStep s = some { s with receiver := nextPort j } := by
      simp only [receiverStep, hq, hv, ne_eq, not_true_eq_false, if_false]
    exact ⟨_, alone_of_step hstep, rfl, fun _ _ ↦ rfl⟩
  · have hstep : receiverStep s = some { s with receiver := .readTail j } := by
      simp only [receiverStep, hq, ne_eq, hv, not_false_eq_true, if_true]
    exact .of_step hstep rfl (leaves_readTail (watched_receiverStep h hstep) rfl)

theorem leaves_testHead (h : Watched s) (hq : s.receiver = .testHead j) : Leaves s j := by
  have hstep : receiverStep s = some { s with receiver := .testTail j (s.ring j).head } := by
    simp only [receiverStep, hq]
  exact .of_step hstep rfl (leaves_testTail (watched_receiverStep h hstep) rfl)

/-- The receiver loads `last_read_tail` of port `i`, whose ring it finds as it is. -/
def Reads (s : State n) (i : Fin n) : Prop :=
  ∃ u, Alone s u ∧ u.receiver = .readHead i (s.ring i).tail ∧ u.ring i = s.ring i

/-- An access that does not change the ring of the port. -/
theorem Reads.of_alone (halone : Alone s u) (hring : u.ring i = s.ring i) (h : Reads u i) :
    Reads s i := by
  obtain ⟨v, halone', hv, hring'⟩ := h
  exact ⟨v, halone.trans halone', hring ▸ hv, hring'.trans hring⟩

theorem reads_readTail (hq : s.receiver = .readTail i) : Reads s i := by
  have hstep : receiverStep s = some { s with receiver := .readHead i (s.ring i).tail } := by
    simp only [receiverStep, hq]
  exact ⟨_, alone_of_step hstep, rfl, rfl⟩

/-- A ring that is not empty passes the test. -/
theorem reads_testTail {v : ℕ} (hq : s.receiver = .testTail i v) (hv : v ≠ (s.ring i).tail) :
    Reads s i := by
  have hstep : receiverStep s = some { s with receiver := .readTail i } := by
    simp only [receiverStep, hq, ne_eq, hv, not_false_eq_true, if_true]
  exact .of_alone (alone_of_step hstep) rfl (reads_readTail rfl)

/-- From the start of any port up to `i` the receiver gets to port `i`. -/
theorem reads_testHead {m : ℕ} (h : Watched s) (hq : s.receiver = .testHead j)
    (hm : j.val + m = i.val) (hne : (s.ring i).head ≠ (s.ring i).tail) : Reads s i := by
  induction m generalizing s j with
  | zero =>
    obtain rfl : j = i := Fin.ext hm
    have hstep : receiverStep s = some { s with receiver := .testTail j (s.ring j).head } := by
      simp only [receiverStep, hq]
    exact .of_alone (alone_of_step hstep) rfl (reads_testTail rfl hne)
  | succ m ih =>
    obtain ⟨u, halone, hu, hrings⟩ := leaves_testHead h hq
    have hi := i.isLt
    have hring : u.ring i = s.ring i := hrings i fun hij ↦ by
      have hval := congrArg Fin.val hij
      omega
    rw [nextPort, dif_pos (by omega)] at hu
    exact .of_alone halone hring (ih (halone.watched h) hu (by simp only; omega) (hring ▸ hne))

/-- A receiver that gets away from a port before `i` gets to port `i`. -/
theorem Leaves.reads (hl : Leaves s j) (h : Watched s) (hij : j < i)
    (hne : (s.ring i).head ≠ (s.ring i).tail) : Reads s i := by
  obtain ⟨u, halone, hu, hrings⟩ := hl
  have hlt : j.val < i.val := hij
  have hi := i.isLt
  have hring : u.ring i = s.ring i := hrings i fun h ↦ absurd (congrArg Fin.val h) (by omega)
  rw [nextPort, dif_pos (by omega)] at hu
  exact .of_alone halone hring
    (reads_testHead (m := i.val - (j.val + 1)) (halone.watched h) hu (by simp only; omega)
      (hring ▸ hne))

/-- **A run that has the port before it takes its snapshot**, if the ring is not empty. -/
theorem reads_of_willRead (h : Watched s) (hwill : s.receiver.WillRead i)
    (hne : (s.ring i).head ≠ (s.ring i).tail) : Reads s i := by
  have hr := h.receiver
  cases hq : s.receiver with
  | idle =>
    rw [hq] at hwill
    exact hwill.elim
  | testHead j =>
    rw [hq] at hwill
    have hle : j.val ≤ i.val := hwill
    exact reads_testHead (m := i.val - j.val) h hq (by omega) hne
  | testTail j v =>
    rw [hq] at hwill hr
    rcases Nat.lt_or_eq_of_le (show j.val ≤ i.val from hwill) with hlt | heq
    · exact (leaves_testTail h hq).reads h hlt hne
    · obtain rfl : j = i := Fin.ext heq
      exact reads_testTail hq (Eq.trans_ne hr hne)
  | readTail j =>
    rw [hq] at hwill
    rcases Nat.lt_or_eq_of_le (show j.val ≤ i.val from hwill) with hlt | heq
    · exact (leaves_readTail h hq).reads h hlt hne
    · obtain rfl : j = i := Fin.ext heq
      exact reads_readTail hq
  | readHead j t =>
    rw [hq] at hwill
    exact (leaves_readHead h hq).reads h hwill hne
  | putchar j pos t =>
    rw [hq] at hwill hr
    have ht : t < bufsize := (h.seen j).slot t (by simp [State.snapshot, hq])
    exact (leaves_putchar hq hr ht).reads h hwill hne

end

/-! ## Runs -/

/-- The newline `d` slots behind `head` of ring `i` is before the snapshot that the receiver holds
of the port. -/
def State.Covered (s : State n) (i : Fin n) (d : ℕ) : Prop :=
  ∃ t ∈ s.snapshot i, d < span bufsize (s.ring i).head t

/-- **No completed line is stranded.**  In every state that any interleaving leads to, whatever the
number of rings: a newline between `head` and `tail` of a ring has a notification that is pending,
or is the last byte of a sender that has not called `notify` yet, or is before the snapshot that the
receiver's present run of `handle_serial_console` holds of the port, or that run has the port before
it and takes, by its own next accesses, a snapshot behind the newline. -/
theorem run_line_seen {buf : Fin n → ℕ → Byte} {as : List (Label n)} {s : State n}
    (h : ConsoleRun (State.initial buf) as s) (i : Fin n) {d : ℕ}
    (hd : d < span bufsize (s.ring i).head (s.ring i).tail)
    (hnl : (s.ring i).buf (((s.ring i).head + d) % bufsize) = newline) :
    s.pending = true ∨
      (d + 1 = span bufsize (s.ring i).head (s.ring i).tail ∧ (s.sender i).Notifying) ∨
      s.Covered i d ∨
      (s.receiver.WillRead i ∧ ∃ u, Alone s u ∧ u.ring i = s.ring i ∧ u.Covered i d) := by
  have hw := run_watched h
  rcases (hw.seen i).unread d hd hnl with hp | hs | hc | hwill
  · exact .inl hp
  · exact .inr (.inl hs)
  · exact .inr (.inr (.inl hc))
  · have hne : (s.ring i).head ≠ (s.ring i).tail := fun he ↦ by
      rw [(span_eq_zero_iff (hw.seen i).head (hw.seen i).tail).2 he] at hd
      exact absurd hd (Nat.not_lt_zero d)
    obtain ⟨u, halone, hu, hring⟩ := reads_of_willRead hw hwill hne
    refine .inr (.inr (.inr ⟨hwill, u, halone, hring, (s.ring i).tail, ?_, hring ▸ hd⟩))
    simp [State.snapshot, hu]

/-- The theorem at work on one newline whose sender has just stored `tail`. -/
theorem run_line_seen_newline : ∃ s : State 1, (s.forwarded 0 = [newline] ∧ s.pending = false) ∧
    (s.pending = true ∨
      (0 + 1 = span bufsize (s.ring 0).head (s.ring 0).tail ∧ (s.sender 0).Notifying) ∨
      s.Covered 0 0 ∨
      (s.receiver.WillRead 0 ∧ ∃ u, Alone s u ∧ u.ring 0 = s.ring 0 ∧ u.Covered 0 0)) := by
  have h : ConsoleRun (State.initial fun (_ : Fin 1) _ ↦ 0)
      [.forward 0 newline, .sender 0, .sender 0, .sender 0, .sender 0] _ :=
    .cons rfl <| .cons rfl <| .cons rfl <| .cons rfl <| .single rfl
  exact ⟨_, ⟨rfl, rfl⟩, run_line_seen h 0 (d := 0) (by decide) (by decide)⟩

end VirtioCon
end CamkesVm
