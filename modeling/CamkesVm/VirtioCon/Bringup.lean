import CamkesVm.VirtioCon.Wakeup

/-!
# Bringing the console connections up

Each VMM sets its ports up in `make_virtio_con_virtqueues` when it starts, and the VMMs of a system
start in any order.  On x86 the function looks up the two channels of a port and clears `head` and
`tail` of both, its own and the other end's: a ring that the other end has been writing to in the
meantime is empty afterwards.

Here calls are what happens in one go: `txVirtconForward` and `virtioConNotifyRecv` are the
functions of `System` performed without interruption (`alone_txVirtconForward`,
`alone_virtioConNotifyRecv`).  The system has any number of VMMs, with any connections between them;
it is taken to forward fewer than `BUFSIZE` bytes on a ring, so that none fills up.
`run_reliable_iff` says which initialisations do no harm: those of ends whose rings are empty, or
not in use yet.

## What is here

* `txVirtconForward`, `virtioConNotifyRecv`, `SerialShmem.contents` — the two calls, and what a ring
  holds.
* `Composition`, `SerialLayout`, `SerialConn`, `Links` — what the composition says, and the state of
  all VMMs and rings.
* `makeVirtioConVirtqueues`, `Links.drain`, `Event`, `call` — the functions of the source, and one
  call of a VMM.
* `Links.InUse`, `Links.Reliable` — the rings that some VMM uses, and what should be true of them.
* `Links.Sound`, `Drained` — the invariant, which holds whatever is initialised when, and what a
  call of `handle_serial_console` does to it.
* `harmless_iff`, `run_reliable_iff`, `not_reliable_twoVmms` — one call, runs, and two VMMs of which
  one starts late.
-/

set_option autoImplicit false

namespace CamkesVm
namespace VirtioCon

open Transition Cyclic

/-! ## Calls on a ring -/

/-- What `tx_virtcon_forward` does to the ring. -/
def txVirtconForward (r : SerialShmem) (c : Byte) : SerialShmem :=
  { r with buf := Function.update r.buf r.tail c, tail := (r.tail + 1) % bufsize }

/-- What a ring holds. -/
def SerialShmem.contents (r : SerialShmem) : List Byte :=
  window bufsize r.buf r.head (span bufsize r.head r.tail)

/-- `head = 0; tail = 0`. -/
def SerialShmem.clear (r : SerialShmem) : SerialShmem := { r with head := 0, tail := 0 }

/-- `virtio_con_notify_recv`: the bytes handed to `emul_putchar`, and the ring afterwards. -/
def virtioConNotifyRecv (r : SerialShmem) : List Byte × SerialShmem :=
  (r.contents, { r with head := r.tail })

section

variable {n : ℕ} {s : State n} {i j : Fin n}

/-- A sender that nobody interrupts performs `txVirtconForward`. -/
theorem alone_txVirtconForward (h : s.sender i = .idle) (c : Byte) :
    ∃ as u, ConsoleRun s as u ∧ u.ring i = txVirtconForward (s.ring i) c ∧
      u.forwarded i = s.forwarded i ++ [c] := by
  have h1 : step s (.forward i c) = some (s.setSender i (.index c)) := if_pos h
  refine ⟨_, _, .cons h1 <|
    .cons (a := .sender i) (by simp [step, senderStep, State.setSender]; rfl) <|
    .cons (a := .sender i) (by simp [step, senderStep, State.setSender, State.setRing]; rfl) <|
    .cons (a := .sender i) (by simp [step, senderStep, State.setSender]; rfl) <|
    .single (a := .sender i) (by simp [step, senderStep, State.setSender, State.setRing]; rfl), ?_⟩
  simp [txVirtconForward]

/-- A receiver that nobody interrupts performs `virtioConNotifyRecv`. -/
theorem alone_virtioConNotifyRecv (h : Watched s) (hq : s.receiver = .readTail j) :
    ∃ u, Alone s u ∧ u.ring j = (virtioConNotifyRecv (s.ring j)).2 ∧
      u.delivered j = s.delivered j ++ (virtioConNotifyRecv (s.ring j)).1 := by
  have hread : receiverStep s = some { s with receiver := .readHead j (s.ring j).tail } := by
    simp only [receiverStep, hq]
  have hhead : receiverStep { s with receiver := .readHead j (s.ring j).tail } =
      some { s with receiver := .putchar j (s.ring j).head (s.ring j).tail } := rfl
  obtain ⟨u, halone, -, -, hring, hdlv⟩ := alone_putchar
    (s := { s with receiver := .putchar j (s.ring j).head (s.ring j).tail }) rfl (h.seen j).head
    (h.seen j).tail rfl
  exact ⟨u, ((alone_of_step hread).trans (alone_of_step hhead)).trans halone, hring, hdlv⟩

end

/-! ## What a ring holds -/

theorem SerialShmem.clear_clear (r : SerialShmem) : r.clear.clear = r.clear := rfl

theorem SerialShmem.contents_of_empty {r : SerialShmem} (hhead : r.head < bufsize)
    (h : r.head = r.tail) : r.contents = [] := by
  rw [SerialShmem.contents, ← h, (span_eq_zero_iff hhead hhead).2 rfl, window_zero]

theorem SerialShmem.contents_clear (r : SerialShmem) : r.clear.contents = [] :=
  contents_of_empty bufsize_pos rfl

theorem SerialShmem.length_contents (r : SerialShmem) :
    r.contents.length = span bufsize r.head r.tail := length_window _ _ _

/-- **`tx_virtcon_forward` appends**, if the ring is not full. -/
theorem contents_txVirtconForward {r : SerialShmem} (c : Byte) (hhead : r.head < bufsize)
    (htail : r.tail < bufsize) (hroom : r.contents.length + 1 < bufsize) :
    (txVirtconForward r c).contents = r.contents ++ [c] := by
  rw [SerialShmem.length_contents] at hroom
  have hfree : (r.tail + 1) % bufsize ≠ r.head := by
    intro hfull
    have hend : (r.head + (span bufsize r.head r.tail + 1)) % bufsize = r.head := by
      rw [← Nat.add_assoc, Nat.add_mod, add_span_mod hhead htail, Nat.add_mod_mod, hfull]
    have hne : (r.head + 0) % bufsize ≠ (r.head + (span bufsize r.head r.tail + 1)) % bufsize :=
      slot_ne (Nat.zero_lt_succ _) hroom
    rw [Nat.add_zero, Nat.mod_eq_of_lt hhead] at hne
    exact hne hend.symm
  have hupdate : window bufsize (Function.update r.buf ((r.head + span bufsize r.head r.tail) %
      bufsize) c) r.head (span bufsize r.head r.tail + 1) = _ :=
    window_update_succ r.buf c (Nat.lt_of_succ_lt hroom)
  rw [add_span_mod hhead htail] at hupdate
  change window bufsize (Function.update r.buf r.tail c) r.head
    (span bufsize r.head ((r.tail + 1) % bufsize)) = _
  rw [span_succ_right hhead htail hfree, hupdate, SerialShmem.contents]

/-- The indices of a ring are slots. -/
def SerialShmem.Ok (r : SerialShmem) : Prop := r.head < bufsize ∧ r.tail < bufsize

theorem SerialShmem.Ok.contents_eq_nil_iff {r : SerialShmem} (h : r.Ok) :
    r.contents = [] ↔ r.head = r.tail := by
  rw [← List.length_eq_zero_iff, length_contents, span_eq_zero_iff h.1 h.2]

/-- **`virtio_con_notify_recv` empties the ring.** -/
theorem SerialShmem.Ok.contents_virtioConNotifyRecv {r : SerialShmem} (h : r.Ok) :
    (virtioConNotifyRecv r).2.contents = [] :=
  SerialShmem.contents_of_empty (r := { r with head := r.tail }) h.2 rfl

/-! ## The system -/

/-- The roles `get_virtqueue_channel` is asked for. -/
inductive VirtqueueRole
  /-- `VIRTQUEUE_DEVICE`. -/
  | device
  /-- `VIRTQUEUE_DRIVER`. -/
  | driver
  deriving DecidableEq

/-- An entry of `serial_layout`. -/
structure SerialLayout where
  /-- `recv_id`. -/
  recvId : ℕ
  /-- `send_id`. -/
  sendId : ℕ

/-- A port that is set up (`serial_conn_t`): the rings it receives from and sends to. -/
structure SerialConn (κ : Type) where
  /-- `recv_buf`. -/
  recvBuf : κ
  /-- `send_buf`. -/
  sendBuf : κ

/-- What the composition says: the ports of each VMM, and the ring behind each of its channels. -/
structure Composition (ε κ : Type) where
  /-- `serial_layout`. -/
  serialLayout : ε → List SerialLayout
  /-- `get_virtqueue_channel`, which may fail. -/
  getVirtqueueChannel : ε → VirtqueueRole → ℕ → Option κ

/-- The VMMs, the rings they share, and what went in and came out of each ring so far. -/
structure Links (ε κ : Type) where
  /-- `connections` of each VMM, once it has initialised them. -/
  connections : ε → Option (List (SerialConn κ))
  /-- The shared pages. -/
  ring : κ → SerialShmem
  /-- The bytes forwarded on each ring. -/
  forwarded : κ → List Byte
  /-- The bytes delivered from each ring. -/
  delivered : κ → List Byte

/-- Before any VMM has started.  The memory may hold anything. -/
def Links.initial {ε κ : Type} (ring : κ → SerialShmem) : Links ε κ :=
  ⟨fun _ ↦ none, ring, fun _ ↦ [], fun _ ↦ []⟩

section

variable {ε κ : Type} [DecidableEq ε] [DecidableEq κ]

/-- `make_virtio_con_virtqueues`: sets the ports up one after the other and clears their rings.
When a channel is missing it gives up. -/
def makeVirtioConVirtqueues (channel : VirtqueueRole → ℕ → Option κ) :
    List SerialLayout → (κ → SerialShmem) → List (SerialConn κ) × (κ → SerialShmem)
  | [], ring => ([], ring)
  | port :: rest, ring =>
    match channel .device port.recvId, channel .driver port.sendId with
    | some recv, some send =>
      let ring := Function.update ring recv (ring recv).clear
      let ring := Function.update ring send (ring send).clear
      let set := makeVirtioConVirtqueues channel rest ring
      (⟨recv, send⟩ :: set.1, set.2)
    | _, _ => ([], ring)

/-- The body of the loop of `handle_serial_console`. -/
def Links.drain (s : Links ε κ) (conn : SerialConn κ) : Links ε κ :=
  let r := s.ring conn.recvBuf
  if r.head ≠ r.tail then
    let recv := virtioConNotifyRecv r
    { s with
      ring := Function.update s.ring conn.recvBuf recv.2
      delivered := Function.update s.delivered conn.recvBuf
        (s.delivered conn.recvBuf ++ recv.1) }
  else s

/-- What can happen next. -/
inductive Event (ε : Type)
  /-- A VMM runs `make_virtio_con_virtqueues`. -/
  | init (e : ε)
  /-- A VMM runs `tx_virtcon_forward`. -/
  | forward (e : ε) (port : ℕ) (c : Byte)
  /-- A VMM runs `handle_serial_console`. -/
  | handle (e : ε)

/-- A call of a VMM.  A port that could not be set up has no rings, and a call that needs them
faults. -/
def call (C : Composition ε κ) (s : Links ε κ) : Event ε → Option (Links ε κ)
  | .init e =>
    match s.connections e with
    | some _ => none
    | none =>
      let set := makeVirtioConVirtqueues (C.getVirtqueueChannel e) (C.serialLayout e) s.ring
      some { s with
        connections := Function.update s.connections e (some set.1)
        ring := set.2 }
  | .forward e port c =>
    match s.connections e with
    | none => none
    | some conns =>
      if (C.serialLayout e).length ≤ port then some s
      else
        match conns[port]? with
        | none => none
        | some conn =>
          some { s with
            ring := Function.update s.ring conn.sendBuf
              (txVirtconForward (s.ring conn.sendBuf) c)
            forwarded := Function.update s.forwarded conn.sendBuf
              (s.forwarded conn.sendBuf ++ [c]) }
  | .handle e =>
    match s.connections e with
    | none => none
    | some conns =>
      if conns.length = (C.serialLayout e).length then some (conns.foldl Links.drain s) else none

/-- The calls of a system that forwards fewer than `BUFSIZE` bytes on each ring. -/
def Calls (C : Composition ε κ) (s : Links ε κ) (a : Event ε) (t : Links ε κ) : Prop :=
  call C s a = some t ∧ ∀ k, (t.forwarded k).length < bufsize

/-- Ring `k` belongs to one of the connections. -/
def Uses (conns : List (SerialConn κ)) (k : κ) : Prop :=
  ∃ conn ∈ conns, k = conn.recvBuf ∨ k = conn.sendBuf

/-- Some VMM that has started uses ring `k`. -/
def Links.InUse (s : Links ε κ) (k : κ) : Prop :=
  ∃ e conns, s.connections e = some conns ∧ Uses conns k

/-- The links work: nothing that was forwarded is lost, and the next
`handle_serial_console` of the receiving end delivers it. -/
structure Links.Reliable (C : Composition ε κ) (s : Links ε κ) : Prop where
  /-- A ring holds what was forwarded on it and not delivered yet. -/
  kept : ∀ k, s.InUse k → s.delivered k ++ (s.ring k).contents = s.forwarded k
  /-- After `handle_serial_console` everything is delivered. -/
  delivers : ∀ e t conns, s.connections e = some conns → call C s (.handle e) = some t →
    ∀ conn ∈ conns, t.delivered conn.recvBuf = s.forwarded conn.recvBuf

end

/-! ## What the calls do -/

section

variable {ε κ : Type}

/-- The ports that `make_virtio_con_virtqueues` gets to. -/
def ports (channel : VirtqueueRole → ℕ → Option κ) : List SerialLayout → List (SerialConn κ)
  | [] => []
  | port :: rest =>
    match channel .device port.recvId, channel .driver port.sendId with
    | some recv, some send => ⟨recv, send⟩ :: ports channel rest
    | _, _ => []

theorem uses_cons {conn : SerialConn κ} {conns : List (SerialConn κ)} {k : κ} :
    Uses (conn :: conns) k ↔ (k = conn.recvBuf ∨ k = conn.sendBuf) ∨ Uses conns k := by
  simp [Uses]

theorem inUse_congr {s t : Links ε κ} (h : t.connections = s.connections) (k : κ) :
    t.InUse k ↔ s.InUse k := by
  rw [Links.InUse, h, Links.InUse]

/-- `t` comes from `s` by moving bytes from rings to where they are delivered. -/
structure Drained (s t : Links ε κ) : Prop where
  /-- No port is set up. -/
  connections : t.connections = s.connections
  /-- Nothing is forwarded. -/
  forwarded : t.forwarded = s.forwarded
  /-- Indices stay slots. -/
  ok : ∀ k, (s.ring k).Ok → (t.ring k).Ok
  /-- No byte is lost. -/
  kept : ∀ k, (s.ring k).Ok →
    t.delivered k ++ (t.ring k).contents = s.delivered k ++ (s.ring k).contents
  /-- An empty ring stays empty. -/
  empty : ∀ k, (s.ring k).Ok → (s.ring k).contents = [] → (t.ring k).contents = []

theorem Drained.refl (s : Links ε κ) : Drained s s :=
  ⟨rfl, rfl, fun _ h ↦ h, fun _ _ ↦ rfl, fun _ _ h ↦ h⟩

theorem Drained.trans {s t u : Links ε κ} (h : Drained s t) (h' : Drained t u) : Drained s u :=
  ⟨h'.connections.trans h.connections, h'.forwarded.trans h.forwarded,
    fun k hk ↦ h'.ok k (h.ok k hk), fun k hk ↦ (h'.kept k (h.ok k hk)).trans (h.kept k hk),
    fun k hk he ↦ h'.empty k (h.ok k hk) (h.empty k hk he)⟩

variable [DecidableEq κ]

/-- **What `make_virtio_con_virtqueues` does**: it sets up the ports it gets to and clears their
rings, and no others. -/
theorem makeVirtioConVirtqueues_spec (channel : VirtqueueRole → ℕ → Option κ)
    (layout : List SerialLayout) (ring : κ → SerialShmem) :
    (makeVirtioConVirtqueues channel layout ring).1 = ports channel layout ∧
      ∀ k, (Uses (ports channel layout) k →
          (makeVirtioConVirtqueues channel layout ring).2 k = (ring k).clear) ∧
        (¬ Uses (ports channel layout) k →
          (makeVirtioConVirtqueues channel layout ring).2 k = ring k) := by
  induction layout generalizing ring with
  | nil => exact ⟨rfl, fun k ↦ ⟨by simp [ports, Uses], fun _ ↦ rfl⟩⟩
  | cons port rest ih =>
    rw [makeVirtioConVirtqueues, ports]
    split
    · rename_i recv send _ _
      set ring' := Function.update (Function.update ring recv (ring recv).clear) send
        (Function.update ring recv (ring recv).clear send).clear with hring'
      have hsame : ∀ k, ¬ (k = recv ∨ k = send) → ring' k = ring k := by
        intro k hk
        rw [not_or] at hk
        rw [hring', Function.update_of_ne hk.2, Function.update_of_ne hk.1]
      have hclear : ∀ k, (k = recv ∨ k = send) → ring' k = (ring k).clear := by
        intro k hk
        by_cases hs : k = send
        · subst hs
          rw [hring', Function.update_self]
          by_cases hr : k = recv
          · rw [hr, Function.update_self, SerialShmem.clear_clear]
          · rw [Function.update_of_ne hr]
        · obtain rfl := hk.resolve_right hs
          rw [hring', Function.update_of_ne hs, Function.update_self]
      obtain ⟨hconns, hrings⟩ := ih ring'
      refine ⟨congrArg _ hconns, fun k ↦ ?_⟩
      rw [uses_cons]
      obtain ⟨hin, hout⟩ := hrings k
      by_cases hrest : Uses (ports channel rest) k
      · refine ⟨fun _ ↦ (hin hrest).trans ?_, fun h ↦ absurd (.inr hrest) h⟩
        by_cases hk : k = recv ∨ k = send
        · rw [hclear k hk, SerialShmem.clear_clear]
        · rw [hsame k hk]
      · exact ⟨fun h ↦ (hout hrest).trans (hclear k (h.resolve_right hrest)),
          fun h ↦ (hout hrest).trans (hsame k fun hk ↦ h (.inl hk))⟩
    · exact ⟨rfl, fun k ↦ ⟨by simp [Uses], fun _ ↦ rfl⟩⟩

/-- One turn of the loop of `handle_serial_console` empties the ring it is about. -/
theorem drained_drain (s : Links ε κ) (conn : SerialConn κ) :
    Drained s (s.drain conn) ∧
      ((s.ring conn.recvBuf).Ok → ((s.drain conn).ring conn.recvBuf).contents = []) := by
  rw [Links.drain]
  split
  · refine ⟨⟨rfl, rfl, fun k hk ↦ ?_, fun k hk ↦ ?_, fun k hk he ↦ ?_⟩, fun hk ↦ ?_⟩
    · by_cases hr : k = conn.recvBuf
      · subst hr
        simpa [virtioConNotifyRecv] using ⟨hk.2, hk.2⟩
      · simpa [hr] using hk
    · by_cases hr : k = conn.recvBuf
      · subst hr
        simp only [Function.update_self]
        rw [hk.contents_virtioConNotifyRecv, List.append_nil]
        rfl
      · simp [hr]
    · by_cases hr : k = conn.recvBuf
      · subst hr
        simpa using hk.contents_virtioConNotifyRecv
      · simpa [hr] using he
    · simpa using hk.contents_virtioConNotifyRecv
  · rename_i hempty
    exact ⟨.refl s, fun hk ↦ hk.contents_eq_nil_iff.2 (not_not.1 hempty)⟩

/-- **`handle_serial_console` empties the rings it receives from.** -/
theorem drained_foldl (s : Links ε κ) (conns : List (SerialConn κ)) :
    Drained s (conns.foldl Links.drain s) ∧ ∀ conn ∈ conns, (s.ring conn.recvBuf).Ok →
      ((conns.foldl Links.drain s).ring conn.recvBuf).contents = [] := by
  induction conns generalizing s with
  | nil => exact ⟨.refl s, nofun⟩
  | cons conn conns ih =>
    obtain ⟨hone, hempty⟩ := drained_drain s conn
    obtain ⟨hrest, hall⟩ := ih (s.drain conn)
    refine ⟨hone.trans hrest, fun c hc hok ↦ ?_⟩
    rcases List.mem_cons.1 hc with rfl | hc
    · exact hrest.empty _ (hone.ok _ hok) (hempty hok)
    · exact hall c hc (hone.ok _ hok)

/-- It delivers nothing from other rings. -/
theorem delivered_foldl_drain {conns : List (SerialConn κ)} {k : κ} (h : ¬ Uses conns k)
    (s : Links ε κ) : (conns.foldl Links.drain s).delivered k = s.delivered k := by
  induction conns generalizing s with
  | nil => rfl
  | cons conn conns ih =>
    rw [uses_cons, not_or, not_or] at h
    rw [List.foldl_cons, ih h.2, Links.drain]
    split
    · exact Function.update_of_ne h.1.1 _ _
    · rfl

end

/-! ## The invariant -/

section

variable {ε κ : Type}

/-- What holds of the rings whatever is initialised when. -/
structure Links.Sound (s : Links ε κ) : Prop where
  /-- The indices of a ring in use are slots. -/
  ok : ∀ k, s.InUse k → (s.ring k).Ok
  /-- Nothing goes over a ring that is not in use. -/
  unused : ∀ k, ¬ s.InUse k → s.forwarded k = [] ∧ s.delivered k = []

/-- An initialisation discards nothing: the rings it clears are empty, or not in use yet. -/
def Harmless (C : Composition ε κ) (s : Links ε κ) : Event ε → Prop
  | .init e => ∀ k, Uses (ports (C.getVirtqueueChannel e) (C.serialLayout e)) k → s.InUse k →
      (s.ring k).head = (s.ring k).tail
  | _ => True

theorem not_inUse_initial (ring : κ → SerialShmem) (k : κ) :
    ¬ (Links.initial ring : Links ε κ).InUse k := by
  rintro ⟨e, conns, h, -⟩
  exact nomatch h

theorem sound_initial (ring : κ → SerialShmem) : (Links.initial ring : Links ε κ).Sound :=
  ⟨fun k hk ↦ absurd hk (not_inUse_initial ring k), fun _ _ ↦ ⟨rfl, rfl⟩⟩

variable [DecidableEq ε] [DecidableEq κ] {C : Composition ε κ} {s t : Links ε κ} {e : ε}

theorem call_init (h : call C s (.init e) = some t) :
    s.connections e = none ∧ t.forwarded = s.forwarded ∧ t.delivered = s.delivered ∧
      (∀ k, t.InUse k ↔
        Uses (ports (C.getVirtqueueChannel e) (C.serialLayout e)) k ∨ s.InUse k) ∧
      ∀ k, (Uses (ports (C.getVirtqueueChannel e) (C.serialLayout e)) k →
          t.ring k = (s.ring k).clear) ∧
        (¬ Uses (ports (C.getVirtqueueChannel e) (C.serialLayout e)) k →
          t.ring k = s.ring k) := by
  obtain ⟨hconns, hrings⟩ := makeVirtioConVirtqueues_spec (C.getVirtqueueChannel e)
    (C.serialLayout e) s.ring
  simp only [call] at h
  split at h
  · exact nomatch h
  · rename_i hnone
    simp only [Option.some_inj] at h
    subst h
    refine ⟨hnone, rfl, rfl, fun k ↦ ?_, hrings⟩
    simp only [Links.InUse, hconns]
    constructor
    · rintro ⟨e', conns, he', huses⟩
      by_cases hee : e' = e
      · subst hee
        rw [Function.update_self, Option.some_inj] at he'
        exact .inl (he' ▸ huses)
      · rw [Function.update_of_ne hee] at he'
        exact .inr ⟨e', conns, he', huses⟩
    · rintro (huses | ⟨e', conns, he', huses⟩)
      · exact ⟨e, _, Function.update_self .., huses⟩
      · have hee : e' ≠ e := by
          rintro rfl
          exact nomatch hnone.symm.trans he'
        exact ⟨e', conns, by rwa [Function.update_of_ne hee], huses⟩

theorem call_forward {port : ℕ} {c : Byte} (h : call C s (.forward e port c) = some t) :
    t = s ∨ ∃ k, s.InUse k ∧ t = { s with
      ring := Function.update s.ring k (txVirtconForward (s.ring k) c)
      forwarded := Function.update s.forwarded k (s.forwarded k ++ [c]) } := by
  simp only [call] at h
  split at h
  · exact nomatch h
  · rename_i conns hconns
    split at h
    · exact .inl (Option.some_inj.1 h).symm
    · split at h
      · exact nomatch h
      · rename_i conn hconn
        exact .inr ⟨conn.sendBuf,
          ⟨e, conns, hconns, conn, List.mem_of_getElem? hconn, .inr rfl⟩,
          (Option.some_inj.1 h).symm⟩

theorem call_handle (h : call C s (.handle e) = some t) :
    ∃ conns, s.connections e = some conns ∧ t = conns.foldl Links.drain s := by
  simp only [call] at h
  split at h
  · exact nomatch h
  · rename_i conns hconns
    split at h
    · exact ⟨conns, hconns, (Option.some_inj.1 h).symm⟩
    · exact nomatch h

/-- That nothing is lost is enough: `handle_serial_console` delivers what the ring holds. -/
theorem reliable_of_kept (hs : s.Sound)
    (h : ∀ k, s.InUse k → s.delivered k ++ (s.ring k).contents = s.forwarded k) :
    s.Reliable C := by
  refine ⟨h, fun e t conns hconns ht conn hconn ↦ ?_⟩
  obtain ⟨conns', hconns', rfl⟩ := call_handle ht
  obtain rfl := Option.some_inj.1 (hconns.symm.trans hconns')
  have huse : s.InUse conn.recvBuf := ⟨e, conns, hconns, conn, hconn, .inl rfl⟩
  obtain ⟨hdrained, hempty⟩ := drained_foldl s conns
  have hkept := hdrained.kept _ (hs.ok _ huse)
  rwa [hempty conn hconn (hs.ok _ huse), List.append_nil, h _ huse] at hkept

theorem sound_call {a : Event ε} (hs : s.Sound) (h : call C s a = some t) : t.Sound := by
  cases a with
  | init e =>
    obtain ⟨-, hfwd, hdlv, huse, hring⟩ := call_init h
    refine ⟨fun k hk ↦ ?_, fun k hk ↦ ?_⟩
    · by_cases hset : Uses (ports (C.getVirtqueueChannel e) (C.serialLayout e)) k
      · rw [(hring k).1 hset]
        exact ⟨bufsize_pos, bufsize_pos⟩
      · rw [(hring k).2 hset]
        exact hs.ok k (((huse k).1 hk).resolve_left hset)
    · rw [hfwd, hdlv]
      exact hs.unused k fun h ↦ hk ((huse k).2 (.inr h))
  | forward e port c =>
    rcases call_forward h with rfl | ⟨k, hk, rfl⟩
    · exact hs
    · refine ⟨fun j hj ↦ ?_, fun j hj ↦ ?_⟩
      · have hok := hs.ok j ((inUse_congr rfl j).1 hj)
        by_cases hjk : j = k
        · subst hjk
          simpa [txVirtconForward] using ⟨hok.1, Nat.mod_lt _ bufsize_pos⟩
        · simpa [hjk] using hok
      · have hjk : j ≠ k := by
          rintro rfl
          exact hj ((inUse_congr rfl j).2 hk)
        simpa [hjk] using hs.unused j fun h ↦ hj ((inUse_congr rfl j).2 h)
  | handle e =>
    obtain ⟨conns, hconns, rfl⟩ := call_handle h
    obtain ⟨hdrained, -⟩ := drained_foldl s conns
    have huse := inUse_congr hdrained.connections
    refine ⟨fun k hk ↦ hdrained.ok k (hs.ok k ((huse k).1 hk)), fun k hk ↦ ?_⟩
    have hidle : ¬ s.InUse k := fun h ↦ hk ((huse k).2 h)
    rw [hdrained.forwarded, delivered_foldl_drain fun h ↦ hidle ⟨e, conns, hconns, h⟩]
    exact hs.unused k hidle

/-- **Of the calls only an initialisation can lose something**, and it does when it clears a ring
in use that is not empty. -/
theorem harmless_iff {a : Event ε} (hs : s.Sound) (hr : s.Reliable C) (h : Calls C s a t) :
    Harmless C s a ↔ t.Reliable C := by
  have hsound := sound_call hs h.1
  cases a with
  | init e =>
    obtain ⟨-, hfwd, hdlv, huse, hring⟩ := call_init h.1
    constructor
    · intro hc
      refine reliable_of_kept hsound fun k hk ↦ ?_
      rw [hfwd, hdlv]
      by_cases hset : Uses (ports (C.getVirtqueueChannel e) (C.serialLayout e)) k
      · rw [(hring k).1 hset, SerialShmem.contents_clear, List.append_nil]
        by_cases hold : s.InUse k
        · have hkept := hr.kept k hold
          rwa [(hs.ok k hold).contents_eq_nil_iff.2 (hc k hset hold), List.append_nil] at hkept
        · rw [(hs.unused k hold).1, (hs.unused k hold).2]
      · rw [(hring k).2 hset]
        exact hr.kept k (((huse k).1 hk).resolve_left hset)
    · intro ht k hset hold
      have hafter := ht.kept k ((huse k).2 (.inl hset))
      rw [hfwd, hdlv, (hring k).1 hset, SerialShmem.contents_clear, ← hr.kept k hold,
        List.append_cancel_left_eq] at hafter
      exact (hs.ok k hold).contents_eq_nil_iff.1 hafter.symm
  | forward e port c =>
    refine iff_of_true trivial (reliable_of_kept hsound fun k hk ↦ ?_)
    rcases call_forward h.1 with rfl | ⟨j, hj, rfl⟩
    · exact hr.kept k hk
    · have huse := (inUse_congr (s := s) rfl k).1 hk
      by_cases hkj : k = j
      · subst hkj
        have hfew : (s.forwarded k).length + 1 < bufsize := by
          simpa using h.2 k
        have hroom : (s.ring k).contents.length + 1 < bufsize := by
          rw [← hr.kept k huse, List.length_append] at hfew
          omega
        obtain ⟨hhead, htail⟩ := hs.ok k huse
        simp only [Function.update_self]
        rw [contents_txVirtconForward c hhead htail hroom, ← List.append_assoc, hr.kept k huse]
      · simpa [hkj] using hr.kept k huse
  | handle e =>
    refine iff_of_true trivial (reliable_of_kept hsound fun k hk ↦ ?_)
    obtain ⟨conns, -, rfl⟩ := call_handle h.1
    obtain ⟨hdrained, -⟩ := drained_foldl s conns
    have huse := (inUse_congr hdrained.connections k).1 hk
    rw [hdrained.kept k (hs.ok k huse), hdrained.forwarded]
    exact hr.kept k huse

/-- **Which initialisations do no harm.**  In a run of a system that forwards fewer than `BUFSIZE`
bytes on each ring, every state keeps what was forwarded for the next `handle_serial_console` if and
only if each VMM starts when those of its rings that are in use already are empty. -/
theorem run_reliable_iff (C : Composition ε κ) (ring : κ → SerialShmem) (as : List (Event ε))
    (t : Links ε κ) :
    Run (Guarded (Harmless C) (Calls C)) (.initial ring) as t ↔
      Run (Guarded (fun s _ ↦ s.Reliable C) (Calls C)) (.initial ring) as t ∧ t.Reliable C :=
  Run.guarded_iff_of_invariant
    (reliable_of_kept (sound_initial ring) fun k hk ↦ absurd hk (not_inUse_initial ring k))
    (sound_initial ring) (fun _ _ _ hs _ h ↦ sound_call hs h.1)
    fun _ _ _ hs hr h ↦ harmless_iff hs hr h

end

/-- Two VMMs, joined by a console connection: each receives from the ring named after it and sends
to the other. -/
def twoVmms : Composition Bool Bool where
  serialLayout _ := [⟨0, 0⟩]
  getVirtqueueChannel e role _ :=
    match role with
    | .device => some e
    | .driver => some !e

/-- The first VMM starts and forwards a character; when the second starts, the character is lost. -/
theorem not_reliable_twoVmms :
    ¬ ∀ as t, Run (Calls twoVmms) (.initial fun _ ↦ ⟨0, 0, fun _ ↦ 0⟩) as t →
      t.Reliable twoVmms := by
  intro h
  have hrun := h [.init false, .forward false 0 0x61, .init true] _ <|
    .cons ⟨rfl, by decide⟩ <| .cons ⟨rfl, by decide⟩ <| .single ⟨rfl, by decide⟩
  have hkept := hrun.kept true ⟨true, _, rfl, ⟨true, false⟩, .head [], .inl rfl⟩
  exact absurd hkept (by decide)

end VirtioCon
end CamkesVm
