import Mathlib.Data.Int.Notation
import Mathlib.Data.List.Basic
import Mathlib.Tactic.Common

/-!
# Ethernet drivers and firewalls

A component reaches an Ethernet device through the interface `Ethdriver`: `ethdriver_tx` sends the
frame that is in the dataport, `ethdriver_rx` stores a received frame there and returns whether
there are more (1), this was the last (0), or there was none (-1), and the event `HasData` says that
frames have come.  The driver itself is not in the repository, so it is a parameter here.  `Lawful`
has what its callers rely on.

The `Firewall` uses such an interface and provides one, and copies every frame from one dataport to
the other.  `Lawful.firewalls` says that any number of them over a driver is again a driver, with
the same frames.

## What is here

* `Dataport`, `bytes`, `memcpy` — a dataport as a function from offsets to bytes, of which only the
  first ones are looked at.
* `gather`, `bytes_gather` — the loop that collects the buffers of a frame; two components have it.
* `Driver`, `Rx`, `TxStatus` — the interface, as functions on the driver's state.
* `View` — the two things one wants to know of that state, the frames that wait and those that were
  sent.
* `Driver.Lawful` — the laws, in terms of the view: for each answer of `ethdriver_rx` what it says
  about the frames, for each answer of `ethdriver_tx` whether the frame has gone.
* `Driver.firewall`, `Driver.Lawful.firewall` — one firewall, and `Stack`, `Driver.Lawful.firewalls`
  for any number of them, by induction.
* `Nic` — a small driver that obeys the laws, so that there is one.
-/

set_option autoImplicit false

namespace CamkesVm
namespace Ethernet

/-- A byte of a frame. -/
abbrev Byte := BitVec 8

/-- A dataport that two components share. -/
abbrev Dataport := ℕ → Byte

/-- The first `len` bytes. -/
def bytes (buf : Dataport) (len : ℕ) : List Byte := (List.range len).map buf

/-- `memcpy` between two dataports. -/
def memcpy (dst src : Dataport) (len : ℕ) : Dataport := fun k ↦ if k < len then src k else dst k

@[simp] theorem length_bytes (buf : Dataport) (len : ℕ) : (bytes buf len).length = len := by
  simp [bytes]

@[simp] theorem bytes_memcpy (dst src : Dataport) (len : ℕ) :
    bytes (memcpy dst src len) len = bytes src len := by
  refine List.map_congr_left fun k hk ↦ ?_
  exact if_pos (List.mem_range.1 hk)

/-! ## Gathering a frame -/

/-- `memcpy` of some bytes to an offset of the dataport. -/
def copyAt (p : Dataport) (offset : ℕ) (data : List Byte) : Dataport :=
  fun k ↦ if k < offset then p k else data.getD (k - offset) (p k)

/-- The loop of `emul_raw_tx` and `raw_tx` over the buffers of a frame: the dataport, and the length
of the frame. -/
def gather (p : Dataport) (totLen : ℕ) : List (List Byte) → Dataport × ℕ
  | [] => (p, totLen)
  | data :: bufs => gather (copyAt p totLen data) (totLen + data.length) bufs

theorem bytes_copyAt (p : Dataport) (offset : ℕ) (data : List Byte) :
    bytes (copyAt p offset data) (offset + data.length) = bytes p offset ++ data := by
  rw [bytes, List.range_add, List.map_append]
  congr 1
  · refine List.map_congr_left fun k hk ↦ ?_
    exact if_pos (List.mem_range.1 hk)
  · refine List.ext_getElem (by simp) fun k hk _ ↦ ?_
    have hlt : k < data.length := by simpa using hk
    simp only [List.getElem_map, List.getElem_range, copyAt]
    rw [if_neg (by omega)]
    simp [hlt]

/-- **What is gathered.** -/
theorem bytes_gather (p : Dataport) (totLen : ℕ) (bufs : List (List Byte)) :
    bytes (gather p totLen bufs).1 (gather p totLen bufs).2 = bytes p totLen ++ bufs.flatten := by
  induction bufs generalizing p totLen with
  | nil => simp [gather]
  | cons data bufs ih => rw [gather, ih, bytes_copyAt, List.flatten_cons, List.append_assoc]

theorem gather_snd (p : Dataport) (totLen : ℕ) (bufs : List (List Byte)) :
    (gather p totLen bufs).2 = totLen + bufs.flatten.length := by
  have h := congrArg List.length (bytes_gather p totLen bufs)
  simpa using h

/-! ## The interface -/

/-- What `ethdriver_tx` says. -/
inductive TxStatus
  /-- `ETHIF_TX_COMPLETE`. -/
  | complete
  /-- `ETHIF_TX_ENQUEUED`. -/
  | enqueued
  /-- `ETHIF_TX_FAILED`. -/
  | failed
  deriving DecidableEq

/-- What comes of a call of `ethdriver_rx`. -/
structure Rx (σ : Type) where
  /-- The value returned. -/
  status : ℤ
  /-- What `*len` is set to. -/
  len : ℕ
  /-- The dataport afterwards. -/
  buf : Dataport
  /-- The state afterwards. -/
  state : σ

/-- A component that provides the interface, with states `σ`. -/
structure Driver (σ : Type) where
  /-- `ethdriver_mac`. -/
  mac : σ → List Byte
  /-- `ethdriver_tx`, with the dataport and `len`. -/
  tx : σ → Dataport → ℕ → TxStatus × σ
  /-- `ethdriver_rx`, with the dataport. -/
  rx : σ → Dataport → Rx σ
  /-- A frame comes from the network: nothing happens if there is no room for it.  Says whether
  `HasData` is emitted. -/
  arrive : σ → List Byte → Option (Bool × σ)

/-- What there is to know about the state of a driver. -/
structure View (σ : Type) where
  /-- The frames that have been received, and not been asked for. -/
  waiting : σ → List (List Byte)
  /-- The frames that have been put on the network. -/
  sent : σ → List (List Byte)
  /-- `HasData` is emitted for the next frame. -/
  armed : σ → Bool

/-- What the callers of a driver rely on. -/
structure Driver.Lawful {σ : Type} (D : Driver σ) (V : View σ) : Prop where
  /-- `ethdriver_rx` without a frame. -/
  rx_nil : ∀ {s : σ} (buf : Dataport), V.waiting s = [] →
    (D.rx s buf).status = -1 ∧ V.waiting (D.rx s buf).state = []
  /-- `ethdriver_rx` with a frame. -/
  rx_cons : ∀ {s : σ} (buf : Dataport) {frame : List Byte} {rest : List (List Byte)},
    V.waiting s = frame :: rest →
    (D.rx s buf).status = (if rest = [] then 0 else 1) ∧
      bytes (D.rx s buf).buf (D.rx s buf).len = frame ∧ V.waiting (D.rx s buf).state = rest
  /-- Nothing is sent by it. -/
  rx_sent : ∀ (s : σ) (buf : Dataport), V.sent (D.rx s buf).state = V.sent s
  /-- Whoever is told that there are no more frames is told when the next one comes. -/
  rx_armed : ∀ (s : σ) (buf : Dataport), (D.rx s buf).status ≠ 1 →
    V.armed (D.rx s buf).state = true
  /-- `ethdriver_tx` sends what is in the dataport, or fails. -/
  tx_sent : ∀ (s : σ) (buf : Dataport) (len : ℕ), V.sent (D.tx s buf len).2 =
    V.sent s ++ if (D.tx s buf len).1 = .failed then [] else [bytes buf len]
  /-- It has nothing to do with what is received. -/
  tx_waiting : ∀ (s : σ) (buf : Dataport) (len : ℕ), V.waiting (D.tx s buf len).2 = V.waiting s
  tx_armed : ∀ (s : σ) (buf : Dataport) (len : ℕ), V.armed (D.tx s buf len).2 = V.armed s
  /-- A frame that is taken in is announced if that is due. -/
  arrive : ∀ {s s' : σ} {frame : List Byte} {emitted : Bool},
    D.arrive s frame = some (emitted, s') →
    V.waiting s' = V.waiting s ++ [frame] ∧ V.sent s' = V.sent s ∧
      (V.armed s = true → emitted = true)

/-! ## The firewall -/

section

variable {σ : Type}

/-- The functions of the firewall: it is called with `client_buf(1)`, and has `ethdriver_buf` in
common with the driver behind it. -/
def Driver.firewall (D : Driver σ) : Driver (σ × Dataport) where
  mac s := D.mac s.1
  tx s clientBuf len :=
    let ethdriverBuf := memcpy s.2 clientBuf len
    let (status, behind) := D.tx s.1 ethdriverBuf len
    (status, behind, ethdriverBuf)
  rx s clientBuf :=
    let result := D.rx s.1 s.2
    { status := result.status
      len := result.len
      buf := if result.status ≠ -1 then memcpy clientBuf result.buf result.len else clientBuf
      state := (result.state, result.buf) }
  arrive s frame := (D.arrive s.1 frame).map fun (emitted, behind) ↦ (emitted, behind, s.2)

/-- What there is to know about a driver is still there behind a firewall. -/
def View.firewall (V : View σ) : View (σ × Dataport) :=
  ⟨fun s ↦ V.waiting s.1, fun s ↦ V.sent s.1, fun s ↦ V.armed s.1⟩

/-- **A firewall is a driver**: it loses and changes no frame. -/
theorem Driver.Lawful.firewall {D : Driver σ} {V : View σ} (h : D.Lawful V) :
    D.firewall.Lawful V.firewall where
  rx_nil {s} _ hnil := h.rx_nil s.2 hnil
  rx_cons {s} clientBuf frame rest hcons := by
    obtain ⟨hstatus, hbytes, hwaiting⟩ := h.rx_cons s.2 hcons
    refine ⟨hstatus, ?_, hwaiting⟩
    have hne : (D.rx s.1 s.2).status ≠ -1 := by
      rw [hstatus]
      split <;> decide
    change bytes (if (D.rx s.1 s.2).status ≠ -1 then _ else _) (D.rx s.1 s.2).len = frame
    rw [if_pos hne, bytes_memcpy, hbytes]
  rx_sent s _ := h.rx_sent s.1 s.2
  rx_armed s _ := h.rx_armed s.1 s.2
  tx_sent s clientBuf len := by
    have hsent := h.tx_sent s.1 (memcpy s.2 clientBuf len) len
    rwa [bytes_memcpy] at hsent
  tx_waiting s clientBuf len := h.tx_waiting s.1 (memcpy s.2 clientBuf len) len
  tx_armed s clientBuf len := h.tx_armed s.1 (memcpy s.2 clientBuf len) len
  arrive {s s' frame emitted} harrive := by
    obtain ⟨⟨_, behind⟩, hbehind, ⟨⟩⟩ := Option.map_eq_some_iff.1 harrive
    exact h.arrive hbehind

/-- The states of a driver with `n` firewalls in front of it, each with its `ethdriver_buf`. -/
def Stack (σ : Type) : ℕ → Type
  | 0 => σ
  | n + 1 => Stack σ n × Dataport

/-- A driver with `n` firewalls in front of it. -/
def Driver.firewalls (D : Driver σ) : (n : ℕ) → Driver (Stack σ n)
  | 0 => D
  | n + 1 => (D.firewalls n).firewall

/-- What there is to know about the driver behind them. -/
def View.firewalls (V : View σ) : (n : ℕ) → View (Stack σ n)
  | 0 => V
  | n + 1 => (V.firewalls n).firewall

/-- The state of the driver behind all firewalls. -/
def Stack.driver : {n : ℕ} → Stack σ n → σ
  | 0, s => s
  | _ + 1, s => Stack.driver s.1

/-- What is known through the firewalls is what is known about the driver behind them. -/
theorem View.firewalls_eq (V : View σ) {n : ℕ} (s : Stack σ n) :
    (V.firewalls n).waiting s = V.waiting s.driver ∧ (V.firewalls n).sent s = V.sent s.driver ∧
      (V.firewalls n).armed s = V.armed s.driver := by
  induction n with
  | zero => exact ⟨rfl, rfl, rfl⟩
  | succ n ih => exact ih s.1

theorem Driver.firewalls_mac (D : Driver σ) {n : ℕ} (s : Stack σ n) :
    (D.firewalls n).mac s = D.mac s.driver := by
  induction n with
  | zero => rfl
  | succ n ih => exact ih s.1

/-- **So is any number of them.** -/
theorem Driver.Lawful.firewalls {D : Driver σ} {V : View σ} (h : D.Lawful V) (n : ℕ) :
    (D.firewalls n).Lawful (V.firewalls n) := by
  induction n with
  | zero => exact h
  | succ n ih => exact ih.firewall

end

/-! ## A driver -/

/-- A network interface with room for `room` frames. -/
structure Nic where
  /-- How many more attempts to send will fail. -/
  down : ℕ
  /-- The received frames. -/
  waiting : List (List Byte)
  /-- The frames that were sent. -/
  sent : List (List Byte)
  /-- The client has been told that there are no more frames. -/
  shouldNotify : Bool
  /-- The frames there is room for. -/
  room : ℕ

/-- A driver for it. -/
def Nic.driver : Driver Nic where
  mac _ := [2, 0, 0, 0, 0, 1]
  tx s buf len :=
    match s.down with
    | 0 => (.complete, { s with sent := s.sent ++ [bytes buf len] })
    | down + 1 => (.failed, { s with down := down })
  rx s buf :=
    match s.waiting with
    | [] => ⟨-1, 0, buf, { s with waiting := [], shouldNotify := true }⟩
    | frame :: rest =>
      { status := if rest = [] then 0 else 1
        len := frame.length
        buf := fun k ↦ frame.getD k (buf k)
        state := { s with
          waiting := rest
          shouldNotify := s.shouldNotify || decide (rest = []) } }
  arrive s frame :=
    if s.waiting.length < s.room then
      some (s.shouldNotify, { s with waiting := s.waiting ++ [frame], shouldNotify := false })
    else none

/-- What there is to know about it. -/
def Nic.view : View Nic := ⟨Nic.waiting, Nic.sent, Nic.shouldNotify⟩

theorem bytes_getD (buf : Dataport) (frame : List Byte) :
    bytes (fun k ↦ frame.getD k (buf k)) frame.length = frame := by
  refine List.ext_getElem (by simp) fun k hk _ ↦ ?_
  have hlt : k < frame.length := by simpa using hk
  simp [bytes, hlt]

/-- It is as its callers rely on. -/
theorem Nic.lawful : Nic.driver.Lawful Nic.view where
  rx_nil {s} buf hnil := by
    have hnil : s.waiting = [] := hnil
    simp [Nic.driver, Nic.view, hnil]
  rx_cons {s} buf frame rest hcons := by
    have hcons : s.waiting = frame :: rest := hcons
    simp only [Nic.driver, Nic.view, hcons, true_and, and_true]
    exact bytes_getD buf frame
  rx_sent s buf := by
    simp only [Nic.driver, Nic.view]
    split <;> rfl
  rx_armed s buf hstatus := by
    cases hwaiting : s.waiting with
    | nil => simp [Nic.driver, Nic.view, hwaiting]
    | cons frame rest =>
      simp only [Nic.driver, hwaiting] at hstatus
      have hnil : rest = [] := by
        by_contra hne
        exact hstatus (if_neg hne)
      simp [Nic.driver, Nic.view, hwaiting, hnil]
  tx_sent s buf len := by
    cases hdown : s.down <;> simp [Nic.driver, Nic.view, hdown]
  tx_waiting s buf len := by
    cases hdown : s.down <;> simp [Nic.driver, Nic.view, hdown]
  tx_armed s buf len := by
    cases hdown : s.down <;> simp [Nic.driver, Nic.view, hdown]
  arrive {s s' frame emitted} harrive := by
    simp only [Nic.driver] at harrive
    split at harrive
    · obtain ⟨rfl, rfl⟩ := Prod.mk.inj (Option.some.inj harrive)
      exact ⟨rfl, rfl, id⟩
    · cases harrive

end Ethernet
end CamkesVm
