import CamkesVm.Ethernet.Driver
import CamkesVm.Lib.Transition

/-!
# A VMM on an Ethernet device

The VMM of `Init` gives its guest a network device that is an Ethernet device behind some number of
firewalls.  Frames for the guest wait in the driver, and only the notification travels: the driver
emits `HasData`, each firewall takes it in `ethdriver_has_data_callback` and passes it on, and the
VMM then asks for the frames in `virtio_net_notify`, until it is told that there are no more.  At
the start, `make_virtio_net` throws away what is there.  Frames of the guest are copied into the
dataport and sent at once, whether or not that fails.

All of this is interleaved with frames that come from the network.  `run_carried` says what is lost
on the way, which is nothing but what has to be: the frames at the start, those the guest has no
buffer for, and those the driver fails to send.

## What is here

* `Client`, `Chain` — where the VMM is, and the whole system: driver, firewalls, dataport,
  notifications, and what was received, thrown away and sent so far.
* `Label`, `Enabled`, `next` — one call at a time. A firewall takes its notification in one step and
  passes it on in another, so a frame may come in between, and so may a second notification, which
  is then merged with the first.
* `Chain.drain`, `Chain.poll`, `Chain.emulRawTx`, `Chain.emulLowLevelInit` — the functions of the
  source.
* `Carried` — what should have become of the frames; `Chain.Attended` and `Chain.Quiet` say that
  nobody forgets the rest.
* `Sound`, `run_carried` — the invariant, kept by every step, and what it says about a run.

The driver is only known by its laws (`Driver.Lawful`), and the firewalls are nothing but drivers
again, so the proof is about a VMM on a driver, whatever their number.
-/

set_option autoImplicit false

namespace CamkesVm
namespace Ethernet

open Transition

/-! ## The VMM -/

/-- Where the VMM is. -/
inductive Client
  /-- In the loop of `make_virtio_net`. -/
  | drain
  /-- Not in any of the functions here. -/
  | idle
  /-- In `virtio_net_notify`, about to call `ethdriver_rx`. -/
  | poll
  /-- An assertion failed. -/
  | aborted
  deriving DecidableEq

/-- The driver, `n` firewalls and the VMM. -/
structure Chain (σ : Type) (n : ℕ) where
  /-- The driver and the firewalls. -/
  driver : Stack σ n
  /-- The dataport `ethdriver_buf` of the VMM. -/
  buf : Dataport
  /-- The notifications: that of firewall `i`, counted from the driver, and at `n` the VMM's. -/
  pending : ℕ → Bool
  /-- Firewall `i` is in `ethdriver_has_data_callback`. -/
  relaying : ℕ → Bool
  /-- The VMM. -/
  client : Client
  /-- The frames thrown away at the start. -/
  drained : List (List Byte)
  /-- The frames for the guest, each with whether there was a buffer for it. -/
  received : List (List Byte × Bool)
  /-- The frames that the driver has taken in. -/
  arrived : List (List Byte)
  /-- The frames of the guest, buffer by buffer, each with what `ethdriver_tx` said. -/
  transmitted : List (List (List Byte) × TxStatus)

/-- At the start. -/
def Chain.initial {σ : Type} {n : ℕ} (driver : Stack σ n) (buf : Dataport) : Chain σ n :=
  ⟨driver, buf, fun _ ↦ false, fun _ ↦ false, .drain, [], [], [], []⟩

/-- What happens next. -/
inductive Label
  /-- A frame comes from the network. -/
  | arrive (frame : List Byte)
  /-- Firewall `i` takes its notification. -/
  | wake (i : ℕ)
  /-- It calls `client_emit`. -/
  | emit (i : ℕ)
  /-- A turn of the loop of `make_virtio_net`. -/
  | drain
  /-- The VMM takes its notification, and calls `virtio_net_notify`. -/
  | notify
  /-- A turn of the loop there; says whether `allocate_rx_buf` succeeds. -/
  | poll (allocated : Bool)
  /-- The guest sends a frame from some buffers: `emul_raw_tx`. -/
  | transmit (bufs : List (List Byte))

section

variable {σ : Type} (D : Driver σ) {n : ℕ}

/-- A frame comes from the network. -/
def Chain.arrive (s : Chain σ n) (frame : List Byte) : Chain σ n :=
  match (D.firewalls n).arrive s.driver frame with
  | none => s
  | some (emitted, driver) => { s with
      driver := driver
      pending := if emitted then Function.update s.pending 0 true else s.pending
      arrived := s.arrived ++ [frame] }

/-- A turn of the loop of `make_virtio_net`. -/
def Chain.drain (s : Chain σ n) : Chain σ n :=
  let result := (D.firewalls n).rx s.driver s.buf
  let s := { s with driver := result.state, buf := result.buf }
  if result.status = -1 then { s with client := .idle }
  else { s with drained := s.drained ++ [bytes result.buf result.len] }

/-- A turn of the loop of `virtio_net_notify`. -/
def Chain.poll (s : Chain σ n) (allocated : Bool) : Chain σ n :=
  let result := (D.firewalls n).rx s.driver s.buf
  let s := { s with driver := result.state, buf := result.buf }
  if result.status = -1 then { s with client := .idle }
  else
    let s := { s with received := s.received ++ [(bytes result.buf result.len, allocated)] }
    if result.status = 1 then s
    else if result.status = 0 then { s with client := .idle }
    else { s with client := .aborted }

/-- `emul_raw_tx`: always `ETHIF_TX_COMPLETE`. -/
def Chain.emulRawTx (s : Chain σ n) (bufs : List (List Byte)) : Chain σ n :=
  let (buf, totLen) := gather s.buf 0 bufs
  let (status, driver) := (D.firewalls n).tx s.driver buf totLen
  { s with
    driver := driver
    buf := buf
    transmitted := s.transmitted ++ [(bufs, status)] }

/-- `emul_low_level_init`: the guest's address, and the largest payload of a frame. -/
def Chain.emulLowLevelInit (s : Chain σ n) : List Byte × ℕ := ((D.firewalls n).mac s.driver, 1500)

/-- When something can happen.  A dataport has a page, and no frame is larger. -/
def Enabled (s : Chain σ n) : Label → Prop
  | .arrive _ => True
  | .wake i => i < n ∧ s.pending i = true ∧ s.relaying i = false
  | .emit i => i < n ∧ s.relaying i = true
  | .drain => s.client = .drain
  | .notify => s.client = .idle ∧ s.pending n = true
  | .poll _ => s.client = .poll
  | .transmit bufs => s.client = .idle ∧ bufs.flatten.length ≤ 4096

instance (s : Chain σ n) : (a : Label) → Decidable (Enabled s a)
  | .arrive _ => inferInstanceAs (Decidable True)
  | .wake i => inferInstanceAs (Decidable (i < n ∧ s.pending i = true ∧ s.relaying i = false))
  | .emit i => inferInstanceAs (Decidable (i < n ∧ s.relaying i = true))
  | .drain => inferInstanceAs (Decidable (s.client = .drain))
  | .notify => inferInstanceAs (Decidable (s.client = .idle ∧ s.pending n = true))
  | .poll _ => inferInstanceAs (Decidable (s.client = .poll))
  | .transmit bufs =>
    inferInstanceAs (Decidable (s.client = .idle ∧ bufs.flatten.length ≤ 4096))

/-- What happens then. -/
def next (s : Chain σ n) : Label → Chain σ n
  | .arrive frame => s.arrive D frame
  | .wake i => { s with
      pending := Function.update s.pending i false
      relaying := Function.update s.relaying i true }
  | .emit i => { s with
      pending := Function.update s.pending (i + 1) true
      relaying := Function.update s.relaying i false }
  | .drain => s.drain D
  | .notify => { s with pending := Function.update s.pending n false, client := .poll }
  | .poll allocated => s.poll D allocated
  | .transmit bufs => s.emulRawTx D bufs

end

/-! ## What is carried -/

section

variable {σ : Type} {n : ℕ}

/-- Nothing is under way. -/
def Chain.Quiet (s : Chain σ n) : Prop :=
  s.client = .idle ∧ (∀ i ≤ n, s.pending i = false) ∧ ∀ i < n, s.relaying i = false

/-- What has become of the frames since the driver was in the state `start`. -/
structure Carried (D : Driver σ) (V : View σ) (start : σ) (s : Chain σ n) : Prop where
  /-- The guest is given the address of the device behind the firewalls. -/
  mac : s.emulLowLevelInit D = (D.mac s.driver.driver, 1500)
  /-- The assertion of `virtio_net_notify` holds. -/
  alive : s.client ≠ .aborted
  /-- No frame for the guest is lost, added or overtaken. -/
  received : s.drained ++ s.received.map Prod.fst ++ V.waiting s.driver.driver =
    V.waiting start ++ s.arrived
  /-- None is left behind. -/
  asked : s.Quiet → V.waiting s.driver.driver = []
  /-- Each frame of the guest is sent in one piece, unless that fails. -/
  sent : V.sent s.driver.driver = V.sent start ++
    (s.transmitted.filter fun tx ↦ tx.2 ≠ .failed).map fun tx ↦ tx.1.flatten

/-- Somebody is going to ask for the frames. -/
def Chain.Attended (s : Chain σ n) : Prop :=
  (s.client = .drain ∨ s.client = .poll) ∨ (∃ i ≤ n, s.pending i = true) ∨
    ∃ i < n, s.relaying i = true

/-- The invariant: where nobody is going to ask, there is nothing to ask for, and the VMM is told
when there is. -/
structure Sound (V : View σ) (start : σ) (s : Chain σ n) : Prop where
  alive : s.client ≠ .aborted
  received : s.drained ++ s.received.map Prod.fst ++ (V.firewalls n).waiting s.driver =
    V.waiting start ++ s.arrived
  attended : s.Attended ∨
    (V.firewalls n).waiting s.driver = [] ∧ (V.firewalls n).armed s.driver = true
  sent : (V.firewalls n).sent s.driver = V.sent start ++
    (s.transmitted.filter fun tx ↦ tx.2 ≠ .failed).map fun tx ↦ tx.1.flatten
  /-- The VMM throws frames away before it receives any. -/
  drained : s.client = .drain → s.received = []

variable {D : Driver σ} {V : View σ} {start : σ} {s t : Chain σ n}

/-- **What `ethdriver_rx` can do**, whatever the number of firewalls. -/
theorem Driver.Lawful.rx_cases (h : D.Lawful V) (driver : Stack σ n) (buf : Dataport) :
    ((V.firewalls n).waiting driver = [] ∧ ((D.firewalls n).rx driver buf).status = -1 ∧
        (V.firewalls n).waiting ((D.firewalls n).rx driver buf).state = []) ∨
      ∃ frame rest, (V.firewalls n).waiting driver = frame :: rest ∧
        ((D.firewalls n).rx driver buf).status = (if rest = [] then 0 else 1) ∧
        bytes ((D.firewalls n).rx driver buf).buf ((D.firewalls n).rx driver buf).len = frame ∧
        (V.firewalls n).waiting ((D.firewalls n).rx driver buf).state = rest := by
  have hn := h.firewalls n
  cases hwaiting : (V.firewalls n).waiting driver with
  | nil => exact .inl ⟨rfl, hn.rx_nil buf hwaiting⟩
  | cons frame rest => exact .inr ⟨frame, rest, rfl, hn.rx_cons buf hwaiting⟩

theorem sound_arrive (h : D.Lawful V) (hs : Sound V start s) (frame : List Byte) :
    Sound V start (s.arrive D frame) := by
  rw [Chain.arrive]
  split
  · exact hs
  · rename_i emitted driver harrive
    obtain ⟨hwaiting, hsent, harmed⟩ := (h.firewalls n).arrive harrive
    refine ⟨hs.alive, ?_, ?_, hsent.trans hs.sent, hs.drained⟩
    · change _ ++ (V.firewalls n).waiting driver = _ ++ (s.arrived ++ [frame])
      rw [hwaiting, ← List.append_assoc, hs.received, List.append_assoc]
    · left
      have hupdate : ∀ i, s.pending i = true →
          (if emitted then Function.update s.pending 0 true else s.pending) i = true := by
        intro i hi
        split
        · by_cases hi0 : i = 0
          · rw [hi0, Function.update_self]
          · rwa [Function.update_of_ne hi0]
        · exact hi
      rcases hs.attended with (hclient | ⟨i, hi, hpending⟩ | hrelaying) | ⟨-, hready⟩
      · exact .inl hclient
      · exact .inr (.inl ⟨i, hi, hupdate i hpending⟩)
      · exact .inr (.inr hrelaying)
      · exact .inr (.inl ⟨0, n.zero_le, by simp [harmed hready]⟩)

theorem sound_drain (h : D.Lawful V) (hs : Sound V start s) (hclient : s.client = .drain) :
    Sound V start (s.drain D) := by
  have hsent := (h.firewalls n).rx_sent s.driver s.buf
  have hreceived := hs.received
  rw [hs.drained hclient, List.map_nil, List.append_nil] at hreceived
  rw [Chain.drain]
  obtain ⟨hnil, hstatus, hnil'⟩ | ⟨frame, rest, hcons, hstatus, hbytes, hrest⟩ :=
    h.rx_cases s.driver s.buf
  · have harmed := (h.firewalls n).rx_armed s.driver s.buf (by rw [hstatus]; decide)
    rw [if_pos hstatus]
    refine ⟨nofun, ?_, .inr ⟨hnil', harmed⟩, hsent.trans hs.sent, nofun⟩
    simpa [hs.drained hclient, hnil', hnil] using hreceived
  · rw [if_neg (by rw [hstatus]; split <;> decide)]
    refine ⟨hs.alive, ?_, .inl (.inl (.inl hclient)), hsent.trans hs.sent, hs.drained⟩
    simpa [hs.drained hclient, hbytes, hrest, hcons] using hreceived

theorem sound_poll (h : D.Lawful V) (hs : Sound V start s) (hclient : s.client = .poll)
    (allocated : Bool) : Sound V start (s.poll D allocated) := by
  have hsent := (h.firewalls n).rx_sent s.driver s.buf
  have harmed := (h.firewalls n).rx_armed s.driver s.buf
  have hreceived := hs.received
  rw [Chain.poll]
  obtain ⟨hnil, hstatus, hnil'⟩ | ⟨frame, rest, hcons, hstatus, hbytes, hrest⟩ :=
    h.rx_cases s.driver s.buf
  · rw [if_pos hstatus]
    refine ⟨nofun, ?_, .inr ⟨hnil', harmed (by rw [hstatus]; decide)⟩, hsent.trans hs.sent, nofun⟩
    simpa [hnil', hnil] using hreceived
  · have hreceived' : s.drained ++ (s.received ++ [(frame, allocated)]).map Prod.fst ++ rest =
        V.waiting start ++ s.arrived := by
      rw [← hreceived, hcons]
      simp
    rw [hbytes]
    by_cases hlast : rest = []
    · rw [if_pos hlast] at hstatus
      rw [if_neg (by rw [hstatus]; decide), if_neg (by rw [hstatus]; decide), if_pos hstatus]
      refine ⟨nofun, ?_, .inr ⟨hrest.trans hlast, harmed (by rw [hstatus]; decide)⟩,
        hsent.trans hs.sent, nofun⟩
      rwa [← hrest] at hreceived'
    · rw [if_neg hlast] at hstatus
      rw [if_neg (by rw [hstatus]; decide), if_pos hstatus]
      refine ⟨hs.alive, ?_, .inl (.inl (.inr hclient)), hsent.trans hs.sent, ?_⟩
      · rwa [← hrest] at hreceived'
      · exact fun hdrain ↦ absurd (hclient.symm.trans hdrain) nofun

theorem sound_emulRawTx (h : D.Lawful V) (hs : Sound V start s) (bufs : List (List Byte)) :
    Sound V start (s.emulRawTx D bufs) := by
  have hn := h.firewalls n
  have hsent := hn.tx_sent s.driver (gather s.buf 0 bufs).1 (gather s.buf 0 bufs).2
  rw [bytes_gather, hs.sent] at hsent
  refine ⟨hs.alive, ?_, ?_, ?_, hs.drained⟩
  · exact (congrArg (_ ++ ·) (hn.tx_waiting ..)).trans hs.received
  · exact hs.attended.imp id fun hready ↦
      ⟨(hn.tx_waiting ..).trans hready.1, (hn.tx_armed ..).trans hready.2⟩
  · refine hsent.trans ?_
    rw [Chain.emulRawTx, List.filter_append, List.map_append, ← List.append_assoc]
    congr 1
    split <;> simp_all [bytes]

/-- A notification that is taken or passed on is not forgotten. -/
theorem sound_next (h : D.Lawful V) (hs : Sound V start s) {a : Label} (hen : Enabled s a) :
    Sound V start (next D s a) := by
  cases a with
  | arrive frame => exact sound_arrive h hs frame
  | drain => exact sound_drain h hs hen
  | poll allocated => exact sound_poll h hs hen allocated
  | transmit bufs => exact sound_emulRawTx h hs bufs
  | notify =>
    exact ⟨nofun, hs.received, .inl (.inl (.inr rfl)), hs.sent, nofun⟩
  | wake i =>
    refine ⟨hs.alive, hs.received, ?_, hs.sent, hs.drained⟩
    exact .inl (.inr (.inr ⟨i, hen.1, Function.update_self ..⟩))
  | emit i =>
    refine ⟨hs.alive, hs.received, ?_, hs.sent, hs.drained⟩
    exact .inl (.inr (.inl ⟨i + 1, hen.1, Function.update_self ..⟩))

theorem sound_initial (driver : Stack σ n) (buf : Dataport) :
    Sound V driver.driver (.initial driver buf) := by
  obtain ⟨hwaiting, hsent, -⟩ := V.firewalls_eq driver
  exact ⟨nofun, by simpa [Chain.initial] using hwaiting, .inl (.inl (.inl rfl)),
    by simpa [Chain.initial] using hsent, fun _ ↦ rfl⟩

theorem Chain.Quiet.not_attended (h : s.Quiet) : ¬s.Attended := by
  obtain ⟨hclient, hpending, hrelaying⟩ := h
  rintro ((hc | hc) | ⟨i, hi, hc⟩ | ⟨i, hi, hc⟩)
  · exact absurd (hclient.symm.trans hc) nofun
  · exact absurd (hclient.symm.trans hc) nofun
  · exact absurd ((hpending i hi).symm.trans hc) nofun
  · exact absurd ((hrelaying i hi).symm.trans hc) nofun

theorem Sound.carried (D : Driver σ) (hs : Sound V start s) : Carried D V start s := by
  obtain ⟨hwaiting, hsent, -⟩ := V.firewalls_eq s.driver
  refine ⟨?_, hs.alive, hwaiting ▸ hs.received, fun hquiet ↦ ?_, hsent ▸ hs.sent⟩
  · rw [Chain.emulLowLevelInit, D.firewalls_mac]
  · rw [← hwaiting]
    exact (hs.attended.resolve_left hquiet.not_attended).1

/-- **No frame is lost between the network and the guest**, in any run, whatever the number of
firewalls. -/
theorem run_carried (h : D.Lawful V) {driver : Stack σ n} {buf : Dataport} {as : List Label}
    (hrun : Run (Does Enabled (next D)) (.initial driver buf) as t) :
    Carried D V driver.driver t := by
  refine Sound.carried D (hrun.invariant (I := Sound V driver.driver) (sound_initial driver buf) ?_)
  rintro s a _ hs ⟨hen, rfl⟩
  exact sound_next h hs hen

end

/-! ## Behind one firewall -/

/-- A network interface with an old frame. -/
def oldFrame : Nic := ⟨0, [[9]], [], false, 4⟩

/-- A firewall before it. -/
def behindOne : Stack Nic 1 := (oldFrame, fun _ ↦ 0)

/-- The VMM starts, two frames come, the VMM is told, and the guest sends one from two buffers. -/
def twoFrames : List Label :=
  [.drain, .drain, .arrive [1, 2], .arrive [3], .wake 0, .emit 0, .notify, .poll true, .poll true,
    .transmit [[5], [6, 7]]]

/-- At the end. -/
def gotBoth : Chain Nic 1 := twoFrames.foldl (next Nic.driver) (.initial behindOne fun _ ↦ 0)

theorem gotBoth_run :
    Run (Does Enabled (next Nic.driver)) (.initial behindOne fun _ ↦ 0) twoFrames gotBoth :=
  run_foldl (by decide)

/-- What has become of them. -/
theorem run_carried_gotBoth : Carried Nic.driver Nic.view oldFrame gotBoth :=
  run_carried Nic.lawful gotBoth_run

example : gotBoth.received = [([1, 2], true), ([3], true)] ∧
    gotBoth.driver.driver.sent = [[5, 6, 7]] := by
  decide

end Ethernet
end CamkesVm
