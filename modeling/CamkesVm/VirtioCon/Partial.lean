import CamkesVm.VirtioCon.Bringup

/-!
# Console connections that are not all up

`make_virtio_con_virtqueues` on x86, and `make_virtio_con` on Arm, set the ports up one after the
other and return at the first channel that is missing, or on Arm at the first handler that cannot be
registered.  What is set up then is the first few entries of `connections`; the pointers of the
others are `NULL`.  On Arm port 0 is another one, the interface of the `SerialServer`: it comes
before those of `serial_layout`, has no channels, and is entered before its handler is registered.

`handle_serial_console` and `tx_virtcon_forward` do not look whether a port is set up.  So the ones
that are set up work if all of them are: `usable_iff`.

## What is here

* `Links.forward`, `handleSerialConsole`, `txVirtconForwardPort` — the users of the table, which
  fault at a port that is not set up.
* `Usable`, `usable_iff_length` — the ports that are set up work, and exactly when: if there is no
  other.
* `makeVirtioConPorts`, `makeVirtioCon`, `Found` — set-up on Arm, with the calls that may fail; that
  of x86 is in `CamkesVm.VirtioCon.Bringup`.
* `Vmm`, `Startup`, `Vmm.AllUp`, `usable_iff` — both VMMs in one statement.
-/

set_option autoImplicit false

namespace CamkesVm
namespace VirtioCon

/-! ## The table of ports -/

section

variable {ε κ : Type} [DecidableEq κ]

/-- A character is forwarded to a port that is set up. -/
def Links.forward (s : Links ε κ) (conn : SerialConn κ) (c : Byte) : Links ε κ := { s with
  ring := Function.update s.ring conn.sendBuf (txVirtconForward (s.ring conn.sendBuf) c)
  forwarded := Function.update s.forwarded conn.sendBuf (s.forwarded conn.sendBuf ++ [c]) }

variable (numPorts : ℕ) (connections : List (SerialConn κ))

/-- `handle_serial_console`, where `connections` has the ports that are set up.  It faults at one
that is not. -/
def handleSerialConsole (s : Links ε κ) : Option (Links ε κ) :=
  (List.range numPorts).foldlM (fun s i ↦ connections[i]?.map s.drain) s

/-- `tx_virtcon_forward`.  The number of the port is an `int`, and it is compared as an unsigned
number: one below zero is a large one. -/
def txVirtconForwardPort (s : Links ε κ) (port : ℤ) (c : Byte) : Option (Links ε κ) :=
  if port < 0 ∨ numPorts ≤ port then some s
  else connections[port.toNat]?.map fun conn ↦ s.forward conn c

/-- The port of a number, if it is set up. -/
def installed (port : ℤ) : Option (SerialConn κ) :=
  if port < 0 then none else connections[port.toNat]?

/-- The ports that are set up work, and the others are skipped. -/
structure Usable : Prop where
  /-- `handle_serial_console` serves the ports that are set up. -/
  handles : ∀ s : Links ε κ,
    handleSerialConsole numPorts connections s = some (connections.foldl Links.drain s)
  /-- `tx_virtcon_forward` forwards to a port that is set up, and to no other. -/
  forwards : ∀ (s : Links ε κ) (port : ℤ) (c : Byte),
    txVirtconForwardPort numPorts connections s port c =
      match installed connections port with
      | some conn => some (s.forward conn c)
      | none => some s

variable {numPorts} {connections}

/-- **`handle_serial_console` needs all ports.** -/
theorem handleSerialConsole_eq (n : ℕ) (s : Links ε κ) :
    handleSerialConsole n connections s =
      if n ≤ connections.length then some ((connections.take n).foldl Links.drain s) else none := by
  induction n with
  | zero => rfl
  | succ n ih =>
    have hlast : handleSerialConsole (n + 1) connections s =
        (handleSerialConsole n connections s >>= fun t ↦ connections[n]?.map t.drain) := by
      rw [handleSerialConsole, List.range_succ, List.foldlM_append]
      refine congrArg _ (funext fun t ↦ ?_)
      rw [List.foldlM_cons]
      exact bind_pure _
    rw [hlast, ih]
    rcases Nat.lt_or_ge n connections.length with hlt | hge
    · rw [if_pos hlt.le, if_pos (Nat.succ_le_of_lt hlt), List.take_add_one, List.foldl_append,
        List.getElem?_eq_getElem hlt]
      rfl
    · rw [if_neg (by omega : ¬ n + 1 ≤ connections.length), List.getElem?_eq_none hge]
      split
      · rfl
      · rfl

/-- **The table is usable if it is complete.** -/
theorem usable_iff_length (hle : connections.length ≤ numPorts) :
    Usable (ε := ε) numPorts connections ↔ connections.length = numPorts := by
  constructor
  · intro h
    have hhandles := h.handles (.initial fun _ ↦ ⟨0, 0, fun _ ↦ 0⟩)
    rw [handleSerialConsole_eq] at hhandles
    split at hhandles
    · omega
    · exact nomatch hhandles
  · rintro rfl
    refine ⟨fun s ↦ ?_, fun s port c ↦ ?_⟩
    · rw [handleSerialConsole_eq, if_pos (Nat.le_refl _), List.take_length]
    · rw [txVirtconForwardPort, installed]
      by_cases hneg : port < 0
      · rw [if_pos (.inl hneg), if_pos hneg]
      · rw [if_neg hneg]
        split
        · rename_i hout
          rw [List.getElem?_eq_none (by omega)]
        · rename_i hin
          rw [List.getElem?_eq_getElem (by omega)]
          rfl

variable [DecidableEq ε] {C : Composition ε κ} {s : Links ε κ} {e : ε}

/-- The system's `tx_virtcon_forward` is this one, on a port that is not below zero. -/
theorem call_forward_eq (hconns : s.connections e = some connections) (port : ℕ) (c : Byte) :
    call C s (.forward e port c) =
      txVirtconForwardPort (C.serialLayout e).length connections s port c := by
  have hiff : ((port : ℤ) < 0 ∨ ((C.serialLayout e).length : ℤ) ≤ port) ↔
      (C.serialLayout e).length ≤ port := by omega
  simp only [call, hconns, txVirtconForwardPort, hiff]
  split
  · rfl
  · rw [Int.toNat_natCast]
    cases connections[port]? with
    | none => rfl
    | some conn => rfl

/-- So is its `handle_serial_console`, as no more ports are set up than there are. -/
theorem call_handle_eq (hconns : s.connections e = some connections)
    (hle : connections.length ≤ (C.serialLayout e).length) :
    call C s (.handle e) = handleSerialConsole (C.serialLayout e).length connections s := by
  simp only [call, hconns, handleSerialConsole_eq]
  split
  · rename_i hlength
    rw [if_pos (by omega), ← hlength, List.take_length]
  · rename_i hlength
    rw [if_neg (by omega)]

end

/-! ## Setting up -/

section

variable {κ : Type} (channel : VirtqueueRole → ℕ → Option κ) (registers : ℕ → Bool)

/-- The loop of `make_virtio_con` on Arm from port `i` on, which is the first of the list. -/
def makeVirtioConPorts : ℕ → List SerialLayout → List (SerialConn κ)
  | _, [] => []
  | i, port :: rest =>
    match channel .device port.recvId, channel .driver port.sendId with
    | some recv, some send =>
      if registers i then ⟨recv, send⟩ :: makeVirtioConPorts (i + 1) rest else []
    | _, _ => []

/-- `make_virtio_con` on Arm; `registers i` says whether `register_async_event_handler` succeeds for
port `i`. -/
def makeVirtioCon (serialGetcharBuf batchBuf : κ) (layout : List SerialLayout) :
    List (SerialConn κ) :=
  ⟨serialGetcharBuf, batchBuf⟩ ::
    if registers 0 then makeVirtioConPorts channel registers 1 layout else []

/-- Both channels of a port are found. -/
def Found (port : SerialLayout) : Prop :=
  channel .device port.recvId ≠ none ∧ channel .driver port.sendId ≠ none

variable {channel} in
theorem Found.exists {port : SerialLayout} (h : Found channel port) :
    ∃ recv send, channel .device port.recvId = some recv ∧
      channel .driver port.sendId = some send := by
  obtain ⟨recv, hrecv⟩ := Option.ne_none_iff_exists'.1 h.1
  obtain ⟨send, hsend⟩ := Option.ne_none_iff_exists'.1 h.2
  exact ⟨recv, send, hrecv, hsend⟩

/-- `make_virtio_con_virtqueues` gets to all ports if all channels are found. -/
theorem length_ports_eq_iff (layout : List SerialLayout) :
    (ports channel layout).length ≤ layout.length ∧
      ((ports channel layout).length = layout.length ↔ ∀ port ∈ layout, Found channel port) := by
  induction layout with
  | nil => exact ⟨Nat.le_refl _, iff_of_true rfl nofun⟩
  | cons port rest ih =>
    rw [ports, List.forall_mem_cons]
    split
    · rename_i recv send hrecv hsend
      rw [Found, hrecv, hsend]
      simpa using ih
    · rename_i hmissing
      refine ⟨Nat.zero_le _, iff_of_false (by simp) fun h ↦ ?_⟩
      obtain ⟨recv, send, hrecv, hsend⟩ := h.1.exists
      exact hmissing recv send hrecv hsend

/-- The loop on Arm gets to all ports if in addition all handlers are registered. -/
theorem length_makeVirtioConPorts_eq_iff (i : ℕ) (layout : List SerialLayout) :
    (makeVirtioConPorts channel registers i layout).length ≤ layout.length ∧
      ((makeVirtioConPorts channel registers i layout).length = layout.length ↔
        (∀ port ∈ layout, Found channel port) ∧
          ∀ j, i ≤ j → j < i + layout.length → registers j = true) := by
  induction layout generalizing i with
  | nil => exact ⟨Nat.le_refl _, iff_of_true rfl ⟨nofun, fun j hj hj' ↦ absurd hj' (by simpa)⟩⟩
  | cons port rest ih =>
    have hsplit : (∀ j, i ≤ j → j < i + (rest.length + 1) → registers j = true) ↔
        registers i = true ∧ ∀ j, i + 1 ≤ j → j < i + 1 + rest.length → registers j = true := by
      refine ⟨fun h ↦ ⟨h i (Nat.le_refl i) (by omega), fun j hj hj' ↦ ?_⟩, ?_⟩
      · exact h j (by omega) (by omega)
      rintro ⟨hfirst, hrest⟩ j hj hj'
      rcases Nat.eq_or_lt_of_le hj with rfl | hlt
      · exact hfirst
      · exact hrest j hlt (by omega)
    rw [makeVirtioConPorts, List.forall_mem_cons, List.length_cons, hsplit]
    split
    · rename_i recv send hrecv hsend
      obtain ⟨hle, hiff⟩ := ih (i + 1)
      rw [Found, hrecv, hsend]
      by_cases hregister : registers i = true
      · rw [if_pos hregister]
        simpa [hregister] using ⟨hle, hiff⟩
      · rw [if_neg hregister]
        exact ⟨Nat.zero_le _, iff_of_false (by simp) fun h ↦ hregister h.2.1⟩
    · rename_i hmissing
      refine ⟨Nat.zero_le _, iff_of_false (by simp) fun h ↦ ?_⟩
      obtain ⟨recv, send, hrecv, hsend⟩ := h.1.1.exists
      exact hmissing recv send hrecv hsend

end

/-! ## Both VMMs -/

/-- The VMMs that have the code. -/
inductive Vmm
  /-- The x86 one, in the component `Init`. -/
  | x86
  /-- The Arm one. -/
  | arm
  deriving DecidableEq

/-- What set-up depends on. -/
structure Startup (κ : Type) where
  /-- `serial_layout`. -/
  serialLayout : List SerialLayout
  /-- `get_virtqueue_channel`, which may fail. -/
  getVirtqueueChannel : VirtqueueRole → ℕ → Option κ
  /-- Whether `register_async_event_handler` succeeds for a port; on Arm. -/
  registers : ℕ → Bool
  /-- `serial_getchar_buf`, on Arm. -/
  serialGetcharBuf : κ
  /-- `batch_buf`, on Arm. -/
  batchBuf : κ
  /-- What is in the shared pages. -/
  ring : κ → SerialShmem

/-- `NUM_PORTS`. -/
def Vmm.numPorts {κ : Type} (c : Startup κ) : Vmm → ℕ
  | .x86 => c.serialLayout.length
  | .arm => c.serialLayout.length + 1

section

variable {κ : Type} [DecidableEq κ]

/-- The ports that are set up once set-up has returned. -/
def Vmm.connections (c : Startup κ) : Vmm → List (SerialConn κ)
  | .x86 => (makeVirtioConVirtqueues c.getVirtqueueChannel c.serialLayout c.ring).1
  | .arm => makeVirtioCon c.getVirtqueueChannel c.registers c.serialGetcharBuf c.batchBuf
      c.serialLayout

/-- Nothing fails.  On Arm the last handler to be registered is that of the last port. -/
def Vmm.AllUp (c : Startup κ) : Vmm → Prop
  | .x86 => ∀ port ∈ c.serialLayout, Found c.getVirtqueueChannel port
  | .arm => c.serialLayout = [] ∨ (∀ port ∈ c.serialLayout, Found c.getVirtqueueChannel port) ∧
      ∀ i ≤ c.serialLayout.length, c.registers i = true

/-- **When the consoles are usable**: if all channels are found and, on Arm, all handlers are
registered.  Where there is but the port of the `SerialServer`, it does not matter whether its is.
-/
theorem usable_iff {ε : Type} (c : Startup κ) (vmm : Vmm) :
    Usable (ε := ε) (vmm.numPorts c) (vmm.connections c) ↔ vmm.AllUp c := by
  cases vmm with
  | x86 =>
    have hports : Vmm.connections c .x86 = ports c.getVirtqueueChannel c.serialLayout :=
      (makeVirtioConVirtqueues_spec _ _ _).1
    obtain ⟨hle, hiff⟩ := length_ports_eq_iff c.getVirtqueueChannel c.serialLayout
    rw [hports]
    exact (usable_iff_length hle).trans hiff
  | arm =>
    obtain ⟨hle, hiff⟩ := length_makeVirtioConPorts_eq_iff c.getVirtqueueChannel c.registers 1
      c.serialLayout
    rw [Vmm.numPorts, Vmm.connections, Vmm.AllUp, makeVirtioCon]
    by_cases hregister : c.registers 0 = true
    · have hall : (∀ i ≤ c.serialLayout.length, c.registers i = true) ↔
          ∀ i, 1 ≤ i → i < 1 + c.serialLayout.length → c.registers i = true := by
        refine ⟨fun h i _ hi ↦ h i (by omega), fun h i hi ↦ ?_⟩
        rcases Nat.eq_zero_or_pos i with rfl | hpos
        · exact hregister
        · exact h i hpos (by omega)
      rw [if_pos hregister, usable_iff_length (Nat.succ_le_succ hle), List.length_cons,
        Nat.add_right_cancel_iff, hiff, hall]
      refine ⟨.inr, fun h ↦ h.elim (fun hnil ↦ ?_) id⟩
      rw [hnil]
      exact ⟨nofun, fun i hi hi' ↦ absurd hi' (Nat.not_lt.2 hi)⟩
    · rw [if_neg hregister, usable_iff_length (Nat.le_add_left 1 _), List.length_singleton]
      constructor
      · intro h
        exact .inl (List.length_eq_zero_iff.1 (by omega))
      · rintro (hnil | ⟨-, hall⟩)
        · rw [hnil]
          rfl
        · exact absurd (hall 0 (Nat.zero_le _)) hregister

end

/-- An Arm VMM with one console connection, of which the channels are missing. -/
def missing : Startup Bool where
  serialLayout := [⟨0, 0⟩]
  getVirtqueueChannel _ _ := none
  registers _ := true
  serialGetcharBuf := false
  batchBuf := true
  ring _ := ⟨0, 0, fun _ ↦ 0⟩

/-- **The port that is set up is lost as well**: the first character from the `SerialServer` makes
`handle_serial_console` look at the other. -/
theorem not_usable_missing :
    ¬ ∀ (c : Startup Bool) (vmm : Vmm),
      Usable (ε := Unit) (vmm.numPorts c) (vmm.connections c) := by
  intro h
  exact nomatch (h missing .arm).handles (.initial missing.ring)

end VirtioCon
end CamkesVm
