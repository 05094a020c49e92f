import CamkesVm.Lib.Words

/-!
# Cross-VM connections: the shared memory of a channel

The macros of `components/VM/configurations/connections.h` expand a topology, which lists for each
VM the VMs it is connected to, into the configuration of the vswitch.  Each connection of a VM gets
two interfaces, one to send and one to receive.  An interface is given its shared memory by an
attribute, which is a string: interfaces with the same attribute share their memory.

The attribute of the channel from one VM to another is made by pasting their two numbers together.
The two ends of a channel therefore agree (`recvAttributes_eq`), but nothing marks where the first
number ends.  Exactly when this matters is `attributes_unique_iff`; the first numbers it matters for
are 1 and 11, whose two channels with each other are one and the same memory.

## What is here

* `varStringize`, `configPerConnection`, `addMacaddrMapping`, `configExpandPervm`,
  `vmConnectionConfig` — the macros as functions on numbers and strings. A `##` in the source is an
  append here, since the numbers of VMs are literals when they are pasted.
* `Topology`, `Channel`, `Uses` — a channel is directed, and a configuration uses a memory for it at
  two interfaces. Which of them are there is read off the expanded configuration, and not from the
  topology.
* `uses_iff` — the expansion is right in itself: both interfaces of a channel get the memory of its
  key.
* `digits`, `Channel.Mistakable` — decimal notation, and two channels whose digits read the same in
  a row.
* `KeysUnique`, `attributes_unique_iff` — the purpose of the keys, and exactly the topologies that
  have it.

Nothing bounds the numbers of VMs. With fewer than eleven of them, counted from 0, no channel can be
mistaken for another, as every number has one digit.
-/

set_option autoImplicit false

namespace CamkesVm
namespace Connections

open Words

/-! ## The configuration -/

/-- `VAR_STRINGIZE(a##b)` for two VM numbers. -/
def varStringize (a b : ℕ) : String := toString a ++ toString b

/-- The attributes of the two interfaces of one connection. -/
structure ConnectionConfig where
  /-- `send_id` -/
  sendId : ℕ
  /-- `send_attributes` -/
  sendAttributes : String
  /-- `recv_id` -/
  recvId : ℕ
  /-- `recv_attributes` -/
  recvAttributes : String
  /-- `send_shmem_size` -/
  sendShmemSize : ℕ
  /-- `recv_shmem_size` -/
  recvShmemSize : ℕ

/-- `__CONFIG_PER_CONNECTION` -/
def configPerConnection (baseId targetId idx : ℕ) : ConnectionConfig where
  sendId := idx * 2
  sendAttributes := varStringize baseId targetId
  recvId := idx * 2 + 1
  recvAttributes := varStringize targetId baseId
  sendShmemSize := 32768
  recvShmemSize := 32768

/-- An entry of `vswitch_layout`. -/
structure MacaddrMapping where
  /-- `mac_addr` -/
  macAddr : String
  /-- `send_id` -/
  sendId : ℕ
  /-- `recv_id` -/
  recvId : ℕ

/-- `__ADD_MACADDR_MAPPING`, where `macaddress` are the `VM##vm_id##_MACADDRESS`. -/
def addMacaddrMapping (macaddress : ℕ → String) (vmId idx : ℕ) : MacaddrMapping where
  macAddr := macaddress vmId
  sendId := idx * 2
  recvId := idx * 2 + 1

/-- The configuration of one VM. -/
structure VmConfig where
  /-- The connections, each with the VM it leads to. -/
  connections : List (ℕ × ConnectionConfig)
  /-- `vswitch_mac_address` -/
  vswitchMacAddress : String
  /-- `vswitch_layout` -/
  vswitchLayout : List MacaddrMapping

/-- `__CONFIG_EXPAND_PERVM`; `__CALL_NUM` counts from 0. -/
def configExpandPervm (macaddress : ℕ → String) (baseId : ℕ) (vmIds : List ℕ) : VmConfig where
  connections := vmIds.zipIdx.map fun (vm, idx) ↦ (vm, configPerConnection baseId vm idx)
  vswitchMacAddress := macaddress baseId
  vswitchLayout := vmIds.zipIdx.map fun (vm, idx) ↦ addMacaddrMapping macaddress vm idx

/-- A topology: each VM with the VMs it is connected to. -/
abbrev Topology := List (ℕ × List ℕ)

/-- The configuration of a topology: that of each of its VMs. -/
def vmConnectionConfig (macaddress : ℕ → String) (topology : Topology) : List (ℕ × VmConfig) :=
  topology.map fun (baseId, vmIds) ↦ (baseId, configExpandPervm macaddress baseId vmIds)

/-! ## Channels and their memory -/

/-- A channel is directed: from one VM to another. -/
structure Channel where
  /-- The VM that sends. -/
  sender : ℕ
  /-- The VM that receives. -/
  receiver : ℕ
  deriving DecidableEq

/-- The shared memory of a channel. -/
def Channel.attributes (c : Channel) : String := varStringize c.sender c.receiver

/-- The channel in the other direction. -/
def Channel.reverse (c : Channel) : Channel := ⟨c.receiver, c.sender⟩

/-- In a configuration, an interface of the channel is given this shared memory: the interface
through which its sender sends, or the one through which its receiver receives. -/
inductive Uses (vms : List (ℕ × VmConfig)) : Channel → String → Prop
  /-- The sender's interface. -/
  | send {vm : ℕ} {config : VmConfig} {peer : ℕ} {conn : ConnectionConfig}
      (hvm : (vm, config) ∈ vms) (hconn : (peer, conn) ∈ config.connections) :
      Uses vms ⟨vm, peer⟩ conn.sendAttributes
  /-- The receiver's interface. -/
  | recv {vm : ℕ} {config : VmConfig} {peer : ℕ} {conn : ConnectionConfig}
      (hvm : (vm, config) ∈ vms) (hconn : (peer, conn) ∈ config.connections) :
      Uses vms ⟨peer, vm⟩ conn.recvAttributes

/-- The channels of a topology: both directions of every connection. -/
def Topology.channels (topology : Topology) : List Channel :=
  topology.flatMap fun (baseId, vmIds) ↦
    vmIds.flatMap fun vm ↦ [⟨baseId, vm⟩, ⟨vm, baseId⟩]

section

variable {topology : Topology} {macaddress : ℕ → String} {c : Channel} {attributes : String}

theorem mem_channels :
    c ∈ topology.channels ↔ ∃ baseId vmIds, (baseId, vmIds) ∈ topology ∧
      ∃ vm ∈ vmIds, c = ⟨baseId, vm⟩ ∨ c = ⟨vm, baseId⟩ := by
  simp [Topology.channels]

/-- The connections of a VM are those of its list. -/
theorem mem_connections {baseId : ℕ} {vmIds : List ℕ} {peer : ℕ} {conn : ConnectionConfig} :
    (peer, conn) ∈ (configExpandPervm macaddress baseId vmIds).connections ↔
      ∃ idx, (peer, idx) ∈ vmIds.zipIdx ∧ conn = configPerConnection baseId peer idx := by
  constructor
  · intro h
    obtain ⟨⟨vm, idx⟩, hmem, heq⟩ := List.mem_map.mp h
    cases heq
    exact ⟨idx, hmem, rfl⟩
  · rintro ⟨idx, hmem, rfl⟩
    exact List.mem_map.mpr ⟨(peer, idx), hmem, rfl⟩

theorem mem_vmConnectionConfig {baseId : ℕ} {config : VmConfig} :
    (baseId, config) ∈ vmConnectionConfig macaddress topology ↔
      ∃ vmIds, (baseId, vmIds) ∈ topology ∧
        config = configExpandPervm macaddress baseId vmIds := by
  constructor
  · intro h
    obtain ⟨⟨base, vmIds⟩, hmem, heq⟩ := List.mem_map.mp h
    cases heq
    exact ⟨vmIds, hmem, rfl⟩
  · rintro ⟨vmIds, hmem, rfl⟩
    exact List.mem_map.mpr ⟨(baseId, vmIds), hmem, rfl⟩

/-- **Both ends of a channel get its memory**, and no other, and only channels of the topology get
any. -/
theorem uses_iff :
    Uses (vmConnectionConfig macaddress topology) c attributes ↔
      c ∈ topology.channels ∧ attributes = c.attributes := by
  constructor
  · intro h
    cases h with
    | @send vm config peer conn hvm hconn =>
      obtain ⟨vmIds, htop, rfl⟩ := mem_vmConnectionConfig.mp hvm
      obtain ⟨idx, hidx, rfl⟩ := mem_connections.mp hconn
      exact ⟨mem_channels.mpr ⟨vm, vmIds, htop, peer, List.fst_mem_of_mem_zipIdx hidx, .inl rfl⟩,
        rfl⟩
    | @recv vm config peer conn hvm hconn =>
      obtain ⟨vmIds, htop, rfl⟩ := mem_vmConnectionConfig.mp hvm
      obtain ⟨idx, hidx, rfl⟩ := mem_connections.mp hconn
      exact ⟨mem_channels.mpr ⟨vm, vmIds, htop, peer, List.fst_mem_of_mem_zipIdx hidx, .inr rfl⟩,
        rfl⟩
  · rintro ⟨hc, rfl⟩
    obtain ⟨baseId, vmIds, htop, vm, hvm, hc⟩ := mem_channels.mp hc
    have hconfig : (baseId, configExpandPervm macaddress baseId vmIds) ∈
        vmConnectionConfig macaddress topology := mem_vmConnectionConfig.mpr ⟨vmIds, htop, rfl⟩
    obtain ⟨idx, hidx, hget⟩ := List.mem_iff_getElem.mp hvm
    have hconn : (vm, configPerConnection baseId vm idx) ∈
        (configExpandPervm macaddress baseId vmIds).connections :=
      mem_connections.mpr ⟨idx, List.mem_zipIdx_iff_getElem?.mpr (by simp [hidx, hget]), rfl⟩
    rcases hc with rfl | rfl
    · exact .send hconfig hconn
    · exact .recv hconfig hconn

end

/-! ## When the memory of a channel is its own -/

/-- The decimal digits of a VM number. -/
def digits (a : ℕ) : List Char := Nat.toDigits 10 a

theorem digits_injective {a b : ℕ} (h : digits a = digits b) : a = b := by
  have hread := congrArg (Nat.ofDigitChars 10 · 0) h
  simpa [digits, Nat.ofDigitChars_toDigits] using hread

theorem varStringize_eq_iff {a b c d : ℕ} :
    varStringize a b = varStringize c d ↔ digits a ++ digits b = digits c ++ digits d := by
  rw [← String.toList_inj]
  simp [varStringize, digits, Nat.toList_repr]

/-- The numbers of one channel are those of the other with a block of digits moved from the second
number to the first. -/
def Channel.Mistakable (c c' : Channel) : Prop :=
  Shifted (digits c.sender) (digits c.receiver) (digits c'.sender) (digits c'.receiver)

/-- **Two channels have the same memory** if they are the same, or one can be mistaken for the
other. -/
theorem attributes_eq_iff {c c' : Channel} :
    c.attributes = c'.attributes ↔ c = c' ∨ c.Mistakable c' ∨ c'.Mistakable c := by
  rw [Channel.attributes, Channel.attributes, varStringize_eq_iff, append_eq_append_iff_shifted]
  refine or_congr ⟨?_, ?_⟩ Iff.rfl
  · rintro ⟨hs, hr⟩
    cases c
    cases c'
    exact congrArg₂ Channel.mk (digits_injective hs) (digits_injective hr)
  · rintro rfl
    exact ⟨rfl, rfl⟩

theorem Channel.Mistakable.ne {c c' : Channel} (h : c.Mistakable c') : c ≠ c' := by
  rintro rfl
  exact Shifted.ne h rfl

/-- In a topology, no two channels get the same shared memory. -/
def Isolated (macaddress : ℕ → String) (topology : Topology) : Prop :=
  ∀ c c' attributes, Uses (vmConnectionConfig macaddress topology) c attributes →
    Uses (vmConnectionConfig macaddress topology) c' attributes → c = c'

/-- A topology connects no VM with itself. -/
def Topology.Proper (topology : Topology) : Prop := ∀ c ∈ topology.channels, c.sender ≠ c.receiver

instance (topology : Topology) : Decidable topology.Proper :=
  inferInstanceAs (Decidable (∀ c ∈ topology.channels, c.sender ≠ c.receiver))

/-- What the keys of the channels are meant to guarantee: they are unique, so that two channels of a
topology never share memory, and neither do the two channels between a pair of VMs. -/
structure KeysUnique : Prop where
  /-- The key of a channel says which one it is. -/
  keys : ∀ a b c d, a ≠ b → c ≠ d → varStringize a b = varStringize c d → a = c ∧ b = d
  /-- Different channels have different memory. -/
  isolated : ∀ macaddress topology, topology.Proper → Isolated macaddress topology
  /-- The two channels between a pair of VMs are distinct. -/
  directions : ∀ c : Channel, c.sender ≠ c.receiver → c.attributes ≠ c.reverse.attributes

/-- **When keys are unique.**  Two keys tell two channels apart exactly if neither channel can be
mistaken for the other, that is, no block of digits can be moved from the second number of one to
its first to give the other.  A topology is isolated exactly if this is so for all its channels.
And the two channels between a pair of VMs are distinct exactly if the numbers of the two are not
repetitions of one block of digits. -/
theorem attributes_unique_iff (macaddress : ℕ → String) (topology : Topology) (ch : Channel)
    (a b c d : ℕ) :
    ((varStringize a b = varStringize c d → a = c ∧ b = d) ↔
      ¬Channel.Mistakable ⟨a, b⟩ ⟨c, d⟩ ∧ ¬Channel.Mistakable ⟨c, d⟩ ⟨a, b⟩) ∧
    (Isolated macaddress topology ↔
      ∀ c ∈ topology.channels, ∀ c' ∈ topology.channels, ¬c.Mistakable c') ∧
    (ch.attributes ≠ ch.reverse.attributes ↔
      ¬∃ w m n, digits ch.sender = repeated w m ∧ digits ch.receiver = repeated w n) := by
  refine ⟨?_, ?_, ?_⟩
  · have hiff := @attributes_eq_iff ⟨a, b⟩ ⟨c, d⟩
    constructor
    · intro h
      refine ⟨fun hm ↦ ?_, fun hm ↦ ?_⟩
      · obtain ⟨rfl, rfl⟩ := h (hiff.mpr (.inr (.inl hm)))
        exact hm.ne rfl
      · obtain ⟨rfl, rfl⟩ := h (hiff.mpr (.inr (.inr hm)))
        exact hm.ne rfl
    · rintro ⟨h1, h2⟩ heq
      rcases hiff.mp heq with hsame | hm | hm
      · cases hsame
        exact ⟨rfl, rfl⟩
      · exact absurd hm h1
      · exact absurd hm h2
  · constructor
    · intro h c hc c' hc' hm
      exact hm.ne (h c c' c.attributes (uses_iff.mpr ⟨hc, rfl⟩)
        (uses_iff.mpr ⟨hc', attributes_eq_iff.mpr (.inr (.inl hm))⟩))
    · intro h c c' attributes hu hu'
      obtain ⟨hc, rfl⟩ := uses_iff.mp hu
      obtain ⟨hc', heq⟩ := uses_iff.mp hu'
      rcases attributes_eq_iff.mp heq with hsame | hm | hm
      · exact hsame
      · exact absurd hm (h c hc c' hc')
      · exact absurd hm (h c' hc' c hc)
  · rw [not_iff_not.symm, not_not, not_not]
    exact varStringize_eq_iff.trans append_comm_iff

/-- Thirteen VMs, of which VM 1 is connected to VM 12 and VM 11 to VM 2. -/
def thirteenVms : Topology := [(1, [12]), (12, [1]), (11, [2]), (2, [11])]

/-- **The channels from 1 to 12 and from 11 to 2 share their memory.** -/
theorem not_keysUnique : ¬KeysUnique := by
  intro h
  have hproper : thirteenVms.Proper := by decide
  have hmemory : Channel.attributes ⟨1, 12⟩ = Channel.attributes ⟨11, 2⟩ :=
    varStringize_eq_iff.mpr (by decide)
  have hsame := h.isolated (fun _ ↦ "") thirteenVms hproper ⟨1, 12⟩ ⟨11, 2⟩ _
    (uses_iff.mpr ⟨by decide, rfl⟩) (uses_iff.mpr ⟨by decide, hmemory⟩)
  exact absurd hsame (by decide)

/-- The two channels between 1 and 11 are one. -/
example : Channel.attributes ⟨1, 11⟩ = Channel.attributes (Channel.reverse ⟨1, 11⟩) :=
  varStringize_eq_iff.mpr (by decide)

end Connections
end CamkesVm
