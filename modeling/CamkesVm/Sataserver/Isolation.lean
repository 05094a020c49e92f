import CamkesVm.Sataserver.Accept

/-!
# Isolation of the clients

A request names a first sector and a length.  The first sector is looked up in the client's virtual
partitions and moved to the physical one; the length goes to the driver as it is.  So the first
sector that the driver touches is the client's, and the others are as long as the request stays in
the partition it starts in.  `isolated_iff` says that this is all there is to it: a request that
runs over the end of its partition is isolated if and only if what is behind the partition on the
disk, as far as the request goes, belongs to the client as well.

## What is here

* `Client.Owns`, `PartitionsDisjoint` — ownership of sectors, from the physical table alone.
* `Direction`, `driverCall`, `driverCall_eq_findClient` — reads and writes make the same call of the
  driver, so they are treated together.
* `Isolated`, `Client.StaysWithClient`, `isolated_iff` — what should hold, when it does, and that
  this is exact.
* `not_isolated_over_the_end` — the smallest request that touches a sector of another client.

The condition is on the layout and the request. Where the partitions end within the 32-bit sector
numbers, every request that does not go beyond the partition it starts in meets it.
-/

set_option autoImplicit false

namespace CamkesVm
namespace Sataserver

/-! ## Whose sector it is -/

/-- The client has a partition with this sector of the disk. -/
def Client.Owns (P : Platform) (client : Client) (sector : ℕ) : Prop :=
  ∃ partition ∈ client.partitions,
    sector ∈ (P.physPartitionTables (partIdx partition)).extent

/-- The partitions of the drive have no sector in common. -/
def PartitionsDisjoint (P : Platform) : Prop :=
  ∀ i < maxPartitions, ∀ j < maxPartitions, i ≠ j →
    (P.physPartitionTables i).extent.Apart (P.physPartitionTables j).extent

/-- The two requests that reach the disk. -/
inductive Direction
  /-- `client_rx`. -/
  | rx
  /-- `client_tx`. -/
  | tx

/-- What a client's request hands to the driver. -/
def driverCall (P : Platform) (D : SataDriver) (server : Server) (id : BitVec 32) (disk : Disk)
    (dataport : Dataport) (sector len : BitVec 32) : Direction → Option DriverCall
  | .rx => (clientRx P D server id disk dataport sector len).bind Rx.call
  | .tx => (clientTx P D server id disk dataport sector len).bind Tx.call

/-- Every sector that is touched on behalf of the client is in a partition of its own, and in none
of another client's. -/
def Isolated (P : Platform) (server : Server) (client : Client) (call : Option DriverCall) : Prop :=
  ∀ c ∈ call, ∀ sector ∈ c.extent,
    client.Owns P sector ∧ ∀ other ∈ server.clients, other ≠ client → ¬other.Owns P sector

/-- A request for `count` sectors stays with what belongs to the client: where it goes on behind the
physical partition it starts in, the sectors there are the client's too.  A partition that the
drive's table has running beyond the 32-bit sector numbers is left through the end of these. -/
def StaysWithClient (P : Platform) (client : Client) (sector : BitVec 32) (count : ℕ) : Prop :=
  ∀ entry ∈ client.entryOf sector,
    let phys := (P.physPartitionTables (partIdx entry.1)).extent
    let first := phys.first + (sector.toNat - entry.2.startLba.toNat)
    if first < 2 ^ 32 then
      ∀ x ∈ Extent.mk first count, phys.past ≤ x → client.Owns P x
    else
      ∀ x ∈ Extent.mk (first - 2 ^ 32) count, client.Owns P x

/-! ## The call of the driver -/

section

variable (P : Platform) (D : SataDriver) (client : Client) (disk : Disk) (dataport : Dataport)
  (sector len : BitVec 32)

/-- What a request that is served hands to the driver. -/
def servedCall : Option DriverCall :=
  if sector.toNat < virtStartSector then none
  else (calulateSectorOffset P client sector).map fun offset ↦
    ⟨sector + offset, len.toNat / sataBlkSize⟩

theorem rxClient_call :
    (rxClient P D client disk dataport sector len).call = servedCall P client sector len := by
  rw [rxClient, servedCall]
  split
  · rename_i hzero
    rw [if_pos (by rw [hzero]; decide)]
  · split
    · rfl
    · cases calulateSectorOffset P client sector <;> rfl

theorem txClient_call :
    (txClient P D client disk dataport sector len).call = servedCall P client sector len := by
  rw [txClient, servedCall]
  split
  · rename_i hvirt
    rw [if_neg (Nat.not_lt.2 hvirt)]
    cases calulateSectorOffset P client sector <;> rfl
  · rename_i hlow
    rw [if_pos (Nat.not_le.1 hlow)]

end

/-- **The two directions make the same call**, that of the record found for the sender. -/
theorem driverCall_eq_findClient (P : Platform) (D : SataDriver) {server : Server}
    (hinit : server.doneInit = true) (id : BitVec 32) (disk : Disk) (dataport : Dataport)
    (sector len : BitVec 32) (dir : Direction) :
    driverCall P D server id disk dataport sector len dir =
      if bufSize < len.toNat then none
      else (findClient server.clients id).bind fun client ↦ servedCall P client sector len := by
  split
  · rename_i hlen
    cases dir with
    | rx => rw [driverCall, clientRx_of_lt _ _ _ _ _ _ _ hlen, Option.bind_some]
    | tx => rw [driverCall, clientTx_of_lt _ _ _ _ _ _ _ hlen, Option.bind_some]
  · rename_i hlen
    have hserve : ¬(server.doneInit = false ∨ bufSize < len.toNat) := by simp [hinit, hlen]
    cases dir with
    | rx =>
      rw [driverCall, clientRx, if_neg hserve]
      cases findClient server.clients id with
      | none => rfl
      | some client => exact rxClient_call P D client disk dataport sector len
    | tx =>
      rw [driverCall, clientTx, if_neg hserve]
      cases findClient server.clients id with
      | none => rfl
      | some client => exact txClient_call P D client disk dataport sector len

/-- The call for a client of an accepted configuration. -/
theorem driverCall_eq {P : Platform} {cfg : Config} (h : Accepted P cfg) (D : SataDriver)
    {client : Client} (hc : client ∈ (postInit P cfg).clients) (disk : Disk) (dataport : Dataport)
    (sector len : BitVec 32) (dir : Direction) :
    driverCall P D (postInit P cfg) client.clientId disk dataport sector len dir =
      if bufSize < len.toNat then none else servedCall P client sector len := by
  rw [driverCall_eq_findClient P D (postInit_doneInit P cfg), h.findClient_eq hc, Option.bind_some]

/-- The first sector handed to the driver is as far into the physical partition as the virtual
sector is into the virtual one. -/
theorem toNat_add_offset {sector start phys : BitVec 32} (h : start.toNat ≤ sector.toNat) :
    (sector + (phys - start)).toNat =
      (phys.toNat + (sector.toNat - start.toNat)) % 2 ^ 32 := by
  have hs := sector.isLt
  have hp := phys.isLt
  rw [BitVec.toNat_add, BitVec.toNat_sub]
  omega

/-! ## Isolation -/

section

variable {P : Platform} {cfg : Config} {client : Client}

/-- What a client owns, no other client does. -/
theorem not_owns_of_owns (h : Accepted P cfg) (hdisj : PartitionsDisjoint P)
    (hc : client ∈ (postInit P cfg).clients) {other : Client}
    (ho : other ∈ (postInit P cfg).clients) (hne : other ≠ client) {sector : ℕ}
    (howns : client.Owns P sector) : ¬other.Owns P sector := by
  rintro ⟨partition', hp', hsector'⟩
  obtain ⟨partition, hp, hsector⟩ := howns
  have hidx : partIdx partition ≠ partIdx partition' := fun heq ↦
    hne (h.eq_of_partIdx_eq hc ho hp hp' heq).symm
  exact hdisj _ (h.partIdx_lt hc hp) _ (h.partIdx_lt ho hp') hidx sector hsector hsector'

/-- Isolation is owning what is touched. -/
theorem isolated_iff_owns (h : Accepted P cfg) (hdisj : PartitionsDisjoint P)
    (hc : client ∈ (postInit P cfg).clients) (call : Option DriverCall) :
    Isolated P (postInit P cfg) client call ↔
      ∀ c ∈ call, ∀ sector ∈ c.extent, client.Owns P sector := by
  refine ⟨fun hiso c hcall sector hsector ↦ ?_, fun howns c hcall sector hsector ↦ ?_⟩
  · exact (hiso c hcall sector hsector).1
  · have hown := howns c hcall sector hsector
    exact ⟨hown, fun other ho hne ↦ not_owns_of_owns h hdisj hc ho hne hown⟩

/-- The sectors touched from a found entry are the client's if and only if the request stays with
what belongs to the client. -/
theorem owns_iff_staysWithClient (P : Platform) (client : Client) (sector : BitVec 32) (count : ℕ) :
    (∀ c ∈ (calulateSectorOffset P client sector).map fun offset ↦
        DriverCall.mk (sector + offset) count, ∀ x ∈ c.extent, client.Owns P x) ↔
      StaysWithClient P client sector count := by
  rw [calulateSectorOffset, StaysWithClient]
  cases hentry : client.entryOf sector with
  | none => simp
  | some entry =>
    obtain ⟨partition, table⟩ := entry
    obtain ⟨hpart, hcovers⟩ := Client.entryOf_spec hentry
    obtain ⟨⟨hlo, -⟩, -⟩ := PartitionTable.covers_iff.1 hcovers
    have hfirst : (sector + ((P.physPartitionTables (partIdx partition)).startLba -
        table.startLba)).toNat = ((P.physPartitionTables (partIdx partition)).extent.first +
          (sector.toNat - table.startLba.toNat)) % 2 ^ 32 := toNat_add_offset hlo
    have hphys : (P.physPartitionTables (partIdx partition)).extent.first < 2 ^ 32 :=
      (P.physPartitionTables (partIdx partition)).startLba.isLt
    have hsector := sector.isLt
    simp only [Option.map_some, Option.mem_def, Option.some.injEq, forall_eq', DriverCall.extent,
      hfirst]
    split
    · rename_i hlt
      rw [Nat.mod_eq_of_lt hlt]
      refine Extent.forall_mem_iff_past (Nat.le_add_right _ _) ?_
      exact fun x hx ↦ ⟨partition, hpart, hx⟩
    · rename_i hge
      rw [Nat.mod_eq_sub_mod (Nat.not_lt.1 hge), Nat.mod_eq_of_lt (by omega)]

/-- **A request is isolated as long as it stays with what belongs to the client.**  Whatever the
configuration, the drive and the request, a request that is served touches only sectors of the
client's own partitions if and only if it ends in the partition it starts in, or goes on into
sectors of the client's. -/
theorem isolated_iff (h : Accepted P cfg) (hdisj : PartitionsDisjoint P)
    (hc : client ∈ (postInit P cfg).clients) (D : SataDriver) (disk : Disk) (dataport : Dataport)
    (sector len : BitVec 32) (dir : Direction) :
    Isolated P (postInit P cfg) client
        (driverCall P D (postInit P cfg) client.clientId disk dataport sector len dir) ↔
      bufSize < len.toNat ∨ sector.toNat < virtStartSector ∨
        StaysWithClient P client sector (len.toNat / sataBlkSize) := by
  rw [isolated_iff_owns h hdisj hc, driverCall_eq h D hc]
  split
  · rename_i hlen
    exact iff_of_true (by simp) (.inl hlen)
  · rename_i hlen
    rw [servedCall]
    split
    · rename_i hlow
      exact iff_of_true (by simp) (.inr (.inl hlow))
    · rename_i hlow
      rw [owns_iff_staysWithClient]
      constructor
      · exact fun hstays ↦ .inr (.inr hstays)
      · rintro (hlen' | hlow' | hstays)
        · exact absurd hlen' hlen
        · exact absurd hlow' hlow
        · exact hstays

end

/-! ## Running over the end -/

theorem mem_twoPartitions {i x : ℕ} (h : x ∈ (twoPartitions.physPartitionTables i).extent) :
    (i = 0 ∧ 2048 ≤ x ∧ x < 2056) ∨ (i = 1 ∧ 2056 ≤ x ∧ x < 2064) := by
  rcases i with _ | _ | i
  · exact .inl ⟨rfl, h⟩
  · exact .inr ⟨rfl, h⟩
  · exact absurd h.2 (Nat.not_lt.2 h.1)

theorem twoPartitions_disjoint : PartitionsDisjoint twoPartitions := by
  intro i _ j _ hij x hi hj
  have hi' := mem_twoPartitions hi
  have hj' := mem_twoPartitions hj
  omega

/-- The theorem at a read that fills the first client's partition. -/
theorem isolated_iff_whole_partition :
    Isolated twoPartitions (postInit twoPartitions oneEach) firstClient
        (driverCall twoPartitions .faultless (postInit twoPartitions oneEach) firstClient.clientId
          (fun _ _ ↦ 0) (fun _ ↦ 0) 64 4096 .rx) ↔
      bufSize < (4096 : BitVec 32).toNat ∨ (64 : BitVec 32).toNat < virtStartSector ∨
        StaysWithClient twoPartitions firstClient 64 ((4096 : BitVec 32).toNat / sataBlkSize) :=
  isolated_iff oneEach_accepted twoPartitions_disjoint firstClient_mem _ _ _ _ _ _

/-- **The last sector of a partition, with a length of two sectors**: the second one is the other
client's. -/
theorem not_isolated_over_the_end :
    ¬ ∀ (P : Platform) (cfg : Config), Accepted P cfg → PartitionsDisjoint P →
        ∀ client ∈ (postInit P cfg).clients, ∀ (D : SataDriver) (disk : Disk) (dataport : Dataport)
          (sector len : BitVec 32) (dir : Direction),
        Isolated P (postInit P cfg) client
          (driverCall P D (postInit P cfg) client.clientId disk dataport sector len dir) := by
  intro h
  have hiso := h twoPartitions oneEach oneEach_accepted twoPartitions_disjoint firstClient
    firstClient_mem .faultless (fun _ _ ↦ 0) (fun _ ↦ 0) 71 1024 .tx
  have hcall : driverCall twoPartitions .faultless (postInit twoPartitions oneEach)
      firstClient.clientId (fun _ _ ↦ 0) (fun _ ↦ 0) 71 1024 .tx = some ⟨2055, 2⟩ := by
    rw [driverCall_eq oneEach_accepted .faultless firstClient_mem]
    decide
  rw [hcall] at hiso
  obtain ⟨partition, hpartition, hmem⟩ := (hiso ⟨2055, 2⟩ rfl 2056 (by decide)).1
  have hfirst : firstClient.partitions = [1] := by decide
  rw [hfirst, List.mem_singleton] at hpartition
  subst hpartition
  exact absurd hmem (by decide)

end Sataserver
end CamkesVm
