import CamkesVm.Sataserver.State

/-!
# The Sataserver: requests

A client reads with `clientRx` and writes with `clientTx`; its data is in a dataport that it shares
with the server.  The driver is not part of this repository: `SataDriver` is its interface, and what
the fields of propositions say is that a call works on exactly the sectors it is given.

Each request takes the badge of its sender, the sender's dataport and the disk, and says besides its
results which sectors it handed to the driver.  `none` stands for `assert(client)`: no client has
that badge.  The mutex around a request makes requests atomic and is not modelled otherwise.

## What is here

* `Dataport`, `Disk`, `SataDriver`, `DriverCall` — the memory, the disk and the driver. A driver may
  fail on sectors it cannot read; the ones that never do are `SataDriver.faultless`.
* `findClient`, `PartitionTable.covers`, `Client.entryOf`, `calulateSectorOffset`, `sectorAt` — from
  the badge to the record, and from the virtual sector to the physical one.
* `rxClient`, `clientRx`, `txClient`, `clientTx` — the requests, with `Rx` and `Tx` for their
  results.
* `clientGetStatus` — what the server says of itself.

The search goes through all clients and remembers the last with the badge, as the source does; that
there is only one is a fact about accepted configurations, and none of the model.
-/

set_option autoImplicit false

namespace CamkesVm
namespace Sataserver

/-! ## Memory, disk and driver -/

/-- The bytes of a dataport. -/
abbrev Dataport := ℕ → BitVec 8

/-- The bytes of a disk, by sector and place in the sector. -/
abbrev Disk := ℕ → ℕ → BitVec 8

/-- The SATA driver: `sata_read_sectors` and `sata_write_sectors`, with `true` for an error. -/
structure SataDriver where
  /-- The sectors that the drive can read. -/
  readable : ℕ → Prop
  /-- Reads sectors, from a first one on, into a buffer. -/
  sataReadSectors : Disk → BitVec 32 → ℕ → Dataport → Bool × Dataport
  /-- Writes sectors, from a first one on, from a buffer. -/
  sataWriteSectors : Disk → BitVec 32 → ℕ → Dataport → Bool × Disk
  /-- A read fails when one of the sectors cannot be read. -/
  read_ok_iff : ∀ disk first count buf, 0 < count →
    ((sataReadSectors disk first count buf).1 = false ↔
      ∀ sector ∈ Extent.mk first.toNat count, readable sector)
  /-- A read that does not fail fills the buffer with the sectors. -/
  read_data : ∀ disk first count buf, (sataReadSectors disk first count buf).1 = false →
    ∀ i < count, ∀ j < sataBlkSize,
      (sataReadSectors disk first count buf).2 (i * sataBlkSize + j) = disk (first.toNat + i) j
  /-- A write that does not fail stores the buffer in the sectors. -/
  write_data : ∀ disk first count buf, (sataWriteSectors disk first count buf).1 = false →
    ∀ i < count, ∀ j < sataBlkSize,
      (sataWriteSectors disk first count buf).2 (first.toNat + i) j = buf (i * sataBlkSize + j)
  /-- A write leaves all other sectors alone. -/
  write_frame : ∀ disk first count buf, ∀ sector ∉ Extent.mk first.toNat count,
    (sataWriteSectors disk first count buf).2 sector = disk sector

/-- A drive without faults. -/
def SataDriver.faultless : SataDriver where
  readable := fun _ ↦ True
  sataReadSectors := fun disk first count buf ↦
    (false, fun k ↦
      if k < count * sataBlkSize then disk (first.toNat + k / sataBlkSize) (k % sataBlkSize)
      else buf k)
  sataWriteSectors := fun disk first count buf ↦
    (false, fun sector j ↦
      if sector ∈ Extent.mk first.toNat count ∧ j < sataBlkSize then
        buf ((sector - first.toNat) * sataBlkSize + j)
      else disk sector j)
  read_ok_iff := by simp
  read_data := by
    intro disk first count buf _ i hi j hj
    simp only [sataBlkSize] at *
    have hdiv : (i * 512 + j) / 512 = i := by omega
    have hmod : (i * 512 + j) % 512 = j := by omega
    rw [if_pos (by omega), hdiv, hmod]
  write_data := by
    intro disk first count buf _ i hi j hj
    have hmem : first.toNat + i ∈ Extent.mk first.toNat count :=
      Extent.mem_mk.2 ⟨Nat.le_add_right _ _, Nat.add_lt_add_left hi _⟩
    simp only [hmem, hj, and_self, if_true, Nat.add_sub_cancel_left]
  write_frame := by
    intro disk first count buf sector hsector
    funext j
    simp only [hsector, false_and, if_false]

/-- What a request hands to the driver. -/
structure DriverCall where
  /-- The first sector. -/
  first : BitVec 32
  /-- How many sectors. -/
  count : ℕ
  deriving DecidableEq, Repr

/-- The sectors the driver touches. -/
def DriverCall.extent (call : DriverCall) : Extent := ⟨call.first.toNat, call.count⟩

/-! ## Finding the client and the sector -/

/-- The loop over the clients: the last one with the sender's badge. -/
def findClient (clients : List Client) (id : BitVec 32) : Option Client :=
  clients.foldl (fun client c ↦ if c.clientId = id then some c else client) none

/-- The partitions of a client with their virtual entries. -/
def Client.entries (client : Client) : List (BitVec 8 × PartitionTable) :=
  client.partitions.zip client.partitionTables

/-- A sector lies in a virtual partition, as the 32-bit comparisons have it. -/
def PartitionTable.covers (table : PartitionTable) (sector : BitVec 32) : Bool :=
  table.startLba ≤ sector && sector < table.startLba + table.numSectors

/-- The entry `calulate_sector_offset` stops at. -/
def Client.entryOf (client : Client) (sector : BitVec 32) : Option (BitVec 8 × PartitionTable) :=
  client.entries.find? (fun entry ↦ entry.2.covers sector)

/-- `calulate_sector_offset`: how far a virtual sector is from its physical one, or `none` when no
partition has it. -/
def calulateSectorOffset (P : Platform) (client : Client) (sector : BitVec 32) :
    Option (BitVec 32) :=
  match client.entryOf sector with
  | none => none
  | some (partition, table) =>
    some ((P.physPartitionTables (partIdx partition)).startLba - table.startLba)

/-- The physical sector the client's layout assigns to a virtual one. -/
def sectorAt (P : Platform) (client : Client) (sector : BitVec 32) : Option (BitVec 32) :=
  (calulateSectorOffset P client sector).map fun offset ↦ sector + offset

/-! ## Reading -/

/-- The results of `client_rx`. -/
structure Rx where
  /-- The return value. -/
  ret : BitVec 32
  /-- The sender's dataport afterwards. -/
  dataport : Dataport
  /-- The call of the driver, if there was one. -/
  call : Option DriverCall

/-- Sector 0 of a client's virtual disk: the drive's own with the virtual partition table in it. -/
def partData (P : Platform) (client : Client) : Dataport := fun k ↦
  let table := P.tableBytes client.partitionTables
  if P.partOffset ≤ k ∧ k < P.partOffset + table.length then table.getD (k - P.partOffset) 0
  else P.gPartData k

/-- `client_rx`, once the client is known. -/
def rxClient (P : Platform) (D : SataDriver) (client : Client) (disk : Disk) (dataport : Dataport)
    (sector len : BitVec 32) : Rx :=
  if sector = 0 then
    ⟨len, fun k ↦ if k < sataBlkSize then partData P client k else dataport k, none⟩
  else if sector.toNat < virtStartSector then
    ⟨len, fun k ↦ if k < len.toNat then 0 else dataport k, none⟩
  else
    match calulateSectorOffset P client sector with
    | none => ⟨0, dataport, none⟩
    | some offset =>
      let call : DriverCall := ⟨sector + offset, len.toNat / sataBlkSize⟩
      let read := D.sataReadSectors disk call.first call.count dataport
      ⟨if read.1 then 0 else len, read.2, some call⟩

/-- `client_rx`. -/
def clientRx (P : Platform) (D : SataDriver) (server : Server) (id : BitVec 32) (disk : Disk)
    (dataport : Dataport) (sector len : BitVec 32) : Option Rx :=
  if server.doneInit = false ∨ bufSize < len.toNat then some ⟨0, dataport, none⟩
  else
    match findClient server.clients id with
    | none => none
    | some client => some (rxClient P D client disk dataport sector len)

/-! ## Writing -/

/-- The results of `client_tx`. -/
structure Tx where
  /-- The return value. -/
  ret : BitVec 32
  /-- The disk afterwards. -/
  disk : Disk
  /-- The call of the driver, if there was one. -/
  call : Option DriverCall

/-- `client_tx`, once the client is known. -/
def txClient (P : Platform) (D : SataDriver) (client : Client) (disk : Disk) (dataport : Dataport)
    (sector len : BitVec 32) : Tx :=
  if virtStartSector ≤ sector.toNat then
    match calulateSectorOffset P client sector with
    | none => ⟨0, disk, none⟩
    | some offset =>
      let call : DriverCall := ⟨sector + offset, len.toNat / sataBlkSize⟩
      let write := D.sataWriteSectors disk call.first call.count dataport
      ⟨if write.1 then 0 else len, write.2, some call⟩
  else ⟨len, disk, none⟩

/-- `client_tx`. -/
def clientTx (P : Platform) (D : SataDriver) (server : Server) (id : BitVec 32) (disk : Disk)
    (dataport : Dataport) (sector len : BitVec 32) : Option Tx :=
  if server.doneInit = false ∨ bufSize < len.toNat then some ⟨0, disk, none⟩
  else
    match findClient server.clients id with
    | none => none
    | some client => some (txClient P D client disk dataport sector len)

/-! ## The status of the server -/

/-- The values of `client_get_status`. -/
inductive Status
  /-- `SATASERVER_STATUS_GOOD`. -/
  | good
  /-- `SATASERVER_STATUS_NOT_DONE`. -/
  | notDone
  /-- `SATASERVER_STATUS_INVALID_CONF`. -/
  | invalidConf
  deriving DecidableEq, Repr

/-- `client_get_status`. -/
def clientGetStatus (server : Server) : Status :=
  if server.invalidConfig then .invalidConf
  else if server.doneInit = false then .notDone
  else .good

/-! ## Where a sector is -/

/-- A virtual partition covers no sector if its end is beyond 32 bits. -/
theorem PartitionTable.covers_iff {table : PartitionTable} {sector : BitVec 32} :
    table.covers sector = true ↔
      sector.toNat ∈ table.extent ∧ table.startLba.toNat + table.numSectors.toNat < 2 ^ 32 := by
  have hs := table.startLba.isLt
  have hn := table.numSectors.isLt
  simp only [PartitionTable.covers, Bool.and_eq_true, decide_eq_true_eq, BitVec.le_def,
    BitVec.lt_def, BitVec.toNat_add, Extent.mem_def, PartitionTable.extent]
  omega

/-- A sector the layout assigns has an offset that leads there. -/
theorem exists_offset_of_sectorAt {P : Platform} {client : Client} {sector first : BitVec 32}
    (h : sectorAt P client sector = some first) :
    ∃ offset, calulateSectorOffset P client sector = some offset ∧ sector + offset = first :=
  Option.map_eq_some_iff.1 h

theorem sectorAt_eq_none_iff {P : Platform} {client : Client} {sector : BitVec 32} :
    sectorAt P client sector = none ↔ calulateSectorOffset P client sector = none :=
  Option.map_eq_none_iff

/-- The entry found for a sector is one of the client's and covers it. -/
theorem Client.entryOf_spec {client : Client} {sector : BitVec 32} {partition : BitVec 8}
    {table : PartitionTable} (h : client.entryOf sector = some (partition, table)) :
    partition ∈ client.partitions ∧ table.covers sector = true := by
  refine ⟨(List.of_mem_zip (List.mem_of_find?_eq_some h)).1, ?_⟩
  exact List.find?_some (p := fun entry : BitVec 8 × PartitionTable ↦ entry.2.covers sector) h

end Sataserver
end CamkesVm
