import CamkesVm.Lib.Extent
import Mathlib.Data.BitVec
import Mathlib.Data.List.Nodup

/-!
# The Sataserver: configuration and virtual layout

The Sataserver owns one disk and shares its first four partitions out among the virtual machines
that are connected to it.  The composition lists, for every client, the numbers of the partitions it
gets; `postInit` checks these lists and lays the partitions of each client out one behind the other,
so that the client sees a disk of its own which starts with a synthetic partition table.

What the server gets from outside this repository is in `Platform`: the drive's partition table and
its first sector as the driver reads them, and where in memory a `partition_table_t` keeps its
fields.  The allocators, the DMA pool and the device set-up of `post_init` come before anything that
is modelled here and do not touch it; they are left out.

## What is here

* `PartitionTable`, `Client`, `Config`, `Platform`, `Server` — an entry of a table, a client's
  record, what the composition says, what comes from outside, and the server's variables.
* `checkPartIsAssigned`, `checkPartitions`, `loadClients` — the first loop. A list that is too long
  is copied before its length is looked at, and what the copy does to the records is the platform's
  (`Platform` has a function for it).
* `chs`, `packSecCyl`, `virtualTable`, `virtualTables`, `layoutClient` — the second loop.
* `postInit` — both, and what is left when the first one fails.

Numbers have the width they have in the source, where sums of them may overflow.
-/

set_option autoImplicit false

namespace CamkesVm
namespace Sataserver

/-! ## Constants -/

/-- `MAX_PARTITIONS`: partitions of the drive that can be given to a client. -/
abbrev maxPartitions : ℕ := 4

/-- `VIRT_START_SECTOR`: the first sector of a client's first virtual partition. -/
abbrev virtStartSector : ℕ := 64

/-- `BUF_SIZE`: the bytes a request can move at most. -/
abbrev bufSize : ℕ := 4096

/-- `SATA_BLK_SIZE`: the bytes of a sector. -/
abbrev sataBlkSize : ℕ := 512

/-- `MAX_NUM_CYL`. -/
abbrev maxNumCyl : BitVec 32 := 1023

/-- `MAX_NUM_HEAD`. -/
abbrev maxNumHead : BitVec 32 := 255

/-- `MAX_NUM_SECT`. -/
abbrev maxNumSect : BitVec 32 := 63

/-! ## Data -/

/-- An entry of a partition table (`partition_table_t`). -/
structure PartitionTable where
  /-- The boot flag. -/
  boot : BitVec 8
  /-- Head of the first sector. -/
  head : BitVec 8
  /-- Sector and cylinder of the first sector, packed. -/
  secCyl : BitVec 16
  /-- The type of the partition. -/
  sysId : BitVec 8
  /-- Head of the last sector. -/
  endHead : BitVec 8
  /-- Sector and cylinder of the last sector, packed. -/
  endSecCyl : BitVec 16
  /-- The first sector. -/
  startLba : BitVec 32
  /-- How many sectors there are. -/
  numSectors : BitVec 32
  deriving DecidableEq, Repr

/-- The sectors of a partition. -/
def PartitionTable.extent (table : PartitionTable) : Extent :=
  ⟨table.startLba.toNat, table.numSectors.toNat⟩

/-- A cleared entry. -/
def PartitionTable.zero : PartitionTable := ⟨0, 0, 0, 0, 0, 0, 0, 0⟩

/-- The server's record of a client (`client_t`), the pointer to the dataport aside. -/
structure Client where
  /-- The badge the client's calls carry. -/
  clientId : BitVec 32
  /-- The first `num_partitions` entries of `partitions`. -/
  partitions : List (BitVec 8)
  /-- The virtual partition table, `MAX_PARTITIONS` entries. -/
  partitionTables : List PartitionTable
  /-- The capacity of the virtual disk. -/
  capacity : BitVec 64
  deriving DecidableEq, Repr

/-- The table of a client as `calloc` and `memset` leave it. -/
def clearedTables : List PartitionTable := List.replicate maxPartitions .zero

/-- A record as `calloc` leaves it. -/
def Client.zero : Client := ⟨0, [], clearedTables, 0⟩

/-- What the composition says about the clients.  The generated code takes the partition lists from
a `switch` over the badges, so these are distinct, and hands the length of a list over as a
`uint8_t`. -/
structure Config where
  /-- The badges of the clients, in the order `client_enumerate_badge` gives them. -/
  badges : List (BitVec 32)
  /-- No badge is used twice. -/
  badges_nodup : badges.Nodup
  /-- The partition numbers listed for a badge. -/
  partitionList : BitVec 32 → List (BitVec 8)
  /-- A list's length fits `num_partitions`. -/
  length_partitionList_lt : ∀ badge, (partitionList badge).length < 2 ^ 8

/-- What the server gets from code that is not in this repository. -/
structure Platform where
  /-- `phys_partition_tables`, an array of `MAX_PARTITIONS` entries. -/
  physPartitionTables : ℕ → PartitionTable
  /-- `g_part_data`: the first sector of the drive. -/
  gPartData : ℕ → BitVec 8
  /-- `PART_OFFSET`: where in that sector the partition table is. -/
  partOffset : ℕ
  /-- An array of table entries as bytes in memory. -/
  tableBytes : List PartitionTable → List (BitVec 8)
  /-- The table of a drive lies within its sector. -/
  table_fits : ∀ ts : List PartitionTable, ts.length = maxPartitions →
    partOffset + (tableBytes ts).length ≤ sataBlkSize
  /-- The records from a client's own to the last once a list longer than the array `partitions`
  has been copied over it: the copy runs out of bounds, so they can be anything. -/
  overrun : BitVec 32 → List (BitVec 8) → ℕ → List Client

/-- The server's own variables. -/
structure Server where
  /-- `done_init`. -/
  doneInit : Bool
  /-- `invalid_config`. -/
  invalidConfig : Bool
  /-- The `num_clients` records at `clients`. -/
  clients : List Client

/-- The server before `post_init`. -/
def Server.initial : Server := ⟨false, false, []⟩

/-! ## Checking the configuration -/

/-- `check_part_is_assigned`: marks a partition as assigned.  `none` is the return value -1. -/
def checkPartIsAssigned (assignedParts : ℕ → Bool) (partition : BitVec 8) : Option (ℕ → Bool) :=
  let part := (partition - 1).toNat
  if maxPartitions ≤ part ∨ assignedParts part = true then none
  else some (Function.update assignedParts part true)

/-- The loop over one client's list. -/
def checkPartitions (assignedParts : ℕ → Bool) : List (BitVec 8) → Option (ℕ → Bool)
  | [] => some assignedParts
  | partition :: rest =>
    match checkPartIsAssigned assignedParts partition with
    | none => none
    | some assignedParts' => checkPartitions assignedParts' rest

/-- A record once the client's identity and list have been read. -/
def Client.ofBadge (cfg : Config) (badge : BitVec 32) : Client :=
  { Client.zero with clientId := badge, partitions := cfg.partitionList badge }

/-- The first loop of `post_init`: reads and checks the lists of the clients with the given badges.
The flag says whether it came to its end. -/
def loadClients (P : Platform) (cfg : Config) (assignedParts : ℕ → Bool) :
    List (BitVec 32) → Bool × List Client
  | [] => (true, [])
  | badge :: rest =>
    let client := Client.ofBadge cfg badge
    if maxPartitions < client.partitions.length then
      (false, P.overrun badge client.partitions (rest.length + 1))
    else
      match checkPartitions assignedParts client.partitions with
      | none => (false, client :: List.replicate rest.length .zero)
      | some assignedParts' =>
        let loaded := loadClients P cfg assignedParts' rest
        (loaded.1, client :: loaded.2)

/-! ## The virtual layout -/

/-- Cylinder, head and sector of an address, or the largest of each if the cylinder does not fit. -/
def chs (lba : BitVec 32) : BitVec 16 × BitVec 8 × BitVec 8 :=
  if maxNumCyl < lba / (maxNumHead * maxNumSect) then
    (maxNumCyl.setWidth 16, maxNumHead.setWidth 8, maxNumSect.setWidth 8)
  else
    ((lba / (maxNumHead * maxNumSect)).setWidth 16, (lba / maxNumSect % maxNumHead).setWidth 8,
      (lba % maxNumSect + 1).setWidth 8)

/-- Sector and cylinder packed: the upper two bits of the cylinder go on top of the sector. -/
def packSecCyl (cyl : BitVec 16) (sec : BitVec 8) : BitVec 16 :=
  sec.setWidth 16 ||| ((cyl &&& 0x0300) >>> 2) ||| ((cyl &&& 0x00FF) <<< 8)

/-- Where a partition is in `phys_partition_tables`: partitions start counting at 1. -/
def partIdx (partition : BitVec 8) : ℕ := (partition - 1).toNat

/-- The virtual entry for a partition, when the virtual partitions before it end at `sectors`. -/
def virtualTable (P : Platform) (sectors : BitVec 32) (partition : BitVec 8) : PartitionTable :=
  let phys := P.physPartitionTables (partIdx partition)
  let first := chs sectors
  let last := chs (sectors + phys.numSectors - 1)
  { boot := phys.boot
    head := first.2.1
    secCyl := packSecCyl first.1 first.2.2
    sysId := phys.sysId
    endHead := last.2.1
    endSecCyl := packSecCyl last.1 last.2.2
    startLba := sectors
    numSectors := phys.numSectors }

/-- The loop over one client's partitions: the entries it writes, and `sectors` at its end. -/
def virtualTables (P : Platform) (sectors : BitVec 32) :
    List (BitVec 8) → List PartitionTable × BitVec 32
  | [] => ([], sectors)
  | partition :: rest =>
    let table := virtualTable P sectors partition
    let tables := virtualTables P (sectors + table.numSectors) rest
    (table :: tables.1, tables.2)

/-- The body of the second loop of `post_init`. -/
def layoutClient (P : Platform) (client : Client) : Client :=
  let tables := virtualTables P (BitVec.ofNat 32 virtStartSector) client.partitions
  { client with
    partitionTables := tables.1 ++ clearedTables.drop tables.1.length
    capacity := tables.2.setWidth 64 }

/-- `post_init`, from where the partition table of the drive has been read.  A rejected
configuration leaves the records as the first loop left them, and the initialisation counts as done
all the same. -/
def postInit (P : Platform) (cfg : Config) : Server :=
  let loaded := loadClients P cfg (fun _ ↦ false) cfg.badges
  { doneInit := true
    invalidConfig := !loaded.1
    clients := if loaded.1 then loaded.2.map (layoutClient P) else loaded.2 }

/-! ## Small facts -/

@[simp] theorem postInit_doneInit (P : Platform) (cfg : Config) :
    (postInit P cfg).doneInit = true := rfl

@[simp] theorem ofBadge_partitions (cfg : Config) (badge : BitVec 32) :
    (Client.ofBadge cfg badge).partitions = cfg.partitionList badge := rfl

/-- There is one virtual entry for every partition. -/
theorem length_virtualTables (P : Platform) (sectors : BitVec 32) (partitions : List (BitVec 8)) :
    (virtualTables P sectors partitions).1.length = partitions.length := by
  induction partitions generalizing sectors with
  | nil => rfl
  | cons partition rest ih => simp [virtualTables, ih]

end Sataserver
end CamkesVm
