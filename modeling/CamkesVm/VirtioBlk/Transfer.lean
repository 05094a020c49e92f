import CamkesVm.Sataserver.Isolation
import CamkesVm.Sataserver.Read
import CamkesVm.Sataserver.Write

/-!
# The block device of a guest

The guest's virtio block device hands each request to `virtioBlkEmulTransfer`: a direction, a
sector number of 64 bits and a length.  The function is a client of the Sataserver and passes the
request on by a remote call, whose sector number has 32 bits (`Sataserver.idl4`); the data goes
through the dataport that the two share.

What the guest sees of its disk is `virtualByte`, with the sector number as it is, and not as it
gets across.  For the sectors of the disk the two are the same (`toNat_setWidth_of_lt`).  A sector
behind the capacity is another matter: it is refused only if what is left of its number names no
sector the server knows (`Unknown`).

A request for a sector of the disk has the faults of the server's own functions: what it does is
decided by the region its first sector is in, and only whole sectors get to the driver.  `ReadsByte`
and `WritesByte` say for one byte of a request when the guest does not notice.  They are about the
disk, the dataport and the guest's buffer before the call, and whether the driver reports an error:

* a byte that is `InStep` is always right;
* any other byte has to be found where the server looks for it, or where it leaves it.

For the latter one has to know what the driver does not touch.  A write leaves the other sectors
alone, which is part of `SataDriver`; that a read leaves the rest of the buffer alone is the
hypothesis `LeavesRest`.

`addressed_iff` puts this together, for any part of a request from its start on, so that both the
sector named and the whole request are cases of it.
-/

set_option autoImplicit false

namespace CamkesVm
namespace VirtioBlk

open Sataserver

/-! ## The device -/

/-- The `direction` of a request. -/
inductive Direction
  /-- `VIRTIO_BLK_T_IN`. -/
  | tIn
  /-- `VIRTIO_BLK_T_OUT`. -/
  | tOut
  /-- `VIRTIO_BLK_T_SCSI_CMD`. -/
  | tScsiCmd
  /-- `VIRTIO_BLK_T_FLUSH`. -/
  | tFlush
  /-- `VIRTIO_BLK_T_GET_ID`. -/
  | tGetId
  /-- Any other value. -/
  | invalid
  deriving DecidableEq, Repr

/-- What a request ends with. -/
inductive XferStatus
  /-- `VIRTIO_BLK_XFER_COMPLETE`. -/
  | xferComplete
  /-- `VIRTIO_BLK_XFER_FAILED`. -/
  | xferFailed
  deriving DecidableEq, Repr

/-- The memory a request works on. -/
structure Memory where
  /-- The disk behind the server. -/
  disk : Disk
  /-- The dataport, `sataserver_iface_buf`. -/
  ifaceBuf : Dataport
  /-- The buffer of the guest, `guest_buf_phys`. -/
  guestBuf : Dataport

/-- The results of `virtio_blk_emul_transfer`. -/
structure Transfer where
  /-- The return value. -/
  status : XferStatus
  /-- The memory afterwards. -/
  memory : Memory
  /-- What the server handed to its driver. -/
  call : Option DriverCall

/-- `memcpy`. -/
def memcpy (dst src : Dataport) (len : ℕ) : Dataport := fun k ↦ if k < len then src k else dst k

theorem memcpy_of_lt {dst src : Dataport} {len k : ℕ} (h : k < len) :
    memcpy dst src len k = src k := if_pos h

/-- A `status` of 0 is a failure. -/
def xferStatus (status : BitVec 32) : XferStatus :=
  if status ≠ 0 then .xferComplete else .xferFailed

/-- `virtio_blk_emul_transfer`, for the client with badge `id`.  The sector number is cut down to
the `unsigned int` of the remote call. -/
def virtioBlkEmulTransfer (P : Platform) (D : SataDriver) (server : Server) (id : BitVec 32)
    (m : Memory) (direction : Direction) (sector : BitVec 64) (len : BitVec 32) :
    Option Transfer :=
  match direction with
  | .tIn =>
    (clientRx P D server id m.disk m.ifaceBuf (sector.setWidth 32) len).map fun rx ↦
      { status := xferStatus rx.ret
        memory := { m with
          ifaceBuf := rx.dataport
          guestBuf := memcpy m.guestBuf rx.dataport len.toNat }
        call := rx.call }
  | .tOut =>
    let ifaceBuf := memcpy m.ifaceBuf m.guestBuf len.toNat
    (clientTx P D server id m.disk ifaceBuf (sector.setWidth 32) len).map fun tx ↦
      { status := xferStatus tx.ret
        memory := { m with disk := tx.disk, ifaceBuf := ifaceBuf }
        call := tx.call }
  | .tScsiCmd | .tFlush | .tGetId | .invalid => some ⟨.xferFailed, m, none⟩

/-! ## What a request should do -/

/-- The virtual sector of a byte of a request. -/
def place (sector : BitVec 64) (k : ℕ) : ℕ := sector.toNat + k / sataBlkSize

/-- What the client's disk has for a byte of a request. -/
def virtualByte (P : Platform) (client : Client) (disk : Disk) (sector : BitVec 64) (k : ℕ) :
    BitVec 8 :=
  virtualBlock P client disk (BitVec.ofNat 32 (place sector k)) (k % sataBlkSize)

/-- A request does what its sector number says, as far as its first `n` bytes are concerned: it is
completed only for a sector of the disk, and then it has moved the bytes of the disk from this
sector on; and for any other sector it fails and does not get to the disk. -/
structure Addressed (P : Platform) (client : Client) (m : Memory) (direction : Direction)
    (sector : BitVec 64) (n : ℕ) (t : Transfer) : Prop where
  /-- The sector is on the disk. -/
  belongs : (direction = .tIn ∨ direction = .tOut) → t.status = .xferComplete →
    sector.toNat < client.capacity.toNat
  /-- The guest has read what the disk has there. -/
  read : direction = .tIn → t.status = .xferComplete → ∀ k < n,
    place sector k < client.capacity.toNat →
      t.memory.guestBuf k = virtualByte P client m.disk sector k
  /-- The disk has there what the guest has written. -/
  written : direction = .tOut → t.status = .xferComplete → ∀ k < n,
    place sector k < client.capacity.toNat →
      virtualByte P client t.memory.disk sector k = m.guestBuf k
  /-- A sector behind the disk is refused. -/
  refused : client.capacity.toNat ≤ sector.toNat → t.status = .xferFailed ∧ t.call = none

/-- A read leaves the buffer behind the sectors alone. -/
def LeavesRest (D : SataDriver) : Prop :=
  ∀ disk first count buf k, count * sataBlkSize ≤ k →
    (D.sataReadSectors disk first count buf).2 k = buf k

/-- The server knows no sector with what is left of the number. -/
def Unknown (P : Platform) (client : Client) (sector : BitVec 64) : Prop :=
  virtStartSector ≤ (sector.setWidth 32).toNat ∧
    calulateSectorOffset P client (sector.setWidth 32) = none

/-- A byte that a read leaves in the guest's buffer is the one the guest asked for.

* Behind the partition table the dataport held it already.
* A read that starts below `virtStartSector` finds zeros on the disk.
* One that starts on the disk is refused, fails in the driver, or has the byte in step; except where
  the drive has the same byte in the place the driver gets to, or, behind the last whole sector, the
  dataport held it already. -/
def ReadsByte (P : Platform) (D : SataDriver) (client : Client) (m : Memory) (sector : BitVec 64)
    (len : BitVec 32) (k : ℕ) : Prop :=
  if sector = 0 then
    sataBlkSize ≤ k → m.ifaceBuf k = virtualByte P client m.disk sector k
  else if sector.toNat < virtStartSector then
    virtStartSector ≤ place sector k → virtualByte P client m.disk sector k = 0
  else
    ∀ first, sectorAt P client (sector.setWidth 32) = some first →
      (D.sataReadSectors m.disk first (len.toNat / sataBlkSize) m.ifaceBuf).1 = false →
      ¬InStep P client (sector.setWidth 32) len first k →
        if k / sataBlkSize < len.toNat / sataBlkSize then
          m.disk (first.toNat + k / sataBlkSize) (k % sataBlkSize) =
            virtualByte P client m.disk sector k
        else m.ifaceBuf k = virtualByte P client m.disk sector k

/-- A byte that the guest wrote is on the disk.

* Below `virtStartSector` it was there before.
* A write that starts on the disk is refused, fails in the driver, or has the byte in step; except
  where another byte of the request that ends up in its place is the same, or the drive has it there
  already.  A sector that the layout lacks shows zeros. -/
def WritesByte (P : Platform) (D : SataDriver) (client : Client) (m : Memory) (sector : BitVec 64)
    (len : BitVec 32) (k : ℕ) : Prop :=
  if sector.toNat < virtStartSector then virtualByte P client m.disk sector k = m.guestBuf k
  else
    ∀ first, sectorAt P client (sector.setWidth 32) = some first →
      (D.sataWriteSectors m.disk first (len.toNat / sataBlkSize)
        (memcpy m.ifaceBuf m.guestBuf len.toNat)).1 = false →
      ¬InStep P client (sector.setWidth 32) len first k →
        match physSector P client (place sector k) with
        | none => m.guestBuf k = 0
        | some x =>
          if x ∈ Extent.mk first.toNat (len.toNat / sataBlkSize) then
            m.guestBuf ((x - first.toNat) * sataBlkSize + k % sataBlkSize) = m.guestBuf k
          else m.disk x (k % sataBlkSize) = m.guestBuf k

/-- Where a request does what its sector number says. -/
def AddressesRight (P : Platform) (D : SataDriver) (client : Client) (m : Memory)
    (direction : Direction) (sector : BitVec 64) (len : BitVec 32) (n : ℕ) : Prop :=
  match direction with
  | .tIn =>
    if client.capacity.toNat ≤ sector.toNat then Unknown P client sector
    else ∀ k < n, place sector k < client.capacity.toNat → ReadsByte P D client m sector len k
  | .tOut =>
    if client.capacity.toNat ≤ sector.toNat then Unknown P client sector
    else ∀ k < n, place sector k < client.capacity.toNat → WritesByte P D client m sector len k
  | .tScsiCmd | .tFlush | .tGetId | .invalid => True

/-! ## Sector numbers -/

section

variable {P : Platform} {D : SataDriver} {cfg : Config} {client : Client} {m : Memory}
  {sector : BitVec 64} {len : BitVec 32} {n k : ℕ}

/-- A number of 32 bits gets across. -/
theorem toNat_setWidth_of_lt (h : sector.toNat < 2 ^ 32) :
    (sector.setWidth 32).toNat = sector.toNat := by
  rw [BitVec.toNat_setWidth, Nat.mod_eq_of_lt h]

/-- The capacity of a client is a sum of 32 bits. -/
theorem capacity_lt (h : Accepted P cfg) (hc : client ∈ (postInit P cfg).clients) :
    client.capacity.toNat < 2 ^ 32 := by
  obtain ⟨badge, -, rfl⟩ := h.exists_badge hc
  rw [layoutClient, BitVec.toNat_setWidth]
  exact Nat.lt_of_le_of_lt (Nat.mod_le _ _) (BitVec.isLt _)

theorem ofNat_place_of_lt (hplace : place sector k < 2 ^ 32) :
    (BitVec.ofNat 32 (place sector k)).toNat = place sector k := by
  rw [BitVec.toNat_ofNat, Nat.mod_eq_of_lt hplace]

theorem physSector_eq_some_iff {sector x : ℕ} : physSector P client sector = some x ↔
    sector < 2 ^ 32 ∧ ∃ y, sectorAt P client (BitVec.ofNat 32 sector) = some y ∧ y.toNat = x := by
  rw [physSector]
  split
  · rename_i hlt
    rw [Option.map_eq_some_iff, and_iff_right hlt]
  · rename_i hge
    exact iff_of_false (by simp) fun h ↦ hge h.1

/-- The block at a sector of the drive. -/
theorem virtualBlock_of_physSector {sector x : ℕ} (hhigh : virtStartSector ≤ sector)
    (hx : physSector P client sector = some x) (disk : Disk) :
    virtualBlock P client disk (BitVec.ofNat 32 sector) = disk x := by
  obtain ⟨hlt, y, hy, rfl⟩ := physSector_eq_some_iff.1 hx
  exact virtualBlock_high (by rwa [BitVec.toNat_ofNat, Nat.mod_eq_of_lt hlt]) hy

/-- The disk has a byte that is in step where the driver has been. -/
theorem virtualByte_of_inStep (hhigh : virtStartSector ≤ sector.toNat)
    (hplace : place sector k < 2 ^ 32) {first : BitVec 32}
    (hstep : InStep P client (sector.setWidth 32) len first k) (disk : Disk) :
    virtualByte P client disk sector k =
      disk (first.toNat + k / sataBlkSize) (k % sataBlkSize) := by
  have hle : sector.toNat ≤ place sector k := Nat.le_add_right _ _
  have hbyte : byteSector (sector.setWidth 32) k = place sector k := by
    rw [byteSector, place, toNat_setWidth_of_lt (Nat.lt_of_le_of_lt hle hplace)]
  have hphys := hstep.2
  rw [hbyte] at hphys
  rw [virtualByte, virtualBlock_of_physSector (Nat.le_trans hhigh hle) hphys]

/-- A sector of the disk that the layout lacks. -/
theorem virtualByte_of_absent (hhigh : virtStartSector ≤ sector.toNat)
    (hplace : place sector k < 2 ^ 32) (hnone : physSector P client (place sector k) = none)
    (disk : Disk) : virtualByte P client disk sector k = 0 := by
  have hhigh' : virtStartSector ≤ place sector k := Nat.le_trans hhigh (Nat.le_add_right _ _)
  have hnat := ofNat_place_of_lt hplace
  rw [physSector, if_pos hplace, Option.map_eq_none_iff] at hnone
  have hzero : BitVec.ofNat 32 (place sector k) ≠ 0 := by
    intro h0
    rw [h0] at hnat
    rw [← hnat] at hhigh'
    exact absurd hhigh' (by decide)
  rw [virtualByte, virtualBlock, if_neg hzero, if_neg (by rw [hnat]; exact Nat.not_lt.2 hhigh'),
    hnone]

/-! ## Behind the disk -/

theorem xferStatus_eq_failed_iff {status : BitVec 32} :
    xferStatus status = .xferFailed ↔ status = 0 := by
  rw [xferStatus]
  split <;> simp_all

theorem xferStatus_eq_complete_iff {status : BitVec 32} :
    xferStatus status = .xferComplete ↔ status ≠ 0 := by
  rw [xferStatus]
  split <;> simp_all

/-- The server refuses a read, and leaves the disk alone, if it does not know the sector. -/
theorem rxClient_refused_iff (disk : Disk) (dataport : Dataport) (hlen : len ≠ 0)
    (first : BitVec 32) :
    ((rxClient P D client disk dataport first len).ret = 0 ∧
        (rxClient P D client disk dataport first len).call = none) ↔
      virtStartSector ≤ first.toNat ∧ calulateSectorOffset P client first = none := by
  rw [rxClient_call, servedCall]
  rcases Nat.lt_or_ge first.toNat virtStartSector with hlow | hhigh
  · have hret : (rxClient P D client disk dataport first len).ret = len := by
      by_cases hzero : first = 0
      · rw [hzero, rxClient_table]
      · rw [rxClient_low hzero hlow]
    rw [hret]
    exact iff_of_false (fun h ↦ hlen h.1) fun h ↦ Nat.not_lt.2 h.1 hlow
  · rw [if_neg (Nat.not_lt.2 hhigh), Option.map_eq_none_iff]
    constructor
    · exact fun h ↦ ⟨hhigh, h.2⟩
    · exact fun h ↦ ⟨rxClient_absent hhigh (sectorAt_eq_none_iff.2 h.2), h.2⟩

/-- The same for a write. -/
theorem txClient_refused_iff (disk : Disk) (dataport : Dataport) (hlen : len ≠ 0)
    (first : BitVec 32) :
    ((txClient P D client disk dataport first len).ret = 0 ∧
        (txClient P D client disk dataport first len).call = none) ↔
      virtStartSector ≤ first.toNat ∧ calulateSectorOffset P client first = none := by
  rw [txClient_call, servedCall]
  rcases Nat.lt_or_ge first.toNat virtStartSector with hlow | hhigh
  · rw [txClient_low hlow]
    exact iff_of_false (fun h ↦ hlen h.1) fun h ↦ Nat.not_lt.2 h.1 hlow
  · rw [if_neg (Nat.not_lt.2 hhigh), Option.map_eq_none_iff]
    constructor
    · exact fun h ↦ ⟨hhigh, h.2⟩
    · intro h
      rw [txClient_absent hhigh (sectorAt_eq_none_iff.2 h.2)]
      exact ⟨rfl, h.2⟩

/-! ## On the disk -/

/-- A read from sector 0: the partition table, and behind it what the dataport held. -/
theorem read_byte_table (hlen : len ≠ 0) :
    ((rxClient P D client m.disk m.ifaceBuf 0 len).ret ≠ 0 →
        (rxClient P D client m.disk m.ifaceBuf 0 len).dataport k =
          virtualByte P client m.disk 0 k) ↔
      (sataBlkSize ≤ k → m.ifaceBuf k = virtualByte P client m.disk 0 k) := by
  rw [rxClient_table]
  simp only [ne_eq, hlen, not_false_eq_true, forall_const]
  rcases Nat.lt_or_ge k sataBlkSize with hfirst | hbehind
  · have hplace : place 0 k = 0 := by
      rw [place, Nat.div_eq_of_lt hfirst]
      rfl
    rw [if_pos hfirst, virtualByte, hplace, virtualBlock,
      if_pos (show (0#32 : BitVec 32) = 0 from rfl), Nat.mod_eq_of_lt hfirst]
    exact iff_of_true rfl fun h ↦ absurd hfirst (Nat.not_lt.2 h)
  · rw [if_neg (Nat.not_lt.2 hbehind)]
    simp only [hbehind, forall_const]

/-- A read that starts below `virtStartSector`: zeros. -/
theorem read_byte_low (hzero : sector ≠ 0) (hlow : sector.toNat < virtStartSector)
    (hplace : place sector k < 2 ^ 32) (hk : k < len.toNat) (hlen : len ≠ 0) :
    ((rxClient P D client m.disk m.ifaceBuf (sector.setWidth 32) len).ret ≠ 0 →
        (rxClient P D client m.disk m.ifaceBuf (sector.setWidth 32) len).dataport k =
          virtualByte P client m.disk sector k) ↔
      (virtStartSector ≤ place sector k → virtualByte P client m.disk sector k = 0) := by
  have hnat : (sector.setWidth 32).toNat = sector.toNat :=
    toNat_setWidth_of_lt (Nat.lt_trans hlow (by decide))
  have hpos : 0 < sector.toNat := Nat.pos_of_ne_zero fun h ↦ hzero (BitVec.eq_of_toNat_eq h)
  have hzero' : sector.setWidth 32 ≠ 0 := by
    intro h
    rw [h] at hnat
    exact absurd hnat.symm (Nat.ne_of_gt hpos)
  rw [rxClient_low hzero' (hnat.symm ▸ hlow)]
  simp only [ne_eq, hlen, not_false_eq_true, forall_const, hk, if_true]
  rcases Nat.lt_or_ge (place sector k) virtStartSector with hlow' | hhigh'
  · have hne : BitVec.ofNat 32 (place sector k) ≠ 0 := by
      intro h
      have h0 := ofNat_place_of_lt hplace
      rw [h] at h0
      exact absurd h0.symm (Nat.ne_of_gt (Nat.lt_of_lt_of_le hpos (Nat.le_add_right _ _)))
    have hblock : virtualByte P client m.disk sector k = 0 := by
      rw [virtualByte, virtualBlock, if_neg hne, if_pos (by rwa [ofNat_place_of_lt hplace])]
    exact iff_of_true hblock.symm fun _ ↦ hblock
  · simp only [hhigh', forall_const]
    exact eq_comm

/-- The bytes a read leaves in the buffer. -/
theorem sataReadSectors_apply (hrest : LeavesRest D) {disk : Disk} {first : BitVec 32} {count : ℕ}
    {buf : Dataport} (hok : (D.sataReadSectors disk first count buf).1 = false) (k : ℕ) :
    (D.sataReadSectors disk first count buf).2 k =
      if k / sataBlkSize < count then disk (first.toNat + k / sataBlkSize) (k % sataBlkSize)
      else buf k := by
  split
  · rename_i hlt
    have hdata := D.read_data disk first count buf hok _ hlt _ (Nat.mod_lt k (by decide))
    rwa [Nat.div_add_mod'] at hdata
  · rename_i hge
    exact hrest disk first count buf k ((Nat.le_div_iff_mul_le (by decide)).1 (Nat.not_lt.1 hge))

/-- **A byte in step** is read as the client's disk has it. -/
theorem dataport_of_inStep (hsector : sector.toNat < 2 ^ 32)
    (hhigh : virtStartSector ≤ sector.toNat) (hplace : place sector k < 2 ^ 32)
    {first : BitVec 32} (hfirst : sectorAt P client (sector.setWidth 32) = some first)
    (hstep : InStep P client (sector.setWidth 32) len first k) (disk : Disk) (ifaceBuf : Dataport)
    (hret : (rxClient P D client disk ifaceBuf (sector.setWidth 32) len).ret ≠ 0) :
    (rxClient P D client disk ifaceBuf (sector.setWidth 32) len).dataport k =
      virtualByte P client disk sector k := by
  have hhigh' : virtStartSector ≤ (sector.setWidth 32).toNat := by
    rwa [toNat_setWidth_of_lt hsector]
  rw [rxClient_high hhigh' hfirst] at hret ⊢
  cases herr : (D.sataReadSectors disk first (len.toNat / sataBlkSize) ifaceBuf).1 with
  | true =>
    rw [herr] at hret
    exact absurd rfl hret
  | false =>
    have hdata := D.read_data disk first _ ifaceBuf herr (k / sataBlkSize) hstep.1
      (k % sataBlkSize) (Nat.mod_lt _ (by decide))
    rw [Nat.div_add_mod'] at hdata
    rw [virtualByte_of_inStep hhigh hplace hstep]
    exact hdata

/-- A read that starts on the disk. -/
theorem read_byte_high (hrest : LeavesRest D) (hsector : sector.toNat < 2 ^ 32)
    (hhigh : virtStartSector ≤ sector.toNat) (hplace : place sector k < 2 ^ 32) (hlen : len ≠ 0) :
    ((rxClient P D client m.disk m.ifaceBuf (sector.setWidth 32) len).ret ≠ 0 →
        (rxClient P D client m.disk m.ifaceBuf (sector.setWidth 32) len).dataport k =
          virtualByte P client m.disk sector k) ↔
      ∀ first, sectorAt P client (sector.setWidth 32) = some first →
        (D.sataReadSectors m.disk first (len.toNat / sataBlkSize) m.ifaceBuf).1 = false →
        ¬InStep P client (sector.setWidth 32) len first k →
          if k / sataBlkSize < len.toNat / sataBlkSize then
            m.disk (first.toNat + k / sataBlkSize) (k % sataBlkSize) =
              virtualByte P client m.disk sector k
          else m.ifaceBuf k = virtualByte P client m.disk sector k := by
  have hhigh' : virtStartSector ≤ (sector.setWidth 32).toNat := by
    rwa [toNat_setWidth_of_lt hsector]
  cases hfirst : sectorAt P client (sector.setWidth 32) with
  | none => simp [rxClient_absent hhigh' hfirst]
  | some first =>
    have hin := fun hstep : InStep P client (sector.setWidth 32) len first k ↦
      dataport_of_inStep (D := D) hsector hhigh hplace hfirst hstep m.disk m.ifaceBuf
    rw [rxClient_high hhigh' hfirst] at hin ⊢
    simp only [Option.some.injEq, forall_eq']
    cases herr : (D.sataReadSectors m.disk first (len.toNat / sataBlkSize) m.ifaceBuf).1 with
    | true => simp
    | false =>
      have hcell := sataReadSectors_apply hrest herr k
      have hsplit : ∀ (c : Prop) [Decidable c] (a b v : BitVec 8),
          ((if c then a else b) = v ↔ if c then a = v else b = v) := by
        intro c _ a b v
        split <;> rfl
      simp only [herr, Bool.false_eq_true, if_false, ne_eq, hlen, not_false_eq_true,
        forall_const] at hin ⊢
      rw [← hsplit, ← hcell]
      refine ⟨fun h _ ↦ h, fun h ↦ ?_⟩
      by_cases hstep : InStep P client (sector.setWidth 32) len first k
      · exact hin hstep
      · exact h hstep

/-- **A read moves the byte the guest asked for** where `ReadsByte` says so. -/
theorem read_byte_iff (hrest : LeavesRest D) (hsector : sector.toNat < 2 ^ 32)
    (hplace : place sector k < 2 ^ 32) (hk : k < len.toNat) (hlen : len ≠ 0) :
    ((rxClient P D client m.disk m.ifaceBuf (sector.setWidth 32) len).ret ≠ 0 →
        (rxClient P D client m.disk m.ifaceBuf (sector.setWidth 32) len).dataport k =
          virtualByte P client m.disk sector k) ↔
      ReadsByte P D client m sector len k := by
  rw [ReadsByte]
  split
  · rename_i hzero
    subst hzero
    exact read_byte_table hlen
  · rename_i hzero
    split
    · rename_i hlow
      exact read_byte_low hzero hlow hplace hk hlen
    · rename_i hlow
      exact read_byte_high hrest hsector (Nat.not_lt.1 hlow) hplace hlen

/-- What a write that did not fail has done to the place of a byte. -/
theorem virtualByte_sataWriteSectors_iff (hhigh : virtStartSector ≤ sector.toNat)
    (hplace : place sector k < 2 ^ 32) {first : BitVec 32}
    (hok : (D.sataWriteSectors m.disk first (len.toNat / sataBlkSize)
      (memcpy m.ifaceBuf m.guestBuf len.toNat)).1 = false) :
    virtualByte P client (D.sataWriteSectors m.disk first (len.toNat / sataBlkSize)
        (memcpy m.ifaceBuf m.guestBuf len.toNat)).2 sector k = m.guestBuf k ↔
      match physSector P client (place sector k) with
      | none => m.guestBuf k = 0
      | some x =>
        if x ∈ Extent.mk first.toNat (len.toNat / sataBlkSize) then
          m.guestBuf ((x - first.toNat) * sataBlkSize + k % sataBlkSize) = m.guestBuf k
        else m.disk x (k % sataBlkSize) = m.guestBuf k := by
  have hmod : k % sataBlkSize < sataBlkSize := Nat.mod_lt _ (by decide)
  cases hphys : physSector P client (place sector k) with
  | none =>
    rw [virtualByte_of_absent hhigh hplace hphys]
    exact eq_comm
  | some x =>
    have hhigh' : virtStartSector ≤ place sector k := Nat.le_trans hhigh (Nat.le_add_right _ _)
    rw [virtualByte, virtualBlock_of_physSector hhigh' hphys,
      sataWriteSectors_apply hok x hmod]
    dsimp only
    split
    · rename_i hmem
      have hlt : (x - first.toNat) * sataBlkSize + k % sataBlkSize < len.toNat := by
        obtain ⟨hlo, hhi⟩ := Extent.mem_mk.1 hmem
        simp only [sataBlkSize] at *
        omega
      rw [memcpy_of_lt hlt]
    · rfl

/-- **A write stores the byte** where `WritesByte` says so. -/
theorem write_byte_iff (hsector : sector.toNat < 2 ^ 32) (hplace : place sector k < 2 ^ 32)
    (hk : k < len.toNat) (hlen : len ≠ 0) :
    ((txClient P D client m.disk (memcpy m.ifaceBuf m.guestBuf len.toNat) (sector.setWidth 32)
          len).ret ≠ 0 →
        virtualByte P client (txClient P D client m.disk
          (memcpy m.ifaceBuf m.guestBuf len.toNat) (sector.setWidth 32) len).disk sector k =
            m.guestBuf k) ↔
      WritesByte P D client m sector len k := by
  have hnat := toNat_setWidth_of_lt hsector
  rw [WritesByte]
  split
  · rename_i hlow
    rw [txClient_low (hnat.symm ▸ hlow)]
    simp only [ne_eq, hlen, not_false_eq_true, forall_const]
  · rename_i hlow
    have hhigh := Nat.not_lt.1 hlow
    have hhigh' : virtStartSector ≤ (sector.setWidth 32).toNat := hnat.symm ▸ hhigh
    cases hfirst : sectorAt P client (sector.setWidth 32) with
    | none => simp [txClient_absent hhigh' hfirst]
    | some first =>
      rw [txClient_high hhigh' hfirst]
      simp only [Option.some.injEq, forall_eq']
      cases herr : (D.sataWriteSectors m.disk first (len.toNat / sataBlkSize)
          (memcpy m.ifaceBuf m.guestBuf len.toNat)).1 with
      | true => simp
      | false =>
        simp only [Bool.false_eq_true, if_false, ne_eq, hlen, not_false_eq_true, forall_const]
        rw [← virtualByte_sataWriteSectors_iff hhigh hplace herr]
        refine ⟨fun h _ ↦ h, fun h ↦ ?_⟩
        by_cases hstep : InStep P client (sector.setWidth 32) len first k
        · rw [virtualByte_of_inStep hhigh hplace hstep]
          have hdata := D.write_data m.disk first _ _ herr (k / sataBlkSize) hstep.1
            (k % sataBlkSize) (Nat.mod_lt _ (by decide))
          rw [hdata, Nat.div_add_mod', memcpy_of_lt hk]
        · exact h hstep

/-! ## Requests -/

variable {direction : Direction} {t : Transfer}

/-- Behind the disk a request has to be refused, and that is all. -/
theorem addressed_iff_refused (hbehind : client.capacity.toNat ≤ sector.toNat) :
    Addressed P client m direction sector n t ↔ t.status = .xferFailed ∧ t.call = none := by
  refine ⟨fun h ↦ h.refused hbehind, fun hrefused ↦ ?_⟩
  have hnot : t.status ≠ .xferComplete := by
    rw [hrefused.1]
    exact nofun
  exact ⟨fun _ h ↦ absurd h hnot, fun _ h ↦ absurd h hnot, fun _ h ↦ absurd h hnot,
    fun _ ↦ hrefused⟩

/-- On the disk a read has to move the right bytes. -/
theorem addressed_tIn_iff (hon : sector.toNat < client.capacity.toNat) :
    Addressed P client m .tIn sector n t ↔ ∀ k < n, place sector k < client.capacity.toNat →
      t.status = .xferComplete → t.memory.guestBuf k = virtualByte P client m.disk sector k := by
  refine ⟨fun h k hk hplace hdone ↦ h.read rfl hdone k hk hplace, fun h ↦ ?_⟩
  exact ⟨fun _ _ ↦ hon, fun _ hdone k hk hplace ↦ h k hk hplace hdone, nofun,
    fun hbehind ↦ absurd hon (Nat.not_lt.2 hbehind)⟩

/-- On the disk a write has to store the right bytes. -/
theorem addressed_tOut_iff (hon : sector.toNat < client.capacity.toNat) :
    Addressed P client m .tOut sector n t ↔ ∀ k < n, place sector k < client.capacity.toNat →
      t.status = .xferComplete → virtualByte P client t.memory.disk sector k = m.guestBuf k := by
  refine ⟨fun h k hk hplace hdone ↦ h.written rfl hdone k hk hplace, fun h ↦ ?_⟩
  exact ⟨fun _ _ ↦ hon, nofun, fun _ hdone k hk hplace ↦ h k hk hplace hdone,
    fun hbehind ↦ absurd hon (Nat.not_lt.2 hbehind)⟩

/-- **A request does what its sector number says** in exactly these cases, whatever the
configuration, the driver, the data, and the part of the request that is looked at. -/
theorem addressed_iff (h : Accepted P cfg) (hc : client ∈ (postInit P cfg).clients) (D : SataDriver)
    (hrest : LeavesRest D) (m : Memory) (direction : Direction) (sector : BitVec 64)
    (hpos : 1 ≤ len.toNat)
    (hlen : len.toNat ≤ bufSize) (hn : n ≤ len.toNat) :
    (∃ t, virtioBlkEmulTransfer P D (postInit P cfg) client.clientId m direction sector len =
        some t ∧ Addressed P client m direction sector n t) ↔
      AddressesRight P D client m direction sector len n := by
  have hcap := capacity_lt h hc
  have hne : len ≠ 0 := by
    rintro rfl
    exact absurd hpos (by decide)
  cases direction with
  | tIn =>
    rw [virtioBlkEmulTransfer, h.clientRx_eq D hc m.disk m.ifaceBuf hlen, AddressesRight]
    simp only [Option.map_some, Option.some.injEq, exists_eq_left']
    split
    · rename_i hbehind
      rw [addressed_iff_refused hbehind, xferStatus_eq_failed_iff]
      exact rxClient_refused_iff m.disk m.ifaceBuf hne _
    · rename_i hon
      have hon := Nat.not_le.1 hon
      rw [addressed_tIn_iff hon]
      refine forall₂_congr fun k hk ↦ forall_congr' fun hplace ↦ ?_
      have hk' := Nat.lt_of_lt_of_le hk hn
      rw [xferStatus_eq_complete_iff]
      simp only [memcpy_of_lt hk']
      exact read_byte_iff hrest (Nat.lt_trans hon hcap) (Nat.lt_trans hplace hcap) hk' hne
  | tOut =>
    rw [virtioBlkEmulTransfer, h.clientTx_eq D hc m.disk _ hlen, AddressesRight]
    simp only [Option.map_some, Option.some.injEq, exists_eq_left']
    split
    · rename_i hbehind
      rw [addressed_iff_refused hbehind, xferStatus_eq_failed_iff]
      exact txClient_refused_iff m.disk _ hne _
    · rename_i hon
      have hon := Nat.not_le.1 hon
      rw [addressed_tOut_iff hon]
      refine forall₂_congr fun k hk ↦ forall_congr' fun hplace ↦ ?_
      rw [xferStatus_eq_complete_iff]
      exact write_byte_iff (Nat.lt_trans hon hcap) (Nat.lt_trans hplace hcap)
        (Nat.lt_of_lt_of_le hk hn) hne
  | tScsiCmd | tFlush | tGetId | invalid =>
    refine iff_of_true ⟨_, rfl, ?_⟩ trivial
    exact ⟨by simp, nofun, nofun, fun _ ↦ ⟨rfl, rfl⟩⟩

end

/-! ## A number that loses its upper half -/

theorem leavesRest_faultless : LeavesRest .faultless := by
  intro disk first count buf k hk
  exact if_neg (Nat.not_lt.2 hk)

/-- A disk of sevens, and buffers of zeros. -/
def sevens : Memory := ⟨fun _ _ ↦ 7, fun _ ↦ 0, fun _ ↦ 0⟩

/-- The theorem at a read of the first sector of a disk. -/
theorem addressed_iff_first_sector :
    (∃ t, virtioBlkEmulTransfer twoPartitions .faultless (postInit twoPartitions oneEach)
        firstClient.clientId sevens .tIn 64 512 = some t ∧
          Addressed twoPartitions firstClient sevens .tIn 64 512 t) ↔
      AddressesRight twoPartitions .faultless firstClient sevens .tIn 64 512 512 :=
  addressed_iff oneEach_accepted firstClient_mem .faultless leavesRest_faultless sevens .tIn 64
    (by decide) (by decide) (by decide)

/-- **Sector `2 ^ 32 + 64` of a disk of 72 sectors** is read with success. -/
theorem not_addressed_behind_disk :
    ¬ ∀ (P : Platform) (cfg : Config), Accepted P cfg → ∀ client ∈ (postInit P cfg).clients,
        ∀ (D : SataDriver) (m : Memory) (direction : Direction) (sector : BitVec 64)
          (len : BitVec 32) (n : ℕ), 1 ≤ len.toNat → len.toNat ≤ bufSize → n ≤ len.toNat →
        ∃ t, virtioBlkEmulTransfer P D (postInit P cfg) client.clientId m direction sector len =
          some t ∧ Addressed P client m direction sector n t := by
  intro h
  obtain ⟨t, ht, haddressed⟩ := h twoPartitions oneEach oneEach_accepted firstClient
    firstClient_mem .faultless sevens .tIn (2 ^ 32 + 64) 512 512 (by decide) (by decide) (by decide)
  rw [virtioBlkEmulTransfer, oneEach_accepted.clientRx_eq .faultless firstClient_mem _ _
    (by decide), Option.map_some, Option.some.injEq] at ht
  have hrefused := (haddressed.refused (by decide)).1
  rw [← ht] at hrefused
  exact absurd hrefused (by decide)

end VirtioBlk
end CamkesVm
