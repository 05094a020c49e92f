import CamkesVm.Sataserver.Accept

/-!
# What a successful write has written

`txClient` answers with the length it was asked for, unless the driver fails or the first sector is
in no partition.  What has been written is another matter: nothing at all below `virtStartSector`,
and else as many whole sectors as the length has, behind the first one on the disk.  `txStores_iff`
says for which bytes of a request this comes to the same: those of whole sectors that the layout
assigns in step with the disk.

## What is here

* `physSector`, `byteSector`, `Stored` — where a byte of a request belongs, and that it is there.
* `TxStores` — a success means that the data is on the disk.
* `InStep`, `WritesThrough` — the condition, on the state before the call: the bytes that the driver
  puts where they belong, and nothing to write besides.
* `txStores_iff`, `not_txStores_part_of_sector` — the exact statement, and a write of 100 bytes.

A byte that the disk holds already is stored without being written, and the condition allows for it.
-/

set_option autoImplicit false

namespace CamkesVm
namespace Sataserver

/-- The physical sector for a virtual one, whose number may be beyond 32 bits. -/
def physSector (P : Platform) (client : Client) (sector : ℕ) : Option ℕ :=
  if sector < 2 ^ 32 then (sectorAt P client (BitVec.ofNat 32 sector)).map BitVec.toNat else none

/-- The virtual sector of a byte of a request. -/
def byteSector (sector : BitVec 32) (k : ℕ) : ℕ := sector.toNat + k / sataBlkSize

/-- The bytes of the request are on the disk: each of those from `virtStartSector` on has a
partition, and is where the layout puts it. -/
def Stored (P : Platform) (client : Client) (disk : Disk) (dataport : Dataport)
    (sector len : BitVec 32) : Prop :=
  ∀ k < len.toNat, virtStartSector ≤ byteSector sector k →
    ∃ x, physSector P client (byteSector sector k) = some x ∧
      disk x (k % sataBlkSize) = dataport k

/-- A write that is reported as successful is stored. -/
def TxStores (P : Platform) (D : SataDriver) (server : Server) (client : Client) (disk : Disk)
    (dataport : Dataport) (sector len : BitVec 32) : Prop :=
  ∀ tx, clientTx P D server client.clientId disk dataport sector len = some tx → tx.ret ≠ 0 →
    Stored P client tx.disk dataport sector len

/-- A byte of a request that goes to the sectors from `first` on and is in a whole sector which the
layout assigns in step with these. -/
def InStep (P : Platform) (client : Client) (sector len first : BitVec 32) (k : ℕ) : Prop :=
  k / sataBlkSize < len.toNat / sataBlkSize ∧
    physSector P client (byteSector sector k) = some (first.toNat + k / sataBlkSize)

/-- Where a write stores what it is given: a request that starts below `virtStartSector` ends there
too, or finds its data on the disk already; one that starts on the disk is refused, fails in the
driver, or has every byte in step, except where the bytes that end up in a byte's place happen to be
the same. -/
def WritesThrough (P : Platform) (D : SataDriver) (client : Client) (disk : Disk)
    (dataport : Dataport) (sector len : BitVec 32) : Prop :=
  if sector.toNat < virtStartSector then
    ∀ k < len.toNat, virtStartSector ≤ byteSector sector k →
      ∃ x, physSector P client (byteSector sector k) = some x ∧
        disk x (k % sataBlkSize) = dataport k
  else
    ∀ first, sectorAt P client sector = some first →
      (D.sataWriteSectors disk first (len.toNat / sataBlkSize) dataport).1 = false →
      ∀ k < len.toNat, ¬InStep P client sector len first k →
        ∃ x, physSector P client (byteSector sector k) = some x ∧
          (if x ∈ Extent.mk first.toNat (len.toNat / sataBlkSize) then
            dataport ((x - first.toNat) * sataBlkSize + k % sataBlkSize) = dataport k
          else disk x (k % sataBlkSize) = dataport k)

section

variable {P : Platform} {D : SataDriver} {client : Client} {disk : Disk} {dataport : Dataport}
  {sector len : BitVec 32}

/-! ## What a write does in each region -/

/-- Below `virtStartSector` nothing is written. -/
theorem txClient_low (hlow : sector.toNat < virtStartSector) :
    txClient P D client disk dataport sector len = ⟨len, disk, none⟩ := by
  rw [txClient, if_neg (Nat.not_le.2 hlow)]

/-- A sector that no partition has is refused. -/
theorem txClient_absent (hhigh : virtStartSector ≤ sector.toNat)
    (hnone : sectorAt P client sector = none) :
    txClient P D client disk dataport sector len = ⟨0, disk, none⟩ := by
  rw [txClient, if_pos hhigh, sectorAt_eq_none_iff.1 hnone]

/-- Else the whole sectors go to the disk. -/
theorem txClient_high (hhigh : virtStartSector ≤ sector.toNat) {first : BitVec 32}
    (hfirst : sectorAt P client sector = some first) :
    txClient P D client disk dataport sector len =
      ⟨if (D.sataWriteSectors disk first (len.toNat / sataBlkSize) dataport).1 then 0 else len,
        (D.sataWriteSectors disk first (len.toNat / sataBlkSize) dataport).2,
        some ⟨first, len.toNat / sataBlkSize⟩⟩ := by
  obtain ⟨offset, hoffset, rfl⟩ := exists_offset_of_sectorAt hfirst
  rw [txClient, if_pos hhigh, hoffset]

/-! ## The disk after a write -/

/-- A byte of the disk after a write that did not fail. -/
theorem sataWriteSectors_apply {first : BitVec 32} {count : ℕ}
    (hok : (D.sataWriteSectors disk first count dataport).1 = false) (x : ℕ) {j : ℕ}
    (hj : j < sataBlkSize) :
    (D.sataWriteSectors disk first count dataport).2 x j =
      if x ∈ Extent.mk first.toNat count then dataport ((x - first.toNat) * sataBlkSize + j)
      else disk x j := by
  split
  · rename_i hmem
    obtain ⟨hlo, hhi⟩ := Extent.mem_mk.1 hmem
    have hdata := D.write_data disk first count dataport hok (x - first.toNat) (by omega) j hj
    rwa [Nat.add_sub_cancel' hlo] at hdata
  · rename_i hmem
    rw [D.write_frame disk first count dataport x hmem]

/-- A byte that is in step is stored. -/
theorem stored_of_inStep {first : BitVec 32} {k : ℕ} (hstep : InStep P client sector len first k)
    (hok : (D.sataWriteSectors disk first (len.toNat / sataBlkSize) dataport).1 = false) :
    ∃ x, physSector P client (byteSector sector k) = some x ∧
      (D.sataWriteSectors disk first (len.toNat / sataBlkSize) dataport).2 x (k % sataBlkSize) =
        dataport k := by
  obtain ⟨hwhole, hphys⟩ := hstep
  refine ⟨_, hphys, ?_⟩
  rw [sataWriteSectors_apply hok _ (Nat.mod_lt _ (by decide)), if_pos, Nat.add_sub_cancel_left,
    Nat.div_add_mod']
  exact Extent.mem_mk.2 ⟨Nat.le_add_right _ _, Nat.add_lt_add_left hwhole _⟩

/-- The bytes of a write that went to the disk are stored if and only if those that are not in step
find their data there. -/
theorem stored_sataWriteSectors_iff (hhigh : virtStartSector ≤ sector.toNat) {first : BitVec 32}
    (hok : (D.sataWriteSectors disk first (len.toNat / sataBlkSize) dataport).1 = false) :
    Stored P client (D.sataWriteSectors disk first (len.toNat / sataBlkSize) dataport).2 dataport
        sector len ↔
      ∀ k < len.toNat, ¬InStep P client sector len first k →
        ∃ x, physSector P client (byteSector sector k) = some x ∧
          (if x ∈ Extent.mk first.toNat (len.toNat / sataBlkSize) then
            dataport ((x - first.toNat) * sataBlkSize + k % sataBlkSize) = dataport k
          else disk x (k % sataBlkSize) = dataport k) := by
  have hcell : ∀ x k, (D.sataWriteSectors disk first (len.toNat / sataBlkSize) dataport).2 x
        (k % sataBlkSize) = dataport k ↔
      if x ∈ Extent.mk first.toNat (len.toNat / sataBlkSize) then
        dataport ((x - first.toNat) * sataBlkSize + k % sataBlkSize) = dataport k
      else disk x (k % sataBlkSize) = dataport k := by
    intro x k
    rw [sataWriteSectors_apply hok x (Nat.mod_lt _ (by decide))]
    split <;> rfl
  refine ⟨fun h k hk _ ↦ ?_, fun h k hk _ ↦ ?_⟩
  · obtain ⟨x, hx, hdata⟩ := h k hk (Nat.le_trans hhigh (Nat.le_add_right _ _))
    exact ⟨x, hx, (hcell x k).1 hdata⟩
  · by_cases hstep : InStep P client sector len first k
    · exact stored_of_inStep hstep hok
    · obtain ⟨x, hx, hdata⟩ := h k hk hstep
      exact ⟨x, hx, (hcell x k).2 hdata⟩

/-- The same for the answer of the server. -/
theorem txClient_stores_iff :
    ((txClient P D client disk dataport sector len).ret ≠ 0 →
        Stored P client (txClient P D client disk dataport sector len).disk dataport sector len) ↔
      WritesThrough P D client disk dataport sector len := by
  rw [WritesThrough]
  split
  · rename_i hlow
    rw [txClient_low hlow]
    constructor
    · intro h k hk
      refine h ?_ k hk
      rintro rfl
      exact absurd hk (Nat.not_lt_zero _)
    · exact fun h _ ↦ h
  · rename_i hlow
    have hhigh := Nat.not_lt.1 hlow
    cases hfirst : sectorAt P client sector with
    | none => simp [txClient_absent hhigh hfirst]
    | some first =>
      simp only [txClient_high hhigh hfirst, Option.some.injEq, forall_eq']
      cases herr : (D.sataWriteSectors disk first (len.toNat / sataBlkSize) dataport).1 with
      | true => simp
      | false =>
        rw [← stored_sataWriteSectors_iff hhigh herr]
        simp only [Bool.false_eq_true, if_false, forall_const]
        constructor
        · intro h k hk
          refine h ?_ k hk
          rintro rfl
          exact absurd hk (Nat.not_lt_zero _)
        · exact fun h _ ↦ h

end

/-- **When a successful write has happened.**  For every accepted configuration and every request of
a client that is not too long, success means that the data is stored if and only if the request
writes through. -/
theorem txStores_iff {P : Platform} {cfg : Config} (h : Accepted P cfg) {client : Client}
    (hc : client ∈ (postInit P cfg).clients) (D : SataDriver) (disk : Disk) (dataport : Dataport)
    (sector : BitVec 32) {len : BitVec 32} (hlen : len.toNat ≤ bufSize) :
    TxStores P D (postInit P cfg) client disk dataport sector len ↔
      WritesThrough P D client disk dataport sector len := by
  rw [TxStores, h.clientTx_eq D hc disk dataport hlen, ← txClient_stores_iff]
  constructor
  · exact fun htx ↦ htx _ rfl
  · rintro htx tx htx'
    rw [Option.some.injEq] at htx'
    subst htx'
    exact htx

/-- The theorem at a write of one sector. -/
theorem txStores_iff_one_sector :
    TxStores twoPartitions .faultless (postInit twoPartitions oneEach) firstClient (fun _ _ ↦ 7)
        (fun _ ↦ 1) 64 512 ↔
      WritesThrough twoPartitions .faultless firstClient (fun _ _ ↦ 7) (fun _ ↦ 1) 64 512 :=
  txStores_iff oneEach_accepted firstClient_mem _ _ _ _ (by decide)

/-- **A write of 100 bytes** is reported as successful, and nothing is written. -/
theorem not_txStores_part_of_sector :
    ¬ ∀ (P : Platform) (cfg : Config), Accepted P cfg → ∀ client ∈ (postInit P cfg).clients,
        ∀ (D : SataDriver) (disk : Disk) (dataport : Dataport) (sector len : BitVec 32),
        len.toNat ≤ bufSize →
        TxStores P D (postInit P cfg) client disk dataport sector len := by
  intro h
  have hstores := h twoPartitions oneEach oneEach_accepted firstClient firstClient_mem .faultless
    (fun _ _ ↦ 7) (fun _ ↦ 1) 64 100 (by decide)
  obtain ⟨x, hx, hdata⟩ := hstores _
    (oneEach_accepted.clientTx_eq .faultless firstClient_mem _ _ (by decide)) (by decide) 0
    (by decide) (by decide)
  have hphys : physSector twoPartitions firstClient (byteSector 64 0) = some 2048 := by decide
  rw [hphys, Option.some.injEq] at hx
  subst hx
  exact absurd hdata (by decide)

end Sataserver
end CamkesVm
