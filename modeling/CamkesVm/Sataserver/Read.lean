import CamkesVm.Sataserver.Accept

/-!
# Reading a range and reading its sectors

`virtualBlock` is the disk a client ought to see: the synthetic first sector, zeros below
`virtStartSector`, and from there on the sectors its layout assigns.  A read of one sector shows
exactly this (`rxClient_single`).  A read of several is served by the region its first sector is in,
so it shows the same only where the rest of the range happens to agree with that region.  For each
of the three regions there is a lemma that says what has to agree, and `rangeAgrees_iff` puts them
together.

## What is here

* `virtualBlock`, `Present` — the disk a client ought to see, by the sector, and which of its
  sectors can be read.
* `RangeAgrees`, `ReadsAlike` — a range read at once, and the condition on disk and dataport under
  which it is right, with one part for each region.
* `rxClient_single` — reads of one sector are always right, so they are what the others are compared
  with.
* `RangeReadsAsSingles`, `SinglesSucceed`, `rangeReadsAsSingles_iff` — the comparison.

A dataport keeps what it held where a read does not write, which is why the condition speaks of what
was there before.
-/

set_option autoImplicit false

namespace CamkesVm
namespace Sataserver

/-! ## The disk of a client -/

/-- What a sector of the client's disk holds. -/
def virtualBlock (P : Platform) (client : Client) (disk : Disk) (sector : BitVec 32) :
    ℕ → BitVec 8 :=
  if sector = 0 then partData P client
  else if sector.toNat < virtStartSector then fun _ ↦ 0
  else
    match sectorAt P client sector with
    | none => fun _ ↦ 0
    | some x => disk x.toNat

/-- The layout has the sector, and the drive can read what it is assigned to. -/
def Present (P : Platform) (D : SataDriver) (client : Client) (sector : BitVec 32) : Prop :=
  sector.toNat < virtStartSector ∨ ∃ x, sectorAt P client sector = some x ∧ D.readable x.toNat

section

variable {P : Platform} {D : SataDriver} {client : Client} {disk : Disk} {dataport : Dataport}
  {sector len : BitVec 32}

/-! ## What a read does in each region -/

/-- Sector 0: one block, whatever the length. -/
theorem rxClient_table :
    rxClient P D client disk dataport 0 len =
      ⟨len, fun k ↦ if k < sataBlkSize then partData P client k else dataport k, none⟩ := by
  rw [rxClient, if_pos rfl]

/-- Below `virtStartSector`: zeros over the whole length. -/
theorem rxClient_low (hzero : sector ≠ 0) (hlow : sector.toNat < virtStartSector) :
    rxClient P D client disk dataport sector len =
      ⟨len, fun k ↦ if k < len.toNat then 0 else dataport k, none⟩ := by
  rw [rxClient, if_neg hzero, if_pos hlow]

/-- From `virtStartSector` on: the disk, from the sector the first one is assigned to. -/
theorem rxClient_high (hhigh : virtStartSector ≤ sector.toNat) {first : BitVec 32}
    (hfirst : sectorAt P client sector = some first) :
    rxClient P D client disk dataport sector len =
      ⟨if (D.sataReadSectors disk first (len.toNat / sataBlkSize) dataport).1 then 0 else len,
        (D.sataReadSectors disk first (len.toNat / sataBlkSize) dataport).2,
        some ⟨first, len.toNat / sataBlkSize⟩⟩ := by
  rw [rxClient, if_neg (by rintro rfl; exact absurd hhigh (by decide)),
    if_neg (Nat.not_lt.2 hhigh)]
  obtain ⟨offset, hoffset, rfl⟩ := exists_offset_of_sectorAt hfirst
  rw [hoffset]

/-- A sector that no partition has cannot be read. -/
theorem rxClient_absent (hhigh : virtStartSector ≤ sector.toNat)
    (hnone : sectorAt P client sector = none) :
    (rxClient P D client disk dataport sector len).ret = 0 := by
  rw [rxClient, if_neg (by rintro rfl; exact absurd hhigh (by decide)),
    if_neg (Nat.not_lt.2 hhigh)]
  rw [sectorAt_eq_none_iff.1 hnone]

theorem virtualBlock_high (hhigh : virtStartSector ≤ sector.toNat) {x : BitVec 32}
    (hx : sectorAt P client sector = some x) :
    virtualBlock P client disk sector = disk x.toNat := by
  rw [virtualBlock, if_neg (by rintro rfl; exact absurd hhigh (by decide)),
    if_neg (Nat.not_lt.2 hhigh), hx]

/-! ## One sector -/

/-- **A read of one sector is right.**  If it succeeds, the sector is there, and the dataport has
what the client's disk holds at it. -/
theorem rxClient_single (hret : (rxClient P D client disk dataport sector 512).ret = 512) :
    Present P D client sector ∧ ∀ j < sataBlkSize,
      (rxClient P D client disk dataport sector 512).dataport j =
        virtualBlock P client disk sector j := by
  by_cases hzero : sector = 0
  · subst hzero
    refine ⟨.inl (by decide), fun j hj ↦ ?_⟩
    rw [rxClient_table, virtualBlock, if_pos rfl]
    exact if_pos hj
  · rcases Nat.lt_or_ge sector.toNat virtStartSector with hlow | hhigh
    · refine ⟨.inl hlow, fun j hj ↦ ?_⟩
      rw [rxClient_low hzero hlow, virtualBlock, if_neg hzero, if_pos hlow]
      exact if_pos hj
    · cases hx : sectorAt P client sector with
      | none =>
        rw [rxClient_absent hhigh hx] at hret
        exact absurd hret (by decide)
      | some x =>
        have hcount : (512 : BitVec 32).toNat / sataBlkSize = 1 := rfl
        rw [rxClient_high hhigh hx, hcount] at hret ⊢
        simp only at hret
        have hok : (D.sataReadSectors disk x 1 dataport).1 = false := by
          cases herr : (D.sataReadSectors disk x 1 dataport).1 with
          | false => rfl
          | true => rw [herr, if_pos rfl] at hret; exact absurd hret (by decide)
        have hreadable := (D.read_ok_iff disk x 1 dataport Nat.one_pos).1 hok x.toNat
          (Extent.mem_mk.2 ⟨Nat.le_refl _, Nat.lt_succ_self _⟩)
        refine ⟨.inr ⟨x, hx, hreadable⟩, fun j hj ↦ ?_⟩
        rw [virtualBlock_high hhigh hx]
        have hdata := D.read_data disk x 1 dataport hok 0 Nat.one_pos j hj
        simpa using hdata

/-- A client finds its virtual partition table in the block it reads at sector 0. -/
theorem rxClient_partitionTables {cfg : Config} (h : Accepted P cfg)
    (hc : client ∈ (postInit P cfg).clients) {j : ℕ}
    (hj : j < (P.tableBytes client.partitionTables).length) :
    (rxClient P D client disk dataport 0 len).dataport (P.partOffset + j) =
      (P.tableBytes client.partitionTables)[j] := by
  have hfits := P.table_fits _ (h.length_partitionTables hc)
  rw [rxClient_table]
  simp only [partData]
  rw [if_pos (by omega), if_pos ⟨Nat.le_add_right _ _, Nat.add_lt_add_left hj _⟩,
    Nat.add_sub_cancel_left, List.getD, List.getElem?_eq_getElem hj, Option.getD_some]

/-! ## A range -/

/-- A read of `count` sectors shows what the client's disk holds. -/
def RangeAgrees (P : Platform) (client : Client) (disk : Disk) (sector : BitVec 32) (count : ℕ)
    (rx : Rx) : Prop :=
  rx.ret = BitVec.ofNat 32 (count * sataBlkSize) ∧
    ∀ i < count, ∀ j < sataBlkSize,
      rx.dataport (i * sataBlkSize + j) =
        virtualBlock P client disk (sector + BitVec.ofNat 32 i) j

/-- Where a range is read as its sectors are: behind a first sector 0 the dataport must have held
zeros already; a range that starts below `virtStartSector` must find zeros on the disk from there
on; and from a sector of the disk on, what the layout does not assign to the sectors in step with
the disk must happen to be the same. -/
def ReadsAlike (P : Platform) (D : SataDriver) (client : Client) (disk : Disk) (dataport : Dataport)
    (sector : BitVec 32) (count : ℕ) : Prop :=
  if sector = 0 then
    ∀ i < count, 0 < i → ∀ j < sataBlkSize, dataport (i * sataBlkSize + j) = 0
  else if sector.toNat < virtStartSector then
    ∀ i < count, virtStartSector ≤ (sector + BitVec.ofNat 32 i).toNat →
      ∀ x, sectorAt P client (sector + BitVec.ofNat 32 i) = some x →
        ∀ j < sataBlkSize, disk x.toNat j = 0
  else
    ∀ first, sectorAt P client sector = some first → ∀ i < count,
      ¬(virtStartSector ≤ (sector + BitVec.ofNat 32 i).toNat ∧
          ∃ x, sectorAt P client (sector + BitVec.ofNat 32 i) = some x ∧
            x.toNat = first.toNat + i) →
        D.readable (first.toNat + i) ∧ ∀ j < sataBlkSize,
          disk (first.toNat + i) j = virtualBlock P client disk (sector + BitVec.ofNat 32 i) j

variable {count : ℕ}

theorem toNat_ofNat_bytes (hmax : count * sataBlkSize ≤ bufSize) :
    (BitVec.ofNat 32 (count * sataBlkSize)).toNat = count * sataBlkSize := by
  rw [BitVec.toNat_ofNat, Nat.mod_eq_of_lt]
  exact Nat.lt_of_le_of_lt hmax (by decide)

/-- Near the start of the disk the sector numbers of a range do not wrap. -/
theorem toNat_add_of_low (hlow : sector.toNat < virtStartSector)
    (hmax : count * sataBlkSize ≤ bufSize) {i : ℕ} (hi : i < count) :
    (sector + BitVec.ofNat 32 i).toNat = sector.toNat + i := by
  rw [BitVec.toNat_add, BitVec.toNat_ofNat]
  simp only [virtStartSector, sataBlkSize, bufSize] at *
  omega

/-- The range starts at sector 0. -/
theorem rangeAgrees_table (hpos : 0 < count) (hmax : count * sataBlkSize ≤ bufSize) :
    RangeAgrees P client disk 0 count
        (rxClient P D client disk dataport 0 (BitVec.ofNat 32 (count * sataBlkSize))) ↔
      ∀ i < count, 0 < i → ∀ j < sataBlkSize, dataport (i * sataBlkSize + j) = 0 := by
  have hlow : (0 : BitVec 32).toNat < virtStartSector := by decide
  have hblock : ∀ i < count, 0 < i →
      virtualBlock P client disk (0 + BitVec.ofNat 32 i) = fun _ ↦ 0 := by
    intro i hi hi0
    have hnat : (0 + BitVec.ofNat 32 i).toNat = i := by
      rw [toNat_add_of_low hlow hmax hi]
      exact Nat.zero_add i
    have hi' : i < virtStartSector := by
      simp only [virtStartSector, sataBlkSize, bufSize] at *
      omega
    rw [virtualBlock, if_neg, if_pos (hnat.symm ▸ hi')]
    intro h0
    rw [h0] at hnat
    exact absurd hnat.symm (Nat.ne_of_gt hi0)
  rw [RangeAgrees, rxClient_table]
  simp only [true_and]
  refine ⟨fun h i hi hi0 j hj ↦ ?_, fun h i hi j hj ↦ ?_⟩
  · have hcell := h i hi j hj
    have hge : ¬i * sataBlkSize + j < sataBlkSize := by
      have := Nat.mul_le_mul_right sataBlkSize hi0
      omega
    rwa [if_neg hge, hblock i hi hi0] at hcell
  · rcases Nat.eq_zero_or_pos i with rfl | hi0
    · rw [Nat.zero_mul, Nat.zero_add, if_pos hj, virtualBlock]
      rfl
    · have hge : ¬i * sataBlkSize + j < sataBlkSize := by
        have := Nat.mul_le_mul_right sataBlkSize hi0
        omega
      rw [if_neg hge, hblock i hi hi0]
      exact h i hi hi0 j hj

/-- The range starts in the zero area. -/
theorem rangeAgrees_low (hzero : sector ≠ 0) (hlow : sector.toNat < virtStartSector)
    (hmax : count * sataBlkSize ≤ bufSize)
    (hpresent : ∀ i < count, Present P D client (sector + BitVec.ofNat 32 i)) :
    RangeAgrees P client disk sector count
        (rxClient P D client disk dataport sector (BitVec.ofNat 32 (count * sataBlkSize))) ↔
      ∀ i < count, virtStartSector ≤ (sector + BitVec.ofNat 32 i).toNat →
        ∀ x, sectorAt P client (sector + BitVec.ofNat 32 i) = some x →
          ∀ j < sataBlkSize, disk x.toNat j = 0 := by
  rw [RangeAgrees, rxClient_low hzero hlow, toNat_ofNat_bytes hmax]
  simp only [true_and]
  have hread : ∀ i < count, ∀ j < sataBlkSize, i * sataBlkSize + j < count * sataBlkSize := by
    intro i hi j hj
    have := Nat.mul_le_mul_right sataBlkSize hi
    simp only [sataBlkSize] at *
    omega
  refine ⟨fun h i hi hhigh x hx j hj ↦ ?_, fun h i hi j hj ↦ ?_⟩
  · have hcell := h i hi j hj
    rw [if_pos (hread i hi j hj), virtualBlock_high hhigh hx] at hcell
    exact hcell.symm
  · rw [if_pos (hread i hi j hj)]
    have hnat := toNat_add_of_low hlow hmax hi
    have hne : sector + BitVec.ofNat 32 i ≠ 0 := by
      intro h0
      rw [h0] at hnat
      exact hzero (BitVec.eq_of_toNat_eq (Nat.add_eq_zero_iff.1 hnat.symm).1)
    rcases hpresent i hi with hlow' | ⟨x, hx, -⟩
    · rw [virtualBlock, if_neg hne, if_pos hlow']
    · rcases Nat.lt_or_ge (sector + BitVec.ofNat 32 i).toNat virtStartSector with hlow' | hhigh
      · rw [virtualBlock, if_neg hne, if_pos hlow']
      · rw [virtualBlock_high hhigh hx]
        exact (h i hi hhigh x hx j hj).symm

/-- The range starts on the disk. -/
theorem rangeAgrees_high (hhigh : virtStartSector ≤ sector.toNat) {first : BitVec 32}
    (hfirst : sectorAt P client sector = some first) (hpos : 0 < count)
    (hmax : count * sataBlkSize ≤ bufSize) :
    RangeAgrees P client disk sector count
        (rxClient P D client disk dataport sector (BitVec.ofNat 32 (count * sataBlkSize))) ↔
      ∀ i < count, D.readable (first.toNat + i) ∧ ∀ j < sataBlkSize,
        disk (first.toNat + i) j = virtualBlock P client disk (sector + BitVec.ofNat 32 i) j := by
  have hcount : count * sataBlkSize / sataBlkSize = count := Nat.mul_div_cancel _ (by decide)
  rw [RangeAgrees, rxClient_high hhigh hfirst, toNat_ofNat_bytes hmax, hcount]
  have hok := D.read_ok_iff disk first count dataport hpos
  rw [Extent.forall_mem] at hok
  constructor
  · rintro ⟨hret, hdata⟩ i hi
    have herr : (D.sataReadSectors disk first count dataport).1 = false := by
      cases herr : (D.sataReadSectors disk first count dataport).1 with
      | false => rfl
      | true =>
        have hnat := congrArg BitVec.toNat hret
        simp only [herr, if_true, toNat_ofNat_bytes hmax] at hnat
        exact absurd hnat.symm (Nat.ne_of_gt (Nat.mul_pos hpos (by decide)))
    refine ⟨hok.1 herr i hi, fun j hj ↦ ?_⟩
    exact (D.read_data disk first count dataport herr i hi j hj).symm.trans (hdata i hi j hj)
  · intro h
    have herr := hok.2 fun i hi ↦ (h i hi).1
    refine ⟨by rw [herr]; rfl, fun i hi j hj ↦ ?_⟩
    exact (D.read_data disk first count dataport herr i hi j hj).trans ((h i hi).2 j hj)

/-- The three regions together, for a range whose sectors are all there. -/
theorem rangeAgrees_iff (hpos : 0 < count) (hmax : count * sataBlkSize ≤ bufSize)
    (hpresent : ∀ i < count, Present P D client (sector + BitVec.ofNat 32 i)) :
    RangeAgrees P client disk sector count
        (rxClient P D client disk dataport sector (BitVec.ofNat 32 (count * sataBlkSize))) ↔
      ReadsAlike P D client disk dataport sector count := by
  rw [ReadsAlike]
  split
  · rename_i hzero
    subst hzero
    exact rangeAgrees_table hpos hmax
  · rename_i hzero
    split
    · rename_i hlow
      exact rangeAgrees_low hzero hlow hmax hpresent
    · rename_i hlow
      have hhigh := Nat.not_lt.1 hlow
      have hfirst := hpresent 0 hpos
      rw [show sector + BitVec.ofNat 32 0 = sector from BitVec.add_zero sector] at hfirst
      obtain ⟨first, hfirst, -⟩ := hfirst.resolve_left hlow
      rw [rangeAgrees_high hhigh hfirst hpos hmax]
      refine ⟨fun h first' hfirst' i hi _ ↦ ?_, fun h i hi ↦ ?_⟩
      · rw [hfirst, Option.some.injEq] at hfirst'
        subst hfirst'
        exact h i hi
      · by_cases hstep : virtStartSector ≤ (sector + BitVec.ofNat 32 i).toNat ∧
            ∃ x, sectorAt P client (sector + BitVec.ofNat 32 i) = some x ∧
              x.toNat = first.toNat + i
        · obtain ⟨hhigh', x, hx, hxi⟩ := hstep
          obtain ⟨x', hx', hreadable⟩ := (hpresent i hi).resolve_left (Nat.not_lt.2 hhigh')
          rw [hx, Option.some.injEq] at hx'
          subst hx'
          rw [virtualBlock_high hhigh' hx, ← hxi]
          exact ⟨hreadable, fun j _ ↦ rfl⟩
        · exact h first hfirst i hi hstep

end

/-! ## Ranges and sectors -/

/-- The read of `count` sectors moves their bytes, and what it leaves in the dataport is the blocks
that the reads of one sector each left there, one behind the other. -/
def RangeReadsAsSingles (P : Platform) (D : SataDriver) (server : Server) (id : BitVec 32)
    (disk : Disk) (dataport : Dataport) (sector : BitVec 32) (count : ℕ) (singles : ℕ → Rx) :
    Prop :=
  ∃ rx, clientRx P D server id disk dataport sector (BitVec.ofNat 32 (count * sataBlkSize)) =
      some rx ∧
    rx.ret = BitVec.ofNat 32 (count * sataBlkSize) ∧
    ∀ i < count, ∀ j < sataBlkSize,
      rx.dataport (i * sataBlkSize + j) = (singles i).dataport j

/-- The reads of one sector each, with whatever was in the dataport before them, succeed. -/
def SinglesSucceed (P : Platform) (D : SataDriver) (server : Server) (id : BitVec 32) (disk : Disk)
    (sector : BitVec 32) (count : ℕ) (singles : ℕ → Rx) : Prop :=
  ∀ i < count, ∃ dataport,
    clientRx P D server id disk dataport (sector + BitVec.ofNat 32 i) 512 = some (singles i) ∧
      (singles i).ret = 512

/-- **When the size of the request does not matter.**  A range whose sectors can all be read one by
one is read as these if and only if the part of it that is not served as its own region would be
holds the same data. -/
theorem rangeReadsAsSingles_iff {P : Platform} {cfg : Config} (h : Accepted P cfg) {client : Client}
    (hc : client ∈ (postInit P cfg).clients) (D : SataDriver) (disk : Disk) (dataport : Dataport)
    (sector : BitVec 32) {count : ℕ} (hpos : 1 ≤ count) (hmax : count * sataBlkSize ≤ bufSize)
    {singles : ℕ → Rx}
    (hsingles : SinglesSucceed P D (postInit P cfg) client.clientId disk sector count singles) :
    RangeReadsAsSingles P D (postInit P cfg) client.clientId disk dataport sector count singles ↔
      ReadsAlike P D client disk dataport sector count := by
  have hspec : ∀ i < count, Present P D client (sector + BitVec.ofNat 32 i) ∧
      ∀ j < sataBlkSize, (singles i).dataport j =
        virtualBlock P client disk (sector + BitVec.ofNat 32 i) j := by
    intro i hi
    obtain ⟨dataport', hrx, hret⟩ := hsingles i hi
    rw [h.clientRx_eq D hc disk dataport' (by decide), Option.some.injEq] at hrx
    rw [← hrx] at hret ⊢
    exact rxClient_single hret
  rw [← rangeAgrees_iff hpos hmax fun i hi ↦ (hspec i hi).1, RangeReadsAsSingles, RangeAgrees,
    h.clientRx_eq D hc disk dataport (by rw [toNat_ofNat_bytes hmax]; exact hmax)]
  constructor
  · rintro ⟨rx, hrx, hret, hdata⟩
    rw [Option.some.injEq] at hrx
    subst hrx
    exact ⟨hret, fun i hi j hj ↦ by rw [hdata i hi j hj, (hspec i hi).2 j hj]⟩
  · rintro ⟨hret, hdata⟩
    exact ⟨_, rfl, hret, fun i hi j hj ↦ by rw [hdata i hi j hj, (hspec i hi).2 j hj]⟩

/-- What a read leaves in the dataport of the first client, when it held `byte` everywhere. -/
def firstClientRx (byte : BitVec 8) (sector len : BitVec 32) : Rx :=
  rxClient twoPartitions .faultless firstClient (fun _ _ ↦ 7) (fun _ ↦ byte) sector len

/-- The blocks at the start of the first client's disk can be read one by one. -/
theorem singlesSucceed_firstClient {count : ℕ} (hcount : count ≤ 8) :
    SinglesSucceed twoPartitions .faultless (postInit twoPartitions oneEach) firstClient.clientId
      (fun _ _ ↦ 7) 0 count (fun i ↦ firstClientRx 1 (0 + BitVec.ofNat 32 i) 512) := by
  intro i hi
  refine ⟨fun _ ↦ 1, ?_, ?_⟩
  · exact oneEach_accepted.clientRx_eq .faultless firstClient_mem _ _ (by decide)
  · have hsmall : ∀ i < 8, (firstClientRx 1 (0 + BitVec.ofNat 32 i) 512).ret = 512 := by decide
    exact hsmall i (Nat.lt_of_lt_of_le hi hcount)

/-- The theorem at a read of two sectors from sector 0. -/
theorem rangeReadsAsSingles_iff_table :
    RangeReadsAsSingles twoPartitions .faultless (postInit twoPartitions oneEach)
        firstClient.clientId (fun _ _ ↦ 7) (fun _ ↦ 0) 0 2
        (fun i ↦ firstClientRx 1 (0 + BitVec.ofNat 32 i) 512) ↔
      ReadsAlike twoPartitions .faultless firstClient (fun _ _ ↦ 7) (fun _ ↦ 0) 0 2 :=
  rangeReadsAsSingles_iff oneEach_accepted firstClient_mem _ _ _ _ (by decide) (by decide)
    (singlesSucceed_firstClient (by decide))

/-- **Two sectors from sector 0**: the second block of the dataport is what it was before. -/
theorem not_rangeReadsAsSingles_table :
    ¬ ∀ (P : Platform) (cfg : Config), Accepted P cfg → ∀ client ∈ (postInit P cfg).clients,
        ∀ (D : SataDriver) (disk : Disk) (dataport : Dataport) (sector : BitVec 32) (count : ℕ),
        1 ≤ count → count * sataBlkSize ≤ bufSize → ∀ singles,
        SinglesSucceed P D (postInit P cfg) client.clientId disk sector count singles →
        RangeReadsAsSingles P D (postInit P cfg) client.clientId disk dataport sector count
          singles := by
  intro h
  obtain ⟨rx, hrx, -, hdata⟩ := h twoPartitions oneEach oneEach_accepted firstClient firstClient_mem
    .faultless (fun _ _ ↦ 7) (fun _ ↦ 1) 0 2 (by decide) (by decide) _
    (singlesSucceed_firstClient (by decide))
  rw [oneEach_accepted.clientRx_eq .faultless firstClient_mem _ _ (by decide),
    Option.some.injEq] at hrx
  subst hrx
  have hcell := hdata 1 (by decide) 0 (by decide)
  exact absurd hcell (by decide)

end Sataserver
end CamkesVm
