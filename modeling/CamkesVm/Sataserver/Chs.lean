import CamkesVm.Sataserver.Layout
import Mathlib.Tactic.IntervalCases

/-!
# Cylinders, heads and sectors

A partition table gives the first and the last sector of a partition twice: as numbers, and as
cylinder, head and sector of a disk that has 255 heads and 63 sectors on a track.  The cylinder has
ten bits.  Its upper two share a byte with the sector, so what is stored is a pair of the head and
of a word with the other two packed.

`post_init` works these fields out for the virtual table, and the firmware of the guest may go by
either.  `chs_decodes` says that the two agree as far as the cylinders reach, and that an address
behind them is marked with a head that no address has.

## What is here

* `sectorBits`, `cylinderBits`, `unpackChs`, `lbaOf` — the reader's side: how the fields are
  unpacked, and which address they stand for.
* `chsLimit`, `outOfRange`, `ChsDecodes` — how far the fields reach, what marks an address behind
  that, and the law.
* `sectorBits_packSecCyl`, `cylinderBits_packSecCyl` — packing loses nothing of a cylinder with ten
  bits and a sector with six.
* `chsDecodes_chs`, `chs_decodes` — any address, and the two addresses of every entry of an accepted
  configuration.

Sectors count from 1 and cylinders and heads from 0, as in the standard layout of such tables.
-/

set_option autoImplicit false

namespace CamkesVm
namespace Sataserver

/-! ## Unpacking -/

/-- The first address whose cylinder does not have ten bits. -/
abbrev chsLimit : ℕ := 1024 * 255 * 63

/-- The sector of a packed word: bits 0 to 5. -/
def sectorBits (secCyl : BitVec 16) : BitVec 16 := secCyl &&& 0x003F

/-- The cylinder of a packed word: bits 8 to 15, and bits 6 and 7 on top of them. -/
def cylinderBits (secCyl : BitVec 16) : BitVec 16 := (secCyl >>> 8) ||| ((secCyl &&& 0x00C0) <<< 2)

/-- Cylinder, head and sector of a stored pair. -/
def unpackChs (head : BitVec 8) (secCyl : BitVec 16) : ℕ × ℕ × ℕ :=
  ((cylinderBits secCyl).toNat, head.toNat, (sectorBits secCyl).toNat)

/-- The address a triple stands for. -/
def lbaOf (c : ℕ × ℕ × ℕ) : ℕ := c.1 * 255 * 63 + c.2.1 * 63 + c.2.2 - 1

/-- What stands for an address that the fields have no room for. -/
abbrev outOfRange : ℕ × ℕ × ℕ := (1023, 255, 63)

/-- The stored pair stands for the address, if there is room for it. -/
structure ChsDecodes (head : BitVec 8) (secCyl : BitVec 16) (lba : ℕ) : Prop where
  /-- An address in range can be read back. -/
  inRange : lba < chsLimit → lbaOf (unpackChs head secCyl) = lba
  /-- It is not mistaken for one that is not. -/
  ne_outOfRange : lba < chsLimit → unpackChs head secCyl ≠ outOfRange
  /-- Any other address is marked. -/
  marked : chsLimit ≤ lba → unpackChs head secCyl = outOfRange

/-! ## Packing -/

section

variable {cyl : BitVec 16} {sec : BitVec 8}

/-- A number below a power of two has no bits from there on. -/
theorem getElem_of_toNat_lt {w k i : ℕ} {x : BitVec w} (h : x.toNat < 2 ^ k) (hk : k ≤ i)
    (hi : i < w) : x[i] = false := by
  rw [← BitVec.getLsbD_eq_getElem, BitVec.getLsbD]
  exact Nat.testBit_lt_two_pow (Nat.lt_of_lt_of_le h (Nat.pow_le_pow_right (by decide) hk))

/-- **The sector can be read back.** -/
theorem sectorBits_packSecCyl (hsec : sec.toNat < 2 ^ 6) :
    sectorBits (packSecCyl cyl sec) = sec.setWidth 16 := by
  have h6 := getElem_of_toNat_lt hsec (i := 6) (by decide) (by decide)
  have h7 := getElem_of_toNat_lt hsec (i := 7) (by decide) (by decide)
  refine BitVec.eq_of_getLsbD_eq fun i hi ↦ ?_
  simp only [sectorBits, packSecCyl]
  interval_cases i <;> simp [h6, h7]

/-- **The cylinder can be read back**, if it has ten bits and leaves room for the sector. -/
theorem cylinderBits_packSecCyl (hcyl : cyl.toNat < 2 ^ 10) (hsec : sec.toNat < 2 ^ 6) :
    cylinderBits (packSecCyl cyl sec) = cyl := by
  have h6 := getElem_of_toNat_lt hsec (i := 6) (by decide) (by decide)
  have h7 := getElem_of_toNat_lt hsec (i := 7) (by decide) (by decide)
  refine BitVec.eq_of_getLsbD_eq fun i hi ↦ ?_
  have hhigh : 10 ≤ i → cyl[i] = false := fun hle ↦ getElem_of_toNat_lt hcyl hle hi
  simp only [cylinderBits, packSecCyl]
  interval_cases i <;> simp [h6, h7] <;> simpa using hhigh

theorem unpackChs_packSecCyl (head : BitVec 8) (hcyl : cyl.toNat < 2 ^ 10)
    (hsec : sec.toNat < 2 ^ 6) :
    unpackChs head (packSecCyl cyl sec) = (cyl.toNat, head.toNat, sec.toNat) := by
  rw [unpackChs, cylinderBits_packSecCyl hcyl hsec, sectorBits_packSecCyl hsec,
    BitVec.toNat_setWidth_of_le (by decide)]

end

/-! ## Addresses -/

/-- The cylinder of an address fits as long as the address is in range. -/
theorem lt_maxNumCyl_iff (lba : BitVec 32) :
    maxNumCyl < lba / (maxNumHead * maxNumSect) ↔ chsLimit ≤ lba.toNat := by
  rw [BitVec.lt_def, BitVec.toNat_udiv]
  change 1023 < lba.toNat / 16065 ↔ 16450560 ≤ lba.toNat
  omega

/-- Cylinder, head and sector of an address in range. -/
theorem chs_of_lt {lba : BitVec 32} (h : lba.toNat < chsLimit) :
    (chs lba).1.toNat = lba.toNat / (255 * 63) ∧ (chs lba).2.1.toNat = lba.toNat / 63 % 255 ∧
      (chs lba).2.2.toNat = lba.toNat % 63 + 1 := by
  have hlt : lba.toNat < 16450560 := h
  rw [chs, if_neg (mt (lt_maxNumCyl_iff lba).1 (Nat.not_le.2 h))]
  refine ⟨?_, ?_, ?_⟩
  · change (lba.toNat / 16065) % 2 ^ 16 = lba.toNat / 16065
    omega
  · change (lba.toNat / 63 % 255) % 2 ^ 8 = lba.toNat / 63 % 255
    omega
  · change ((lba.toNat % 63 + 1) % 2 ^ 32) % 2 ^ 8 = lba.toNat % 63 + 1
    omega

theorem chs_of_le {lba : BitVec 32} (h : chsLimit ≤ lba.toNat) : chs lba = (1023, 255, 63) := by
  rw [chs, if_pos ((lt_maxNumCyl_iff lba).2 h)]
  rfl

/-- **What is stored for an address** stands for it. -/
theorem chsDecodes_chs (lba : BitVec 32) :
    ChsDecodes (chs lba).2.1 (packSecCyl (chs lba).1 (chs lba).2.2) lba.toNat := by
  by_cases hlt : lba.toNat < chsLimit
  · obtain ⟨hcyl, hhead, hsec⟩ := chs_of_lt hlt
    have hlt' : lba.toNat < 16450560 := hlt
    have hunpack : unpackChs (chs lba).2.1 (packSecCyl (chs lba).1 (chs lba).2.2) =
        (lba.toNat / 16065, lba.toNat / 63 % 255, lba.toNat % 63 + 1) := by
      rw [unpackChs_packSecCyl _ (by omega) (by omega), hcyl, hhead, hsec]
    refine ⟨fun _ ↦ ?_, fun _ ↦ ?_, fun hle ↦ absurd hle (Nat.not_le.2 hlt)⟩
    · rw [hunpack]
      change lba.toNat / 16065 * 255 * 63 + lba.toNat / 63 % 255 * 63 + (lba.toNat % 63 + 1) - 1 =
        lba.toNat
      omega
    · rw [hunpack]
      intro h
      have hhead' : lba.toNat / 63 % 255 = 255 := congrArg (fun c ↦ c.2.1) h
      omega
  · have hle := Nat.not_lt.1 hlt
    refine ⟨fun h ↦ absurd h hlt, fun h ↦ absurd h hlt, fun _ ↦ ?_⟩
    rw [chs_of_le hle]
    decide

/-! ## The virtual table -/

theorem chsDecodes_virtualTable (P : Platform) (sectors : BitVec 32) (partition : BitVec 8) :
    ChsDecodes (virtualTable P sectors partition).head (virtualTable P sectors partition).secCyl
        (virtualTable P sectors partition).startLba.toNat ∧
      ChsDecodes (virtualTable P sectors partition).endHead
        (virtualTable P sectors partition).endSecCyl
        ((virtualTable P sectors partition).startLba +
          (virtualTable P sectors partition).numSectors - 1).toNat :=
  ⟨chsDecodes_chs sectors, chsDecodes_chs _⟩

/-- Every entry of the virtual table is one that the loop makes for a partition. -/
theorem exists_of_mem_virtualTables {P : Platform} {partitions : List (BitVec 8)}
    {sectors : BitVec 32} {table : PartitionTable}
    (h : table ∈ (virtualTables P sectors partitions).1) :
    ∃ sectors' partition, table = virtualTable P sectors' partition := by
  induction partitions generalizing sectors with
  | nil => simp [virtualTables] at h
  | cons partition rest ih =>
    rw [virtualTables, List.mem_cons] at h
    rcases h with rfl | h
    · exact ⟨sectors, partition, rfl⟩
    · exact ih h

/-- **The fields of a virtual partition decode to its sectors**: those of its first sector to
`start_lba`, those of its last to `start_lba + num_sectors - 1`. -/
theorem chs_decodes {P : Platform} {cfg : Config} {client : Client} {partition : BitVec 8}
    {table : PartitionTable} (h : Accepted P cfg) (hc : client ∈ (postInit P cfg).clients)
    (he : (partition, table) ∈ client.entries) (hnum : 1 ≤ table.numSectors.toNat)
    (hend : table.startLba.toNat + table.numSectors.toNat ≤ 2 ^ 32) :
    ChsDecodes table.head table.secCyl table.startLba.toNat ∧
      ChsDecodes table.endHead table.endSecCyl
        (table.startLba.toNat + table.numSectors.toNat - 1) := by
  obtain ⟨badge, -, rfl⟩ := h.exists_badge hc
  rw [entries_layoutClient] at he
  obtain ⟨sectors, partition', rfl⟩ := exists_of_mem_virtualTables (List.of_mem_zip he).2
  obtain ⟨hfirst, hlast⟩ := chsDecodes_virtualTable P sectors partition'
  have hsub : ((virtualTable P sectors partition').startLba +
      (virtualTable P sectors partition').numSectors - 1).toNat =
        (virtualTable P sectors partition').startLba.toNat +
          (virtualTable P sectors partition').numSectors.toNat - 1 := by
    rw [BitVec.toNat_sub, BitVec.toNat_add]
    change (2 ^ 32 - 1 + _ % 2 ^ 32) % 2 ^ 32 = _
    omega
  exact ⟨hfirst, hsub ▸ hlast⟩

/-- The entry of the first client's partition. -/
theorem chs_decodes_firstClient :
    ChsDecodes 1 2 64 ∧ ChsDecodes 1 9 71 :=
  chs_decodes oneEach_accepted firstClient_mem
    (by decide : ((1 : BitVec 8), virtualTable twoPartitions 64 1) ∈ _) (by decide) (by decide)

end Sataserver
end CamkesVm
