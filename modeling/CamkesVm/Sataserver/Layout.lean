import CamkesVm.Lib.Tiling
import CamkesVm.Sataserver.Isolation

/-!
# The virtual disk is a faithful map of the client's partitions

`post_init` lays the partitions of a client out one behind the other, from `virtStartSector` on;
`calulate_sector_offset` searches this layout and answers with an offset, and what the driver is
given is the 32-bit sum of the two.  `Faithful` says what the three are for together: the virtual
partitions tile the disk, the lookup succeeds on the disk and nowhere else, and sectors go where
they belong, no two of them, of whatever client, to the same place.

The layout needs room: the partitions of a client must not add up to more than 32 bits can number
(`Fits`).  Then the layout is a chain of extents (`chain_virtualTables`), every sector of the disk
is covered by one entry, and the lookup finds that one.  Where the sectors go is right as long as
the physical partitions end within the 32-bit sector numbers too, and `faithful_iff` says that this
is needed: behind sector `2 ^ 32 - 1` the sum goes on at sector 0, whoever owns it.

## What is here

* `totalSectors`, `Client.Fits`, `EndsInRange` — the sizes that matter.
* `Client.Faithful`, `Faithful` — what a layout is for, for one client and for all of them.
* `chain_virtualTables`, `entryOf_eq_some_iff` — the loop makes a chain of extents, and the search
  finds the one with the sector.
* `client_faithful`, `faithful_iff` — one client, and all of them, where the condition becomes
  exact.
* `not_faithful_overrunning` — two sectors of two clients that are one.

The arithmetic of extents and tilings is the library's.
-/

set_option autoImplicit false

namespace CamkesVm
namespace Sataserver

open Extent

/-! ## What a layout is for -/

/-- How many sectors the listed partitions have together. -/
def totalSectors (P : Platform) (partitions : List (BitVec 8)) : ℕ :=
  (partitions.map fun partition ↦
    (P.physPartitionTables (partIdx partition)).numSectors.toNat).sum

/-- The virtual disk of the client can be numbered with 32 bits. -/
def Client.Fits (P : Platform) (client : Client) : Prop :=
  virtStartSector + totalSectors P client.partitions < 2 ^ 32

/-- The partition of the drive ends within the sectors that 32 bits can number. -/
def EndsInRange (P : Platform) (partition : BitVec 8) : Prop :=
  (P.physPartitionTables (partIdx partition)).extent.past ≤ 2 ^ 32

/-- The layout of one client shows its partitions, each sector once. -/
structure Client.Faithful (P : Platform) (client : Client) : Prop where
  /-- The virtual partitions tile the disk without hole or overlap. -/
  tiling : Tiling (client.entries.map fun entry ↦ entry.2.extent) virtStartSector
    client.capacity.toNat
  /-- The lookup succeeds for exactly the sectors of the disk. -/
  lookup : ∀ sector : BitVec 32, (calulateSectorOffset P client sector).isSome ↔
    virtStartSector ≤ sector.toNat ∧ sector.toNat < client.capacity.toNat
  /-- The `i`-th virtual partition is as big as the `i`-th partition assigned, and sector `j` of the
  one goes to sector `j` of the other. -/
  sectors : ∀ (i : ℕ) (partition : BitVec 8) (table : PartitionTable),
    client.partitions[i]? = some partition → client.partitionTables[i]? = some table →
    table.numSectors = (P.physPartitionTables (partIdx partition)).numSectors ∧
      ∀ j < table.numSectors.toNat, ∃ x,
        sectorAt P client (table.startLba + BitVec.ofNat 32 j) = some x ∧
          x.toNat = (P.physPartitionTables (partIdx partition)).startLba.toNat + j
  /-- No two sectors go to the same place. -/
  injective : ∀ sector sector' x : BitVec 32, sectorAt P client sector = some x →
    sectorAt P client sector' = some x → sector = sector'

/-- The layouts of all clients show their partitions, and share no place on the drive. -/
structure Faithful (P : Platform) (server : Server) : Prop where
  /-- Each layout is faithful. -/
  client : ∀ client ∈ server.clients, client.Faithful P
  /-- What one client has, no other has. -/
  apart : ∀ client ∈ server.clients, ∀ client' ∈ server.clients, client ≠ client' →
    ∀ sector sector' x : BitVec 32, sectorAt P client sector = some x →
      sectorAt P client' sector' ≠ some x

/-! ## The loop that lays the partitions out -/

theorem totalSectors_cons (P : Platform) (partition : BitVec 8) (rest : List (BitVec 8)) :
    totalSectors P (partition :: rest) =
      (P.physPartitionTables (partIdx partition)).numSectors.toNat + totalSectors P rest := by
  rw [totalSectors, totalSectors, List.map_cons, List.sum_cons]

/-- **The loop puts each partition behind the one before it**, as long as the numbers suffice. -/
theorem chain_virtualTables (P : Platform) (partitions : List (BitVec 8)) {sectors : BitVec 32}
    (hfit : sectors.toNat + totalSectors P partitions < 2 ^ 32) :
    (virtualTables P sectors partitions).2.toNat = sectors.toNat + totalSectors P partitions ∧
      Chain sectors.toNat ((virtualTables P sectors partitions).1.map PartitionTable.extent)
        (virtualTables P sectors partitions).2.toNat := by
  induction partitions generalizing sectors with
  | nil => exact ⟨rfl, rfl⟩
  | cons partition rest ih =>
    rw [totalSectors_cons] at hfit ⊢
    have hnum : (virtualTable P sectors partition).numSectors =
        (P.physPartitionTables (partIdx partition)).numSectors := rfl
    have hnext : (sectors + (virtualTable P sectors partition).numSectors).toNat =
        sectors.toNat + (P.physPartitionTables (partIdx partition)).numSectors.toNat := by
      rw [BitVec.toNat_add, hnum, Nat.mod_eq_of_lt (by omega)]
    obtain ⟨hend, hchain⟩ := ih (by rw [hnext]; omega)
    rw [hnext] at hend hchain
    refine ⟨?_, ?_⟩
    · rw [virtualTables, hend, Nat.add_assoc]
    · rw [virtualTables, List.map_cons]
      exact ⟨rfl, hchain⟩

/-- Every virtual entry is as big as its partition. -/
theorem numSectors_of_mem_zip (P : Platform) (partitions : List (BitVec 8)) {sectors : BitVec 32}
    {partition : BitVec 8} {table : PartitionTable}
    (h : (partition, table) ∈ partitions.zip (virtualTables P sectors partitions).1) :
    table.numSectors = (P.physPartitionTables (partIdx partition)).numSectors := by
  induction partitions generalizing sectors with
  | nil => simp at h
  | cons head rest ih =>
    rw [virtualTables, List.zip_cons_cons, List.mem_cons] at h
    rcases h with h | h
    · rw [Prod.mk.injEq] at h
      obtain ⟨rfl, rfl⟩ := h
      rfl
    · exact ih h

/-- The entries of a client are its partitions with what the loop wrote for them. -/
theorem entries_layoutClient (P : Platform) (client : Client) :
    (layoutClient P client).entries = client.partitions.zip
      (virtualTables P (BitVec.ofNat 32 virtStartSector) client.partitions).1 := by
  have hlen := length_virtualTables P (BitVec.ofNat 32 virtStartSector) client.partitions
  rw [Client.entries, layoutClient]
  nth_rewrite 1 [← List.append_nil client.partitions]
  rw [List.zip_append hlen.symm, List.zip_nil_left, List.append_nil]

/-! ## The layout of an accepted client -/

section

variable {P : Platform} {cfg : Config} {client : Client}

/-- The virtual partitions are a chain from `virtStartSector` to the capacity. -/
theorem chain_entries (h : Accepted P cfg) (hc : client ∈ (postInit P cfg).clients)
    (hfit : client.Fits P) :
    Chain virtStartSector (client.entries.map fun entry ↦ entry.2.extent)
        client.capacity.toNat ∧ client.capacity.toNat < 2 ^ 32 := by
  obtain ⟨badge, -, rfl⟩ := h.exists_badge hc
  have hstart : (BitVec.ofNat 32 virtStartSector).toNat = virtStartSector := by decide
  have hroom : (BitVec.ofNat 32 virtStartSector).toNat +
      totalSectors P (cfg.partitionList badge) < 2 ^ 32 := hstart.symm ▸ hfit
  obtain ⟨hend, hchain⟩ := chain_virtualTables P (cfg.partitionList badge) hroom
  rw [hstart] at hend hchain
  have hcap : (layoutClient P (Client.ofBadge cfg badge)).capacity.toNat =
      (virtualTables P (BitVec.ofNat 32 virtStartSector) (cfg.partitionList badge)).2.toNat := by
    rw [layoutClient, BitVec.toNat_setWidth, ofBadge_partitions]
    exact Nat.mod_eq_of_lt (Nat.lt_trans (BitVec.isLt _) (by decide))
  refine ⟨?_, by rw [hcap]; exact BitVec.isLt _⟩
  have hmap : (layoutClient P (Client.ofBadge cfg badge)).entries.map
      (fun entry ↦ entry.2.extent) = (virtualTables P (BitVec.ofNat 32 virtStartSector)
        (cfg.partitionList badge)).1.map PartitionTable.extent := by
    rw [entries_layoutClient, ofBadge_partitions]
    change List.map (PartitionTable.extent ∘ Prod.snd) _ = _
    rw [← List.map_map, List.map_snd_zip (by rw [length_virtualTables])]
  rw [hcap, hmap]
  exact hchain

theorem numSectors_of_mem_entries (h : Accepted P cfg) (hc : client ∈ (postInit P cfg).clients)
    {partition : BitVec 8} {table : PartitionTable} (he : (partition, table) ∈ client.entries) :
    table.numSectors = (P.physPartitionTables (partIdx partition)).numSectors := by
  obtain ⟨badge, -, rfl⟩ := h.exists_badge hc
  rw [entries_layoutClient] at he
  exact numSectors_of_mem_zip P _ he

/-- The partitions behind the entries of a client do not overlap on the drive. -/
theorem pairwise_apart_phys (h : Accepted P cfg) (hdisj : PartitionsDisjoint P)
    (hc : client ∈ (postInit P cfg).clients) :
    (client.entries.map fun entry ↦
      (P.physPartitionTables (partIdx entry.1)).extent).Pairwise Extent.Apart := by
  have hlen : client.partitions.length ≤ client.partitionTables.length := by
    rw [h.length_partitionTables hc]
    exact h.length_partitions hc
  have hmap : (client.entries.map fun entry ↦
      (P.physPartitionTables (partIdx entry.1)).extent) = (client.partitions.map partIdx).map
        fun i ↦ (P.physPartitionTables i).extent := by
    rw [List.map_map, ← List.map_fst_zip hlen, List.map_map]
    rfl
  rw [hmap, List.pairwise_map]
  refine (h.nodup_partIdx hc).imp_of_mem fun {i j} hi hj hij ↦ ?_
  obtain ⟨partition, hp, rfl⟩ := List.mem_map.1 hi
  obtain ⟨partition', hp', rfl⟩ := List.mem_map.1 hj
  exact hdisj _ (h.partIdx_lt hc hp) _ (h.partIdx_lt hc hp') hij

/-! ## The lookup -/

/-- On a tiled disk the comparisons of the lookup do not wrap. -/
theorem covers_iff_mem {entries : List (BitVec 8 × PartitionTable)} {hi : ℕ}
    (htiling : Tiling (entries.map fun entry ↦ entry.2.extent) virtStartSector hi)
    (hlt : hi < 2 ^ 32) {entry : BitVec 8 × PartitionTable} (he : entry ∈ entries)
    (sector : BitVec 32) : entry.2.covers sector = true ↔ sector.toNat ∈ entry.2.extent := by
  rw [PartitionTable.covers_iff, and_iff_left_iff_imp]
  intro hmem
  have hmem' : sector.toNat < entry.2.startLba.toNat + entry.2.numSectors.toNat := hmem.2
  have hlast : entry.2.startLba.toNat + entry.2.numSectors.toNat - 1 ∈ entry.2.extent :=
    Extent.mem_mk.2 ⟨by have := hmem.1; exact Nat.le_sub_one_of_lt (Nat.lt_of_le_of_lt this hmem'),
      by omega⟩
  have hcov := (htiling.covered_iff _).1 ⟨_, List.mem_map.2 ⟨entry, he, rfl⟩, hlast⟩
  omega

/-- **The lookup finds the entry that has the sector.** -/
theorem entryOf_eq_some_iff (h : Accepted P cfg) (hc : client ∈ (postInit P cfg).clients)
    (hfit : client.Fits P) {sector : BitVec 32} {entry : BitVec 8 × PartitionTable} :
    client.entryOf sector = some entry ↔
      entry ∈ client.entries ∧ sector.toNat ∈ entry.2.extent := by
  obtain ⟨hchain, hlt⟩ := chain_entries h hc hfit
  have htiling := hchain.tiling
  have hcovers : ∀ e ∈ client.entries, (e.2.covers sector = true ↔ sector.toNat ∈ e.2.extent) :=
    fun e he ↦ covers_iff_mem htiling hlt he sector
  constructor
  · intro hfound
    have he := List.mem_of_find?_eq_some hfound
    exact ⟨he, (hcovers _ he).1 (Client.entryOf_spec hfound).2⟩
  · rintro ⟨he, hmem⟩
    cases hfound : client.entryOf sector with
    | none => exact absurd ((hcovers _ he).2 hmem) (List.find?_eq_none.1 hfound entry he)
    | some entry' =>
      have he' := List.mem_of_find?_eq_some hfound
      have hmem' := (hcovers _ he').1 (Client.entryOf_spec hfound).2
      rw [eq_of_mem_of_pairwise htiling.apart he' he hmem' hmem]

/-- Every sector of the disk has an entry, and nothing else has. -/
theorem exists_entryOf_iff (h : Accepted P cfg) (hc : client ∈ (postInit P cfg).clients)
    (hfit : client.Fits P) (sector : BitVec 32) :
    (∃ entry, client.entryOf sector = some entry) ↔
      virtStartSector ≤ sector.toNat ∧ sector.toNat < client.capacity.toNat := by
  rw [← (chain_entries h hc hfit).1.tiling.covered_iff]
  simp only [entryOf_eq_some_iff h hc hfit, Covered, List.mem_map]
  constructor
  · rintro ⟨entry, he, hmem⟩
    exact ⟨_, ⟨entry, he, rfl⟩, hmem⟩
  · rintro ⟨_, ⟨entry, he, rfl⟩, hmem⟩
    exact ⟨entry, he, hmem⟩

theorem isSome_calulateSectorOffset_iff (h : Accepted P cfg)
    (hc : client ∈ (postInit P cfg).clients) (hfit : client.Fits P) (sector : BitVec 32) :
    (calulateSectorOffset P client sector).isSome ↔
      virtStartSector ≤ sector.toNat ∧ sector.toNat < client.capacity.toNat := by
  rw [← exists_entryOf_iff h hc hfit, calulateSectorOffset]
  cases client.entryOf sector with
  | none => simp
  | some entry => simp

/-! ## Where a sector goes -/

/-- A sector goes as far into the partition as it is into the virtual one. -/
theorem sectorAt_eq_some_iff (h : Accepted P cfg) (hc : client ∈ (postInit P cfg).clients)
    (hfit : client.Fits P) {sector x : BitVec 32} :
    sectorAt P client sector = some x ↔ ∃ partition table, (partition, table) ∈ client.entries ∧
      sector.toNat ∈ table.extent ∧
        sector + ((P.physPartitionTables (partIdx partition)).startLba - table.startLba) = x := by
  rw [sectorAt, calulateSectorOffset]
  cases hentry : client.entryOf sector with
  | none =>
    simp only [Option.map_none, reduceCtorEq, false_iff]
    rintro ⟨partition, table, he, hmem, -⟩
    rw [(entryOf_eq_some_iff h hc hfit).2 ⟨he, hmem⟩] at hentry
    simp at hentry
  | some entry =>
    obtain ⟨partition, table⟩ := entry
    obtain ⟨he, hmem⟩ := (entryOf_eq_some_iff h hc hfit).1 hentry
    simp only [Option.map_some, Option.some.injEq]
    constructor
    · exact fun hx ↦ ⟨partition, table, he, hmem, hx⟩
    · rintro ⟨partition', table', he', hmem', hx⟩
      rw [(entryOf_eq_some_iff h hc hfit).2 ⟨he', hmem'⟩, Option.some.injEq,
        Prod.mk.injEq] at hentry
      obtain ⟨rfl, rfl⟩ := hentry
      exact hx

/-- In a partition that ends in range the 32-bit sum is the sum. -/
theorem toNat_sectorAt (h : Accepted P cfg) (hc : client ∈ (postInit P cfg).clients)
    {partition : BitVec 8} {table : PartitionTable} (he : (partition, table) ∈ client.entries)
    (hends : EndsInRange P partition) {sector : BitVec 32} (hmem : sector.toNat ∈ table.extent) :
    (sector + ((P.physPartitionTables (partIdx partition)).startLba - table.startLba)).toNat =
      (P.physPartitionTables (partIdx partition)).startLba.toNat +
        (sector.toNat - table.startLba.toNat) := by
  have hnum := congrArg BitVec.toNat (numSectors_of_mem_entries h hc he)
  have hends' : (P.physPartitionTables (partIdx partition)).startLba.toNat +
    (P.physPartitionTables (partIdx partition)).numSectors.toNat ≤ 2 ^ 32 := hends
  obtain ⟨hlo, hhi⟩ := Extent.mem_def.1 hmem
  simp only [PartitionTable.extent] at hlo hhi
  rw [toNat_add_offset hlo, Nat.mod_eq_of_lt (by omega)]

/-- Where all partitions end in range, a sector goes into the partition of its entry. -/
theorem exists_entry_of_sectorAt (h : Accepted P cfg) (hc : client ∈ (postInit P cfg).clients)
    (hfit : client.Fits P) (hends : ∀ partition ∈ client.partitions, EndsInRange P partition)
    {sector x : BitVec 32} (hx : sectorAt P client sector = some x) :
    ∃ partition table, (partition, table) ∈ client.entries ∧ sector.toNat ∈ table.extent ∧
      x.toNat = (P.physPartitionTables (partIdx partition)).startLba.toNat +
        (sector.toNat - table.startLba.toNat) ∧
      x.toNat ∈ (P.physPartitionTables (partIdx partition)).extent := by
  obtain ⟨partition, table, he, hmem, rfl⟩ := (sectorAt_eq_some_iff h hc hfit).1 hx
  have hnat := toNat_sectorAt h hc he (hends _ (List.of_mem_zip he).1) hmem
  refine ⟨partition, table, he, hmem, hnat, ?_⟩
  have hnum := congrArg BitVec.toNat (numSectors_of_mem_entries h hc he)
  obtain ⟨hlo, hhi⟩ := Extent.mem_def.1 hmem
  simp only [PartitionTable.extent] at hlo hhi
  rw [hnat]
  exact Extent.mem_mk.2 ⟨Nat.le_add_right _ _, by omega⟩

/-- **A client's layout is faithful where its partitions end in range.** -/
theorem client_faithful (h : Accepted P cfg) (hdisj : PartitionsDisjoint P)
    (hc : client ∈ (postInit P cfg).clients) (hfit : client.Fits P)
    (hends : ∀ partition ∈ client.partitions, EndsInRange P partition) : client.Faithful P where
  tiling := (chain_entries h hc hfit).1.tiling
  lookup := isSome_calulateSectorOffset_iff h hc hfit
  sectors := by
    intro i partition table hpartition htable
    have he : (partition, table) ∈ client.entries :=
      List.mem_of_getElem? (List.getElem?_zip_eq_some.2 ⟨hpartition, htable⟩)
    refine ⟨numSectors_of_mem_entries h hc he, fun j hj ↦ ?_⟩
    obtain ⟨hchain, hlt⟩ := chain_entries h hc hfit
    have hplace : table.startLba.toNat + j ∈ table.extent :=
      Extent.mem_mk.2 ⟨Nat.le_add_right _ _, Nat.add_lt_add_left hj _⟩
    have hcap := ((hchain.tiling.covered_iff _).1 ⟨_, List.mem_map.2 ⟨_, he, rfl⟩, hplace⟩).2
    have hnat : (table.startLba + BitVec.ofNat 32 j).toNat = table.startLba.toNat + j := by
      rw [BitVec.toNat_add, BitVec.toNat_ofNat]
      omega
    have hmem : (table.startLba + BitVec.ofNat 32 j).toNat ∈ table.extent := hnat.symm ▸ hplace
    refine ⟨_, (sectorAt_eq_some_iff h hc hfit).2 ⟨partition, table, he, hmem, rfl⟩, ?_⟩
    rw [toNat_sectorAt h hc he (hends _ (List.of_mem_zip he).1) hmem, hnat, Nat.add_sub_cancel_left]
  injective := by
    intro sector sector' x hx hx'
    obtain ⟨p, t, he, hmem, hnat, hin⟩ := exists_entry_of_sectorAt h hc hfit hends hx
    obtain ⟨p', t', he', hmem', hnat', hin'⟩ := exists_entry_of_sectorAt h hc hfit hends hx'
    have heq := eq_of_mem_of_pairwise (pairwise_apart_phys h hdisj hc) he he' hin hin'
    rw [Prod.mk.injEq] at heq
    obtain ⟨rfl, rfl⟩ := heq
    have hlo := hmem.1
    have hlo' := hmem'.1
    simp only [PartitionTable.extent] at hlo hlo'
    exact BitVec.eq_of_toNat_eq (by omega)

/-- **The layout is faithful exactly where the partitions that are assigned end within the 32-bit
sector numbers**: for every accepted configuration, every drive whose partitions do not overlap, and
clients whose virtual disks can be numbered. -/
theorem faithful_iff (h : Accepted P cfg) (hdisj : PartitionsDisjoint P)
    (hfit : ∀ client ∈ (postInit P cfg).clients, client.Fits P) :
    Faithful P (postInit P cfg) ↔
      ∀ client ∈ (postInit P cfg).clients, ∀ partition ∈ client.partitions,
        EndsInRange P partition := by
  constructor
  · intro hfaithful client hc partition hp
    obtain ⟨i, hi⟩ := List.mem_iff_getElem?.1 hp
    have hlt : i < client.partitionTables.length := by
      have hi' := (List.getElem?_eq_some_iff.1 hi).1
      rw [h.length_partitionTables hc]
      exact Nat.lt_of_lt_of_le hi' (h.length_partitions hc)
    obtain ⟨hnum, hsectors⟩ := (hfaithful.client client hc).sectors i partition _ hi
      (List.getElem?_eq_getElem hlt)
    have hnum' := congrArg BitVec.toNat hnum
    have hstart := (P.physPartitionTables (partIdx partition)).startLba.isLt
    change (P.physPartitionTables (partIdx partition)).startLba.toNat +
      (P.physPartitionTables (partIdx partition)).numSectors.toNat ≤ 2 ^ 32
    rcases Nat.eq_zero_or_pos client.partitionTables[i].numSectors.toNat with hzero | hpos
    · omega
    · -- the last sector has a 32-bit number
      obtain ⟨x, -, hx⟩ := hsectors (client.partitionTables[i].numSectors.toNat - 1) (by omega)
      have hxlt := x.isLt
      omega
  · intro hends
    refine ⟨fun client hc ↦ client_faithful h hdisj hc (hfit client hc) (hends client hc), ?_⟩
    intro client hc client' hc' hne sector sector' x hx hx'
    obtain ⟨p, t, he, -, -, hin⟩ :=
      exists_entry_of_sectorAt h hc (hfit client hc) (hends client hc) hx
    obtain ⟨p', t', he', -, -, hin'⟩ :=
      exists_entry_of_sectorAt h hc' (hfit client' hc') (hends client' hc') hx'
    have hp := (List.of_mem_zip he).1
    have hp' := (List.of_mem_zip he').1
    have hidx : partIdx p ≠ partIdx p' := fun heq ↦ hne (h.eq_of_partIdx_eq hc hc' hp hp' heq)
    exact hdisj _ (h.partIdx_lt hc hp) _ (h.partIdx_lt hc' hp') hidx _ hin hin'

end

/-! ## A partition that runs past the last sector number -/

theorem fits_twoPartitions : ∀ client ∈ (postInit twoPartitions oneEach).clients,
    client.Fits twoPartitions := by
  intro client hc
  simp only [Client.Fits]
  revert client
  decide

/-- The theorem at two clients with a partition each. -/
theorem faithful_iff_oneEach : Faithful twoPartitions (postInit twoPartitions oneEach) ↔
    ∀ client ∈ (postInit twoPartitions oneEach).clients, ∀ partition ∈ client.partitions,
      EndsInRange twoPartitions partition :=
  faithful_iff oneEach_accepted twoPartitions_disjoint fits_twoPartitions

/-- A drive whose first partition has its last four sectors behind sector `2 ^ 32 - 1`, and a second
partition at the start of the disk. -/
def overrunningPartition : Platform := { twoPartitions with
  physPartitionTables := fun i ↦
    match i with
    | 0 => ⟨0, 0, 0, 0x83, 0, 0, 4294967292, 8⟩
    | 1 => ⟨0, 0, 0, 0x83, 0, 0, 1, 8⟩
    | _ => .zero }

theorem overrunningPartition_disjoint : PartitionsDisjoint overrunningPartition := by
  have hplace : ∀ {i x : ℕ}, x ∈ (overrunningPartition.physPartitionTables i).extent →
      (i = 0 ∧ 4294967292 ≤ x) ∨ (i = 1 ∧ x < 9) := by
    intro i x h
    rcases i with _ | _ | i
    · exact .inl ⟨rfl, h.1⟩
    · exact .inr ⟨rfl, h.2⟩
    · exact absurd h.2 (Nat.not_lt.2 h.1)
  intro i _ j _ hij x hi hj
  have hi' := hplace hi
  have hj' := hplace hj
  omega

theorem fits_overrunningPartition : ∀ client ∈ (postInit overrunningPartition oneEach).clients,
    client.Fits overrunningPartition := by
  intro client hc
  simp only [Client.Fits]
  revert client
  decide

/-- **The sixth sector of the first client's disk and the first of the second client's** are the
same sector of the drive. -/
theorem not_faithful_overrunning :
    ¬ ∀ (P : Platform) (cfg : Config), Accepted P cfg → PartitionsDisjoint P →
        (∀ client ∈ (postInit P cfg).clients, client.Fits P) → Faithful P (postInit P cfg) := by
  intro h
  have hfaithful := h overrunningPartition oneEach (by decide) overrunningPartition_disjoint
    fits_overrunningPartition
  have hfirst : sectorAt overrunningPartition
      (layoutClient overrunningPartition (Client.ofBadge oneEach 1)) 69 = some 1 := by decide
  have hsecond : sectorAt overrunningPartition
      (layoutClient overrunningPartition (Client.ofBadge oneEach 2)) 64 = some 1 := by decide
  exact hfaithful.apart _ (by decide) _ (by decide) (by decide) 69 64 1 hfirst hsecond

end Sataserver
end CamkesVm
