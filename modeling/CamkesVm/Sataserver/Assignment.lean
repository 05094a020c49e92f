import CamkesVm.Sataserver.Isolation

/-!
# Which configurations are accepted

A configuration is in order if every list is short enough, names partitions that there are, and no
partition is listed twice (`ListsOk`).  `postInit` accepts exactly these.  What it refuses it says
so of, and it serves the clients all the same: their records are found, with nothing in their
tables, so that no request gets to the disk.

That is how it should be.  But a list is copied into the client's record before its length is
checked.  One that is too long runs out of the array and over the records that follow, where it can
leave a record under the badge of another client, with a table of its own.  So the configuration is
validated as it should be as long as there is no such copy (`validatedExactly_iff`), and there are
lists that do leave such a record (`not_validatedExactly_forged`).

## What is here

* `ListsOk` — the lists in the words of the configuration, and `listsOk_iff` in terms of the table.
* `loadClients_iff`, `loadClients_overruns`, `loadClients_refused` — the ways the first loop can go:
  to its end, to a list that is too long, or to one that names a partition wrongly.
* `Client.Serves` — some request with this record would touch the disk.
* `ValidatedExactly`, `Harmless`, `InBounds`, `validatedExactly_iff` — the law and the exact
  condition. What a copy out of bounds does is the platform's business, so the statement is about
  everything that it might do.
* `clientAt`, `memoryFrom`, `forgedBytes` — the layout of records on a 32-bit machine, for the one
  example that needs it.
-/

set_option autoImplicit false

namespace CamkesVm
namespace Sataserver

/-! ## Lists that are in order -/

/-- The lists of some clients are in order. -/
structure ListsOk (cfg : Config) (badges : List (BitVec 32)) : Prop where
  /-- None is too long. -/
  length : ∀ badge ∈ badges, (cfg.partitionList badge).length ≤ maxPartitions
  /-- They name partitions that there are. -/
  range : ∀ badge ∈ badges, ∀ partition ∈ cfg.partitionList badge,
    1 ≤ partition.toNat ∧ partition.toNat ≤ maxPartitions
  /-- They name none twice. -/
  nodup : (badges.flatMap cfg.partitionList).Nodup

/-- Partitions start counting at 1; the place of partition 0 wraps round. -/
theorem partIdx_lt_iff (partition : BitVec 8) :
    partIdx partition < maxPartitions ↔ 1 ≤ partition.toNat ∧ partition.toNat ≤ maxPartitions := by
  have hlt := partition.isLt
  have hone : (1 : BitVec 8).toNat = 1 := rfl
  simp only [partIdx, BitVec.toNat_sub, hone, maxPartitions]
  omega

theorem partIdx_injective : Function.Injective partIdx := by
  intro p q h
  have hlt := p.isLt
  have hlt' := q.isLt
  have hone : (1 : BitVec 8).toNat = 1 := rfl
  simp only [partIdx, BitVec.toNat_sub, hone] at h
  exact BitVec.eq_of_toNat_eq (by omega)

theorem assignedParts_eq (cfg : Config) (badges : List (BitVec 32)) :
    assignedParts cfg badges = (badges.flatMap cfg.partitionList).map partIdx := by
  rw [assignedParts, List.map_flatMap]

/-- **In terms of the places in the physical table.** -/
theorem listsOk_iff (cfg : Config) (badges : List (BitVec 32)) : ListsOk cfg badges ↔
    (∀ badge ∈ badges, (cfg.partitionList badge).length ≤ maxPartitions) ∧
      (∀ i ∈ assignedParts cfg badges, i < maxPartitions) ∧
      (assignedParts cfg badges).Nodup := by
  have hrange : (∀ i ∈ assignedParts cfg badges, i < maxPartitions) ↔
      ∀ badge ∈ badges, ∀ partition ∈ cfg.partitionList badge,
        1 ≤ partition.toNat ∧ partition.toNat ≤ maxPartitions := by
    simp only [assignedParts_eq, List.forall_mem_map, List.forall_mem_flatMap, partIdx_lt_iff]
  rw [hrange, assignedParts_eq, List.nodup_map_iff partIdx_injective]
  exact ⟨fun h ↦ ⟨h.length, h.range, h.nodup⟩, fun h ↦ ⟨h.1, h.2.1, h.2.2⟩⟩

/-! ## Accepting them -/

/-- **A list of free partitions**, none of them twice, is assigned. -/
theorem exists_checkPartitions {assigned : ℕ → Bool} {partitions : List (BitVec 8)}
    (hlt : ∀ i ∈ partitions.map partIdx, i < maxPartitions)
    (hfresh : ∀ i ∈ partitions.map partIdx, assigned i = false)
    (hnodup : (partitions.map partIdx).Nodup) :
    ∃ assigned', checkPartitions assigned partitions = some assigned' := by
  induction partitions generalizing assigned with
  | nil => exact ⟨assigned, rfl⟩
  | cons partition rest ih =>
    rw [List.map_cons, List.forall_mem_cons] at hlt hfresh
    rw [List.map_cons, List.nodup_cons] at hnodup
    have hok : checkPartIsAssigned assigned partition =
        some (Function.update assigned (partIdx partition) true) := by
      have hno : ¬(maxPartitions ≤ partIdx partition ∨ assigned (partIdx partition) = true) := by
        rw [not_or, Nat.not_le, hfresh.1]
        exact ⟨hlt.1, Bool.false_ne_true⟩
      exact if_neg hno
    simp only [checkPartitions, hok]
    refine ih hlt.2 (fun i hi ↦ ?_) hnodup.2
    have hne : i ≠ partIdx partition := fun heq ↦ hnodup.1 (heq ▸ hi)
    rw [Function.update_of_ne hne]
    exact hfresh.2 i hi

/-- **The loop over the clients comes to its end** exactly if their lists are in order. -/
theorem loadClients_iff {P : Platform} {cfg : Config} {assigned : ℕ → Bool}
    {badges : List (BitVec 32)} : (loadClients P cfg assigned badges).1 = true ↔
      ListsOk cfg badges ∧ ∀ i ∈ assignedParts cfg badges, assigned i = false := by
  constructor
  · intro h
    obtain ⟨-, hlength, assigned', hassigns⟩ := loadClients_assigns h
    exact ⟨(listsOk_iff cfg badges).mpr ⟨hlength, hassigns.lt, hassigns.nodup⟩, hassigns.fresh⟩
  · rintro ⟨hok, hfresh⟩
    rw [listsOk_iff] at hok
    induction badges generalizing assigned with
    | nil => rfl
    | cons badge rest ih =>
      obtain ⟨hlength, hlt, hnodup⟩ := hok
      rw [List.forall_mem_cons] at hlength
      rw [assignedParts, List.flatMap_cons, List.forall_mem_append] at hlt hfresh
      rw [assignedParts, List.flatMap_cons, List.nodup_append] at hnodup
      obtain ⟨mid, hmid⟩ := exists_checkPartitions hlt.1 hfresh.1 hnodup.1
      have hassigns := checkPartitions_assigns hmid
      have hrest : (loadClients P cfg mid rest).1 = true := by
        refine ih ⟨hlength.2, hlt.2, hnodup.2.1⟩ fun i hi ↦ ?_
        by_contra htaken
        rcases (hassigns.taken i).mp (Bool.not_eq_false _ ▸ htaken) with hbefore | hhere
        · exact absurd (hbefore.symm.trans (hfresh.2 i hi)) (by decide)
        · exact hnodup.2.2 i hhere i hi rfl
      rw [loadClients_cons_of_some hlength.1 hmid]
      exact hrest

theorem accepted_iff (P : Platform) (cfg : Config) : Accepted P cfg ↔ ListsOk cfg cfg.badges := by
  have hload : Accepted P cfg ↔ (loadClients P cfg (fun _ ↦ false) cfg.badges).1 = true := by
    rw [Accepted, postInit, Bool.not_eq_false']
  rw [hload, loadClients_iff, and_iff_left (fun _ _ ↦ rfl)]

/-! ## Refusing the others -/

/-- A list that is too long is reached: those of the clients before are in order. -/
structure Overruns (cfg : Config) (before : List (BitVec 32)) (badge : BitVec 32)
    (rest : List (BitVec 32)) : Prop where
  /-- The client is one of the clients. -/
  badges : cfg.badges = before ++ badge :: rest
  /-- The lists before are in order. -/
  before : ListsOk cfg before
  /-- Its own is too long. -/
  length : maxPartitions < (cfg.partitionList badge).length

/-- The records that the copy of a client's list leaves, from its own on. -/
def copied (P : Platform) (cfg : Config) (badge : BitVec 32) (rest : List (BitVec 32)) :
    List Client := P.overrun badge (cfg.partitionList badge) (rest.length + 1)

/-- **A list that is too long** ends the loop with the records that its copy leaves. -/
theorem loadClients_overruns {P : Platform} {cfg : Config} {assigned : ℕ → Bool}
    {before rest : List (BitVec 32)} {badge : BitVec 32}
    (h : (loadClients P cfg assigned before).1 = true)
    (hlong : maxPartitions < (cfg.partitionList badge).length) :
    loadClients P cfg assigned (before ++ badge :: rest) =
      (false, before.map (Client.ofBadge cfg) ++ copied P cfg badge rest) := by
  induction before generalizing assigned with
  | nil => exact loadClients_cons_of_lt hlong rest
  | cons first before ih =>
    obtain ⟨hlen, mid, hcheck, hend⟩ := exists_of_loadClients_cons h
    rw [List.cons_append, loadClients_cons_of_some hlen hcheck, ih hend]
    rfl

/-- **When the loop does not come to its end**, a list that is too long was reached, or the records
have nothing in their tables. -/
theorem loadClients_refused {P : Platform} {cfg : Config} {assigned : ℕ → Bool}
    {badges : List (BitVec 32)} (h : (loadClients P cfg assigned badges).1 = false) :
    (∃ before badge rest, badges = before ++ badge :: rest ∧
        (loadClients P cfg assigned before).1 = true ∧
        maxPartitions < (cfg.partitionList badge).length) ∨
      ∀ client ∈ (loadClients P cfg assigned badges).2, client.partitionTables = clearedTables := by
  induction badges generalizing assigned with
  | nil => exact .inr fun _ hc ↦ absurd hc List.not_mem_nil
  | cons badge rest ih =>
    by_cases hlen : maxPartitions < (cfg.partitionList badge).length
    · exact .inl ⟨[], badge, rest, rfl, rfl, hlen⟩
    have hle := Nat.not_lt.mp hlen
    cases hcheck : checkPartitions assigned (cfg.partitionList badge) with
    | none =>
      rw [loadClients_cons_of_none hle hcheck]
      refine .inr (List.forall_mem_cons.mpr ⟨rfl, fun client hc ↦ ?_⟩)
      rw [List.eq_of_mem_replicate hc]
      rfl
    | some mid =>
      rw [loadClients_cons_of_some hle hcheck] at h ⊢
      rcases ih h with ⟨before, badge', rest', rfl, hbefore, hlong⟩ | hcleared
      · refine .inl ⟨badge :: before, badge', rest', rfl, ?_, hlong⟩
        rw [loadClients_cons_of_some hle hcheck]
        exact hbefore
      · exact .inr (List.forall_mem_cons.mpr ⟨rfl, hcleared⟩)

section

variable {P : Platform} {cfg : Config} {before rest : List (BitVec 32)} {badge : BitVec 32}

theorem Overruns.loadClients_eq (h : Overruns cfg before badge rest) (P : Platform) :
    loadClients P cfg (fun _ ↦ false) cfg.badges =
      (false, before.map (Client.ofBadge cfg) ++ copied P cfg badge rest) := by
  rw [h.badges]
  exact loadClients_overruns (loadClients_iff.mpr ⟨h.before, fun _ _ ↦ rfl⟩) h.length

theorem Overruns.clients_eq (h : Overruns cfg before badge rest) (P : Platform) :
    (postInit P cfg).clients = before.map (Client.ofBadge cfg) ++ copied P cfg badge rest := by
  rw [postInit, h.loadClients_eq P]
  rfl

theorem Overruns.not_listsOk (h : Overruns cfg before badge rest) : ¬ListsOk cfg cfg.badges := by
  intro hok
  have hmem : badge ∈ cfg.badges := h.badges ▸ List.mem_append_right _ List.mem_cons_self
  exact absurd (hok.length badge hmem) (Nat.not_le.mpr h.length)

/-- **A refused configuration** has a list that is too long, or leaves all tables cleared. -/
theorem overruns_or_cleared (P : Platform) (h : ¬ListsOk cfg cfg.badges) :
    (∃ before badge rest, Overruns cfg before badge rest) ∨
      ∀ client ∈ (postInit P cfg).clients, client.partitionTables = clearedTables := by
  have hload : (loadClients P cfg (fun _ ↦ false) cfg.badges).1 = false := by
    rw [← Bool.not_eq_true, loadClients_iff]
    exact fun hok ↦ h hok.1
  rcases loadClients_refused hload with ⟨before, badge, rest, hbadges, hbefore, hlong⟩ | hcleared
  · exact .inl ⟨before, badge, rest, hbadges, (loadClients_iff.mp hbefore).1, hlong⟩
  · refine .inr ?_
    rw [postInit, hload]
    exact hcleared

end

/-! ## Getting to the disk -/

/-- Requests of the client with this record can get to the disk. -/
def Client.Serves (client : Client) : Prop :=
  ∃ sector : BitVec 32, virtStartSector ≤ sector.toNat ∧
    ∃ entry ∈ client.entries, entry.2.covers sector = true

theorem servedCall_eq_none_iff {P : Platform} {client : Client} {sector len : BitVec 32} :
    servedCall P client sector len = none ↔
      (virtStartSector ≤ sector.toNat →
        ∀ entry ∈ client.entries, ¬entry.2.covers sector = true) := by
  have hoffset : calulateSectorOffset P client sector = none ↔ client.entryOf sector = none := by
    rw [calulateSectorOffset]
    cases client.entryOf sector <;> simp
  rw [servedCall]
  split
  · rename_i hlow
    exact iff_of_true rfl fun hle ↦ absurd hlow (Nat.not_lt.mpr hle)
  · rename_i hlow
    rw [Option.map_eq_none_iff, hoffset, Client.entryOf, List.find?_eq_none]
    exact ⟨fun h _ ↦ h, fun h ↦ h (Nat.not_lt.mp hlow)⟩

/-- No request of a client gets to the disk exactly if the record found for it serves none. -/
theorem forall_driverCall_eq_none_iff {P : Platform} {server : Server}
    (hinit : server.doneInit = true) (id : BitVec 32) :
    (∀ (D : SataDriver) (disk : Disk) (dataport : Dataport) (sector len : BitVec 32)
        (dir : Direction), driverCall P D server id disk dataport sector len dir = none) ↔
      ∀ client, findClient server.clients id = some client → ¬client.Serves := by
  constructor
  · rintro hnone client hfind ⟨sector, hle, entry, hentry, hcovers⟩
    have hcall := hnone .faultless (fun _ _ ↦ 0) (fun _ ↦ 0) sector 0 .rx
    rw [driverCall_eq_findClient P _ hinit, if_neg (by decide), hfind, Option.bind_some,
      servedCall_eq_none_iff] at hcall
    exact hcall hle entry hentry hcovers
  · intro hserves D disk dataport sector len dir
    rw [driverCall_eq_findClient P D hinit]
    split
    · rfl
    · cases hfind : findClient server.clients id with
      | none => rfl
      | some client =>
        rw [Option.bind_some, servedCall_eq_none_iff]
        exact fun hle entry hentry hcovers ↦
          hserves client hfind ⟨sector, hle, entry, hentry, hcovers⟩

/-- Cleared tables have no sectors. -/
theorem not_serves_of_cleared {client : Client} (h : client.partitionTables = clearedTables) :
    ¬client.Serves := by
  rintro ⟨sector, -, ⟨partition, table⟩, hentry, hcovers⟩
  have hmem := (List.of_mem_zip hentry).2
  rw [h] at hmem
  have hzero : table = .zero := List.eq_of_mem_replicate hmem
  rw [hzero, PartitionTable.covers_iff] at hcovers
  exact absurd hcovers.1.2 (Nat.not_lt.mpr (Nat.zero_le _))

/-! ## Validated exactly -/

/-- The configuration is validated as it should be. -/
structure ValidatedExactly (P : Platform) (cfg : Config) : Prop where
  /-- It is accepted exactly if the lists are in order. -/
  accepted : (postInit P cfg).invalidConfig = false ↔ ListsOk cfg cfg.badges
  /-- Otherwise it is invalid. -/
  invalid : ¬ListsOk cfg cfg.badges → (postInit P cfg).invalidConfig = true
  /-- And it is said to be. -/
  status : ¬ListsOk cfg cfg.badges → clientGetStatus (postInit P cfg) = .invalidConf
  /-- No request of a client with a list that is short enough gets to the disk. -/
  refused : ¬ListsOk cfg cfg.badges → ∀ id ∈ cfg.badges,
    (cfg.partitionList id).length ≤ maxPartitions →
      ∀ (D : SataDriver) (disk : Disk) (dataport : Dataport) (sector len : BitVec 32)
        (dir : Direction),
        driverCall P D (postInit P cfg) id disk dataport sector len dir = none

/-- The copies of lists that are too long do no harm: where one is reached, what it leaves has no
record for a client with a list that is short enough, or the last such serves no request. -/
def Harmless (P : Platform) (cfg : Config) : Prop :=
  ∀ before badge rest, Overruns cfg before badge rest →
    ∀ id ∈ cfg.badges, (cfg.partitionList id).length ≤ maxPartitions →
      ∀ record, findClient (copied P cfg badge rest) id = some record → ¬record.Serves

/-- There is no copy out of bounds, or no client that it could harm. -/
def InBounds (cfg : Config) : Prop :=
  (∀ before badge rest, ¬Overruns cfg before badge rest) ∨
    ∀ id ∈ cfg.badges, maxPartitions < (cfg.partitionList id).length

/-- What is in order is accepted, and what is not is said to be invalid. -/
theorem invalidConfig_of_not_listsOk (P : Platform) {cfg : Config}
    (h : ¬ListsOk cfg cfg.badges) : (postInit P cfg).invalidConfig = true := by
  rw [← accepted_iff P, Accepted, Bool.not_eq_false] at h
  exact h

/-- **A platform on which copies do no harm** validates exactly. -/
theorem validatedExactly_of_harmless {P : Platform} {cfg : Config} (h : Harmless P cfg) :
    ValidatedExactly P cfg where
  accepted := accepted_iff P cfg
  invalid := invalidConfig_of_not_listsOk P
  status := by
    intro hno
    rw [clientGetStatus, if_pos (invalidConfig_of_not_listsOk P hno)]
  refused := by
    intro hno id hid hshort
    rw [forall_driverCall_eq_none_iff (postInit_doneInit P cfg)]
    intro client hfind
    rcases overruns_or_cleared P hno with ⟨before, badge, rest, hover⟩ | hcleared
    · rw [hover.clients_eq P, findClient_append, Option.or_eq_some_iff] at hfind
      rcases hfind with hlater | ⟨-, hbefore⟩
      · exact h before badge rest hover id hid hshort client hlater
      · obtain ⟨badge', -, rfl⟩ := List.mem_map.mp (mem_of_findClient hbefore)
        exact not_serves_of_cleared rfl
    · exact not_serves_of_cleared (hcleared client (mem_of_findClient hfind))

theorem harmless_of_validatedExactly {P : Platform} {cfg : Config} (h : ValidatedExactly P cfg) :
    Harmless P cfg := by
  intro before badge rest hover id hid hshort record hrecord
  have hnone := h.refused hover.not_listsOk id hid hshort
  rw [forall_driverCall_eq_none_iff (postInit_doneInit P cfg)] at hnone
  refine hnone record ?_
  rw [hover.clients_eq P, findClient_append, hrecord]
  rfl

/-- A record for a client, with a table that the drive has not. -/
def forged (id : BitVec 32) : Client := ⟨id, [1], [⟨0, 0, 0, 0x83, 0, 0, 64, 8⟩], 0⟩

theorem forged_serves (id : BitVec 32) : (forged id).Serves :=
  ⟨64, le_rfl, _, List.mem_singleton_self _, by decide⟩

theorem findClient_replicate_forged (id : BitVec 32) (n : ℕ) :
    findClient (List.replicate (n + 1) (forged id)) id = some (forged id) := by
  rw [List.replicate_succ', findClient_append]
  have hfound : findClient [forged id] id = some (forged id) := if_pos rfl
  rw [hfound, Option.some_or]

/-- **A configuration is validated exactly as long as no list is copied out of bounds.**  Whatever
the drive, a configuration is validated exactly, whatever a copy out of bounds leaves behind, if
and only if there is no such copy or no client that it could harm.  On a given platform it is if
and only if what the copy leaves there does no harm. -/
theorem validatedExactly_iff (P : Platform) (cfg : Config) :
    ((∀ overrun, ValidatedExactly { P with overrun := overrun } cfg) ↔ InBounds cfg) ∧
      (ValidatedExactly P cfg ↔ Harmless P cfg) := by
  refine ⟨⟨fun hall ↦ ?_, fun hin overrun ↦ ?_⟩, harmless_of_validatedExactly,
    validatedExactly_of_harmless⟩
  · rw [InBounds, or_iff_not_imp_left]
    intro hover id hid
    push Not at hover
    obtain ⟨before, badge, rest, hover⟩ := hover
    by_contra hshort
    have hharmless := harmless_of_validatedExactly
      (hall fun _ _ n ↦ List.replicate n (forged id))
    exact hharmless before badge rest hover id hid (Nat.not_lt.mp hshort) (forged id)
      (findClient_replicate_forged id rest.length) (forged_serves id)
  · refine validatedExactly_of_harmless fun before badge rest hover id hid hshort ↦ ?_
    rcases hin with hnone | hlong
    · exact absurd hover (hnone before badge rest)
    · exact absurd (hlong id hid) (Nat.not_lt.mpr hshort)

/-! ## A list with a record in it -/

/-- The 16 bits at an address, the lowest byte first. -/
def halfAt (mem : ℕ → BitVec 8) (a : ℕ) : BitVec 16 := mem (a + 1) ++ mem a

/-- The 32 bits at an address. -/
def wordAt (mem : ℕ → BitVec 8) (a : ℕ) : BitVec 32 := halfAt mem (a + 2) ++ halfAt mem a

/-- The table entry at an address. -/
def tableAt (mem : ℕ → BitVec 8) (a : ℕ) : PartitionTable :=
  ⟨mem a, mem (a + 1), halfAt mem (a + 2), mem (a + 4), mem (a + 5), halfAt mem (a + 6),
    wordAt mem (a + 8), wordAt mem (a + 12)⟩

/-- The record at an address, as a 32-bit machine has it: 88 bytes, the pointer to the dataport
last.  What is read is what `num_partitions` says, be it beyond the arrays. -/
def clientAt (mem : ℕ → BitVec 8) (a : ℕ) : Client where
  clientId := wordAt mem a
  partitions := (List.range (mem (a + 8)).toNat).map fun i ↦ mem (a + 4 + i)
  partitionTables := (List.range (max maxPartitions (mem (a + 8)).toNat)).map fun i ↦
    tableAt mem (a + 12 + 16 * i)
  capacity := wordAt mem (a + 80) ++ wordAt mem (a + 76)

/-- Memory from a client's record on, when `client_get_partitions` has copied the list and stored
its length: what the list does not reach is as `calloc` has left it. -/
def memoryFrom (badge : BitVec 32) (list : List (BitVec 8)) : ℕ → BitVec 8 := fun k ↦
  if k < 4 then (badge >>> (8 * k)).setWidth 8
  else if k = 8 then BitVec.ofNat 8 list.length
  else list.getD (k - 4) 0

/-- The drive of `twoPartitions`, on a 32-bit machine. -/
def copyingPlatform : Platform :=
  { twoPartitions with
    overrun := fun badge list n ↦
      (List.range n).map fun i ↦ clientAt (memoryFrom badge list) (88 * i) }

/-- The bytes of a record with badge 1 and a virtual partition at sector 64. -/
def forgedBytes : List (BitVec 8) :=
  wordBytes 1 ++ [1, 0, 0, 0] ++ [1, 0, 0, 0] ++ entryBytes ⟨0, 0, 0, 0x83, 0, 0, 64, 8⟩ ++
    List.replicate 56 0 ++ wordBytes 0x00500000

/-- Three clients, the second with a list that goes on to the end of the third one's record. -/
def forgingConfig : Config where
  badges := [1, 2, 3]
  badges_nodup := by decide
  partitionList := fun badge ↦
    if badge = 1 then [1] else if badge = 2 then List.replicate 84 0 ++ forgedBytes else []
  length_partitionList_lt := by
    intro badge
    split
    · decide
    · split
      · decide +kernel
      · decide

/-- **A list with a record for another client in it**: the configuration is refused, and the first
client, whose list is in order, writes to the disk. -/
theorem not_validatedExactly_forged :
    ¬ ∀ (P : Platform) (cfg : Config), ValidatedExactly P cfg := by
  intro h
  have hforged := h copyingPlatform forgingConfig
  have hinvalid : (postInit copyingPlatform forgingConfig).invalidConfig = true := by
    decide +kernel
  have hno : ¬ListsOk forgingConfig forgingConfig.badges := by
    rw [← accepted_iff copyingPlatform, Accepted, hinvalid]
    exact Bool.noConfusion
  have hnone := hforged.refused hno 1 (by decide) (by decide) .faultless (fun _ _ ↦ 0)
    (fun _ ↦ 0) 64 512 .tx
  have hcall : driverCall copyingPlatform .faultless (postInit copyingPlatform forgingConfig) 1
      (fun _ _ ↦ 0) (fun _ ↦ 0) 64 512 .tx = some ⟨2048, 1⟩ := by
    rw [driverCall_eq_findClient _ _ (postInit_doneInit _ _), if_neg (by decide)]
    decide +kernel
  rw [hcall] at hnone
  exact absurd hnone (Option.some_ne_none _)

end Sataserver
end CamkesVm
