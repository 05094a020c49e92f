import CamkesVm.Sataserver.Request
import Mathlib.Data.List.Pairwise

/-!
# The Sataserver: what an accepted configuration looks like

`postInit` threads one set of assigned partitions through the lists of all clients.  `Assigns` says
what a stretch of this does to the set; joined over the clients it says that the lists of an
accepted configuration name partitions of the drive, and none of them twice, within a list or in
two.

## What is here

* `Assigns` — the loop over one list as a relation, and its composition for several clients.
* `assignedParts` — all partitions that the configuration lists, in the order of the clients.
* `eq_of_partIdx_eq` — in an accepted configuration a partition has one owner.
* `twoPartitions`, `oneEach`, `firstClient` — a small drive with two clients, which the examples of
  the other modules use too.

The modules after this one take what they need to know of an accepted configuration from here.
-/

set_option autoImplicit false

namespace CamkesVm
namespace Sataserver

/-! ## Assigning partitions -/

/-- Assigning the partitions at `parts`, none of them taken before, turns `assigned` into
`assigned'`. -/
structure Assigns (assigned : ℕ → Bool) (parts : List ℕ) (assigned' : ℕ → Bool) : Prop where
  /-- Each is a partition of the drive. -/
  lt : ∀ i ∈ parts, i < maxPartitions
  /-- None was taken. -/
  fresh : ∀ i ∈ parts, assigned i = false
  /-- None comes twice. -/
  nodup : parts.Nodup
  /-- Afterwards these are taken, and those that were. -/
  taken : ∀ i, assigned' i = true ↔ assigned i = true ∨ i ∈ parts

namespace Assigns

variable {assigned assigned' assigned'' : ℕ → Bool} {parts parts' : List ℕ}

theorem nil (assigned : ℕ → Bool) : Assigns assigned [] assigned :=
  ⟨by simp, by simp, .nil, by simp⟩

/-- Two stretches, one after the other. -/
theorem append (h : Assigns assigned parts assigned') (h' : Assigns assigned' parts' assigned'') :
    Assigns assigned (parts ++ parts') assigned'' where
  lt := by
    intro i hi
    exact (List.mem_append.1 hi).elim (h.lt i) (h'.lt i)
  fresh := by
    intro i hi
    rcases List.mem_append.1 hi with hi | hi
    · exact h.fresh i hi
    · have hni : ¬assigned' i = true := by simp [h'.fresh i hi]
      simpa using fun ha ↦ hni ((h.taken i).2 (.inl ha))
  nodup := by
    refine List.nodup_append.2 ⟨h.nodup, h'.nodup, fun i hi j hj hij ↦ ?_⟩
    subst hij
    have htaken : assigned' i = true := (h.taken i).2 (.inr hi)
    rw [h'.fresh i hj] at htaken
    exact absurd htaken (by simp)
  taken := by
    intro i
    rw [h'.taken, h.taken, List.mem_append, or_assoc]

end Assigns

theorem checkPartIsAssigned_assigns {assigned assigned' : ℕ → Bool} {partition : BitVec 8}
    (h : checkPartIsAssigned assigned partition = some assigned') :
    Assigns assigned [partIdx partition] assigned' := by
  simp only [checkPartIsAssigned] at h
  split at h
  · simp at h
  · rename_i hok
    rw [not_or, Nat.not_le, Bool.not_eq_true] at hok
    rw [Option.some.injEq] at h
    subst h
    change partIdx partition < maxPartitions ∧ assigned (partIdx partition) = false at hok
    refine ⟨by simpa using hok.1, by simpa using hok.2, List.nodup_singleton _, fun i ↦ ?_⟩
    rw [List.mem_singleton, Function.update_apply]
    by_cases hi : i = partIdx partition
    · simp [hi, partIdx]
    · simp only [partIdx] at hi ⊢
      rw [if_neg hi]
      simp only [hi, or_false]

/-- The loop over one list assigns what the list names. -/
theorem checkPartitions_assigns {assigned assigned' : ℕ → Bool} {partitions : List (BitVec 8)}
    (h : checkPartitions assigned partitions = some assigned') :
    Assigns assigned (partitions.map partIdx) assigned' := by
  induction partitions generalizing assigned with
  | nil =>
    rw [checkPartitions, Option.some.injEq] at h
    subst h
    exact .nil _
  | cons partition rest ih =>
    rw [checkPartitions] at h
    split at h
    · simp at h
    · rename_i mid hmid
      exact (checkPartIsAssigned_assigns hmid).append (ih h)

/-- The partitions listed for some badges, as places in the physical table. -/
def assignedParts (cfg : Config) (badges : List (BitVec 32)) : List ℕ :=
  badges.flatMap fun badge ↦ (cfg.partitionList badge).map partIdx

section

variable {P : Platform} {cfg : Config} {assigned mid : ℕ → Bool} {badge : BitVec 32}

/-- A list that is too long ends the loop. -/
theorem loadClients_cons_of_lt (hlen : maxPartitions < (cfg.partitionList badge).length)
    (rest : List (BitVec 32)) : loadClients P cfg assigned (badge :: rest) =
      (false, P.overrun badge (cfg.partitionList badge) (rest.length + 1)) := by
  rw [loadClients, ofBadge_partitions, if_pos hlen]

/-- So does one that cannot be assigned. -/
theorem loadClients_cons_of_none (hlen : (cfg.partitionList badge).length ≤ maxPartitions)
    (hcheck : checkPartitions assigned (cfg.partitionList badge) = none)
    (rest : List (BitVec 32)) : loadClients P cfg assigned (badge :: rest) =
      (false, Client.ofBadge cfg badge :: List.replicate rest.length .zero) := by
  rw [loadClients, ofBadge_partitions, if_neg (Nat.not_lt.mpr hlen)]
  simp only [hcheck]

/-- Otherwise the loop goes on. -/
theorem loadClients_cons_of_some (hlen : (cfg.partitionList badge).length ≤ maxPartitions)
    (hcheck : checkPartitions assigned (cfg.partitionList badge) = some mid)
    (rest : List (BitVec 32)) : loadClients P cfg assigned (badge :: rest) =
      ((loadClients P cfg mid rest).1,
        Client.ofBadge cfg badge :: (loadClients P cfg mid rest).2) := by
  rw [loadClients, ofBadge_partitions, if_neg (Nat.not_lt.mpr hlen)]
  simp only [hcheck]

/-- The loop goes on past a client only with a list that is short enough and can be assigned. -/
theorem exists_of_loadClients_cons {rest : List (BitVec 32)}
    (h : (loadClients P cfg assigned (badge :: rest)).1 = true) :
    (cfg.partitionList badge).length ≤ maxPartitions ∧
      ∃ mid, checkPartitions assigned (cfg.partitionList badge) = some mid ∧
        (loadClients P cfg mid rest).1 = true := by
  by_cases hlen : maxPartitions < (cfg.partitionList badge).length
  · rw [loadClients_cons_of_lt hlen] at h
    exact absurd h Bool.false_ne_true
  · have hle := Nat.not_lt.mp hlen
    refine ⟨hle, ?_⟩
    cases hcheck : checkPartitions assigned (cfg.partitionList badge) with
    | none =>
      rw [loadClients_cons_of_none hle hcheck] at h
      exact absurd h Bool.false_ne_true
    | some mid =>
      rw [loadClients_cons_of_some hle hcheck] at h
      exact ⟨mid, rfl, h⟩

/-- The loop over the clients, when it comes to its end, has read every record and assigned every
partition that is listed. -/
theorem loadClients_assigns {badges : List (BitVec 32)}
    (h : (loadClients P cfg assigned badges).1 = true) :
    (loadClients P cfg assigned badges).2 = badges.map (Client.ofBadge cfg) ∧
      (∀ badge ∈ badges, (cfg.partitionList badge).length ≤ maxPartitions) ∧
      ∃ assigned', Assigns assigned (assignedParts cfg badges) assigned' := by
  induction badges generalizing assigned with
  | nil => exact ⟨rfl, by simp, assigned, .nil _⟩
  | cons badge rest ih =>
    obtain ⟨hlen, mid, hcheck, hend⟩ := exists_of_loadClients_cons h
    obtain ⟨hclients, hlens, assigned', hrest⟩ := ih hend
    rw [loadClients_cons_of_some hlen hcheck, hclients]
    refine ⟨rfl, List.forall_mem_cons.2 ⟨hlen, hlens⟩, assigned', ?_⟩
    exact (checkPartitions_assigns hcheck).append hrest

end

/-! ## Finding a client -/

/-- A stretch of the loop in which no client has the badge. -/
theorem foldl_findClient_of_ne {clients : List Client} {id : BitVec 32}
    (h : ∀ c ∈ clients, c.clientId ≠ id) (found : Option Client) :
    clients.foldl (fun client c ↦ if c.clientId = id then some c else client) found = found := by
  induction clients generalizing found with
  | nil => rfl
  | cons c rest ih =>
    obtain ⟨hc, hrest⟩ := List.forall_mem_cons.1 h
    rw [List.foldl_cons, if_neg hc, ih hrest]

/-- The loop, searching from the end. -/
theorem findClient_eq_find? (clients : List Client) (id : BitVec 32) :
    findClient clients id = clients.reverse.find? fun c ↦ c.clientId = id := by
  rw [findClient]
  induction clients using List.reverseRecOn with
  | nil => rfl
  | append_singleton rest c ih =>
    rw [List.foldl_append, List.foldl_cons, List.foldl_nil, ih, List.reverse_concat,
      List.find?_cons]
    by_cases hid : c.clientId = id
    · rw [if_pos hid, decide_eq_true hid]
    · rw [if_neg hid, decide_eq_false hid]

/-- A later record goes before an earlier one. -/
theorem findClient_append (clients clients' : List Client) (id : BitVec 32) :
    findClient (clients ++ clients') id =
      (findClient clients' id).or (findClient clients id) := by
  simp only [findClient_eq_find?, List.reverse_append, List.find?_append]

theorem mem_of_findClient {clients : List Client} {id : BitVec 32} {client : Client}
    (h : findClient clients id = some client) : client ∈ clients := by
  rw [findClient_eq_find?] at h
  exact List.mem_reverse.mp (List.mem_of_find?_eq_some h)

/-- Where no two clients share a badge, the loop finds the one that has it. -/
theorem findClient_eq_some {clients : List Client} (hnd : (clients.map Client.clientId).Nodup)
    {client : Client} (hc : client ∈ clients) :
    findClient clients client.clientId = some client := by
  rw [findClient]
  generalize (none : Option Client) = found
  induction clients generalizing found with
  | nil => simp at hc
  | cons c rest ih =>
    rw [List.map_cons, List.nodup_cons] at hnd
    rw [List.foldl_cons]
    rcases List.mem_cons.1 hc with rfl | hrest
    · rw [if_pos rfl]
      refine foldl_findClient_of_ne (fun c' hc' hid ↦ hnd.1 ?_) _
      exact hid ▸ List.mem_map_of_mem hc'
    · exact ih hnd.2 hrest _

/-! ## Accepted configurations -/

/-- `post_init` accepts the configuration. -/
def Accepted (P : Platform) (cfg : Config) : Prop := (postInit P cfg).invalidConfig = false

instance (P : Platform) (cfg : Config) : Decidable (Accepted P cfg) :=
  inferInstanceAs (Decidable (_ = _))

namespace Accepted

variable {P : Platform} {cfg : Config}

theorem loaded (h : Accepted P cfg) : (loadClients P cfg (fun _ ↦ false) cfg.badges).1 = true := by
  simpa [Accepted, postInit] using h

/-- Every client gets its record and its layout. -/
theorem clients_eq (h : Accepted P cfg) :
    (postInit P cfg).clients =
      cfg.badges.map fun badge ↦ layoutClient P (Client.ofBadge cfg badge) := by
  rw [postInit, if_pos h.loaded, (loadClients_assigns h.loaded).1, List.map_map]
  rfl

theorem assigns (h : Accepted P cfg) :
    ∃ assigned', Assigns (fun _ ↦ false) (assignedParts cfg cfg.badges) assigned' :=
  (loadClients_assigns h.loaded).2.2

/-- Every record belongs to a badge. -/
theorem exists_badge (h : Accepted P cfg) {client : Client}
    (hc : client ∈ (postInit P cfg).clients) :
    ∃ badge ∈ cfg.badges, client = layoutClient P (Client.ofBadge cfg badge) := by
  rw [h.clients_eq, List.mem_map] at hc
  obtain ⟨badge, hbadge, rfl⟩ := hc
  exact ⟨badge, hbadge, rfl⟩

/-- **A partition belongs to one client.** -/
theorem eq_of_partIdx_eq (h : Accepted P cfg) {client client' : Client}
    (hc : client ∈ (postInit P cfg).clients) (hc' : client' ∈ (postInit P cfg).clients)
    {partition partition' : BitVec 8} (hp : partition ∈ client.partitions)
    (hp' : partition' ∈ client'.partitions) (heq : partIdx partition = partIdx partition') :
    client = client' := by
  obtain ⟨badge, hbadge, rfl⟩ := h.exists_badge hc
  obtain ⟨badge', hbadge', rfl⟩ := h.exists_badge hc'
  obtain ⟨assigned', hassigns⟩ := h.assigns
  have hpair := (List.nodup_flatMap.1 hassigns.nodup).2
  by_contra hne
  have hbne : badge ≠ badge' := fun hb ↦ hne (by rw [hb])
  have : Std.Symm (fun b b' ↦ List.Disjoint ((cfg.partitionList b).map partIdx)
      ((cfg.partitionList b').map partIdx)) := ⟨fun _ _ hd _ hx hx' ↦ hd hx' hx⟩
  have hdisj := List.Pairwise.forall hpair hbadge hbadge' hbne
  exact hdisj (List.mem_map.2 ⟨partition, hp, rfl⟩) (List.mem_map.2 ⟨partition', hp', heq.symm⟩)

/-- A client has no partition twice. -/
theorem nodup_partIdx (h : Accepted P cfg) {client : Client}
    (hc : client ∈ (postInit P cfg).clients) : (client.partitions.map partIdx).Nodup := by
  obtain ⟨badge, hbadge, rfl⟩ := h.exists_badge hc
  obtain ⟨assigned', hassigns⟩ := h.assigns
  exact (List.nodup_flatMap.1 hassigns.nodup).1 badge hbadge

/-- A listed partition is one of the drive's. -/
theorem partIdx_lt (h : Accepted P cfg) {client : Client} (hc : client ∈ (postInit P cfg).clients)
    {partition : BitVec 8} (hp : partition ∈ client.partitions) :
    partIdx partition < maxPartitions := by
  obtain ⟨badge, hbadge, rfl⟩ := h.exists_badge hc
  obtain ⟨assigned', hassigns⟩ := h.assigns
  exact hassigns.lt _ (List.mem_flatMap.2 ⟨badge, hbadge, List.mem_map.2 ⟨partition, hp, rfl⟩⟩)

/-- A client has no more partitions than the drive. -/
theorem length_partitions (h : Accepted P cfg) {client : Client}
    (hc : client ∈ (postInit P cfg).clients) : client.partitions.length ≤ maxPartitions := by
  obtain ⟨badge, hbadge, rfl⟩ := h.exists_badge hc
  exact (loadClients_assigns h.loaded).2.1 badge hbadge

/-- Every client's table has all its entries, cleared ones included. -/
theorem length_partitionTables (h : Accepted P cfg) {client : Client}
    (hc : client ∈ (postInit P cfg).clients) : client.partitionTables.length = maxPartitions := by
  obtain ⟨badge, hbadge, rfl⟩ := h.exists_badge hc
  have hle : (cfg.partitionList badge).length ≤ maxPartitions := h.length_partitions hc
  have hlen := length_virtualTables P (BitVec.ofNat 32 virtStartSector) (cfg.partitionList badge)
  simp only [layoutClient, ofBadge_partitions, List.length_append, List.length_drop, clearedTables,
    List.length_replicate, hlen]
  omega

/-- The badge of a client leads to its record. -/
theorem findClient_eq (h : Accepted P cfg) {client : Client}
    (hc : client ∈ (postInit P cfg).clients) :
    findClient (postInit P cfg).clients client.clientId = some client := by
  refine findClient_eq_some ?_ hc
  have hids : (postInit P cfg).clients.map Client.clientId = cfg.badges := by
    rw [h.clients_eq, List.map_map]
    exact List.map_id _
  exact hids ▸ cfg.badges_nodup

/-- A read of a client that is not too long is served. -/
theorem clientRx_eq (h : Accepted P cfg) (D : SataDriver) {client : Client}
    (hc : client ∈ (postInit P cfg).clients) (disk : Disk) (dataport : Dataport)
    {sector len : BitVec 32} (hlen : len.toNat ≤ bufSize) :
    clientRx P D (postInit P cfg) client.clientId disk dataport sector len =
      some (rxClient P D client disk dataport sector len) := by
  rw [clientRx, if_neg (by simpa using hlen), h.findClient_eq hc]

/-- A write of a client that is not too long is served. -/
theorem clientTx_eq (h : Accepted P cfg) (D : SataDriver) {client : Client}
    (hc : client ∈ (postInit P cfg).clients) (disk : Disk) (dataport : Dataport)
    {sector len : BitVec 32} (hlen : len.toNat ≤ bufSize) :
    clientTx P D (postInit P cfg) client.clientId disk dataport sector len =
      some (txClient P D client disk dataport sector len) := by
  rw [clientTx, if_neg (by simpa using hlen), h.findClient_eq hc]

end Accepted

/-- A request that is too long is refused, whoever sends it. -/
theorem clientRx_of_lt (P : Platform) (D : SataDriver) (server : Server) (id : BitVec 32)
    (disk : Disk) (dataport : Dataport) (sector : BitVec 32) {len : BitVec 32}
    (hlen : bufSize < len.toNat) :
    clientRx P D server id disk dataport sector len = some ⟨0, dataport, none⟩ := by
  rw [clientRx, if_pos (.inr hlen)]

/-- A request that is too long is refused, whoever sends it. -/
theorem clientTx_of_lt (P : Platform) (D : SataDriver) (server : Server) (id : BitVec 32)
    (disk : Disk) (dataport : Dataport) (sector : BitVec 32) {len : BitVec 32}
    (hlen : bufSize < len.toNat) :
    clientTx P D server id disk dataport sector len = some ⟨0, disk, none⟩ := by
  rw [clientTx, if_pos (.inr hlen)]

/-! ## Two clients on one drive -/

/-- A word's bytes, the lowest first. -/
def wordBytes (word : BitVec 32) : List (BitVec 8) :=
  [word.setWidth 8, (word >>> 8).setWidth 8, (word >>> 16).setWidth 8, (word >>> 24).setWidth 8]

/-- A table entry as the 16 bytes of a boot record. -/
def entryBytes (table : PartitionTable) : List (BitVec 8) :=
  [table.boot, table.head, table.secCyl.setWidth 8, (table.secCyl >>> 8).setWidth 8,
    table.sysId, table.endHead, table.endSecCyl.setWidth 8, (table.endSecCyl >>> 8).setWidth 8] ++
    wordBytes table.startLba ++ wordBytes table.numSectors

theorem length_flatMap_entryBytes (tables : List PartitionTable) :
    (tables.flatMap entryBytes).length = 16 * tables.length := by
  induction tables with
  | nil => rfl
  | cons table rest ih =>
    rw [List.flatMap_cons, List.length_append, ih, List.length_cons, Nat.mul_succ, Nat.add_comm]
    rfl

/-- A drive with two partitions of eight sectors, the second right behind the first. -/
def twoPartitions : Platform where
  physPartitionTables := fun i ↦
    match i with
    | 0 => ⟨0, 0, 0, 0x83, 0, 0, 2048, 8⟩
    | 1 => ⟨0, 0, 0, 0x83, 0, 0, 2056, 8⟩
    | _ => .zero
  gPartData := fun _ ↦ 0
  partOffset := 446
  tableBytes := fun tables ↦ tables.flatMap entryBytes
  table_fits := by
    intro tables htables
    rw [length_flatMap_entryBytes, htables]
    decide
  overrun := fun _ _ count ↦ List.replicate count .zero

/-- The client with badge 1 gets the first partition, the one with badge 2 the second. -/
def oneEach : Config where
  badges := [1, 2]
  badges_nodup := by decide
  partitionList := fun badge ↦ if badge = 1 then [1] else if badge = 2 then [2] else []
  length_partitionList_lt := by
    intro badge
    split
    · decide
    · split <;> decide

theorem oneEach_accepted : Accepted twoPartitions oneEach := by decide

/-- The record of the client with badge 1. -/
def firstClient : Client := layoutClient twoPartitions (Client.ofBadge oneEach 1)

theorem firstClient_mem : firstClient ∈ (postInit twoPartitions oneEach).clients := by decide

end Sataserver
end CamkesVm
