import CamkesVm.Lib.SharedStore
import CamkesVm.Lib.Transition
import CamkesVm.Sataserver.Layout
import CamkesVm.VirtioBlk.Transfer

/-!
# Many guests on one drive

Each guest's VMM is a client of the Sataserver.  It stages the data of a write in its dataport and
calls; the server, which takes one call at a time, works on the drive; and the VMM hands what it
finds in the dataport to its guest (`submit`, `serve`, `finish`).  The calls of several VMMs overlap
in any way.  For one VMM by itself the three steps are `virtioBlkEmulTransfer`
(`submit_serve_finish`).

What every guest should have is a disk of its own.  `expected` says what is on it from the writes
the guest has made and nothing else: the last successful one decides, and one that failed leaves
nothing to expect.  `run_guestsSee` says that the drive, and what the guests are handed, is as
expected, as long as every guest keeps its requests to whole sectors and to the partition they start
in; and `run_own_writes` that a guest has no way of telling what the others do.

## What is here

* `Request`, `Phase`, `Guests`, `Label`, `Enabled`, `next` — requests, where each VMM is with its
  guest's, and the system. The server's calls do not overlap, all else does.
* `Request.Whole`, `Request.StaysInRegion`, `Request.Contained`, `WellBehaved`, `SoundDrive` — what
  is asked of the guests and of the drive.
* `expected` — the abstract disk of a guest, from its own writes. A place that a failed write may
  have got to has no expected value until it is written again.
* `cellOf`, `SoundDrive.sharing` — the guests' places as cells of the drive, each with one owner:
  this is an instance of a store that is shared out, and `stores_txClient` is the one fact that the
  instance needs.
* `Private`, `private_next`, `run_private` — the invariant; the two results are read off it.

A request that leaves the region it starts in is a guest's own affair as far as its data goes, but
it can reach the sectors of others (`CamkesVm.Sataserver.Isolation`), which is why all guests are
asked to be well behaved.
-/

set_option autoImplicit false

namespace CamkesVm
namespace VirtioBlk

open Sataserver SharedStore Transition

/-! ## The system -/

/-- A request as the guest hands it to its VMM. -/
structure Request where
  /-- What to do. -/
  direction : Direction
  /-- Where to start. -/
  sector : BitVec 64
  /-- How many bytes. -/
  len : BitVec 32
  /-- The buffer of the guest. -/
  guestBuf : Dataport

/-- The sectors of a request. -/
def Request.count (req : Request) : ℕ := req.len.toNat / sataBlkSize

/-- Where a VMM is with its guest's request. -/
inductive Phase
  /-- There is none. -/
  | idle
  /-- It has called the server. -/
  | calling (req : Request)
  /-- The call has returned. -/
  | returned (req : Request) (status : BitVec 32)

/-- There is no request. -/
def Phase.isIdle : Phase → Bool
  | .idle => true
  | _ => false

/-- There is a call. -/
def Phase.isCalling : Phase → Bool
  | .calling _ => true
  | _ => false

/-- A byte of a guest's disk: a sector and the place in it. -/
abbrev Place := ℕ × ℕ

/-- The drive, the server's clients, and what has happened to the drive. -/
structure Guests where
  /-- The drive. -/
  disk : Disk
  /-- The dataport of each client. -/
  ifaceBuf : BitVec 32 → Dataport
  /-- Where the VMM of each client is. -/
  phase : BitVec 32 → Phase
  /-- The writes the server has been called for, oldest first. -/
  writes : List (Write (BitVec 32) Place (BitVec 8))

/-- Nobody has made a request yet. -/
def Guests.initial (disk : Disk) (ifaceBuf : BitVec 32 → Dataport) : Guests :=
  ⟨disk, ifaceBuf, fun _ ↦ .idle, []⟩

/-- What a write makes of a place: below `virtStartSector` there is nothing to write to, and a write
that fails may have got anywhere. -/
def writeOf (id : BitVec 32) (req : Request) (status : BitVec 32) :
    Write (BitVec 32) Place (BitVec 8) where
  client := id
  effect := fun a ↦
    if virtStartSector ≤ req.sector.toNat ∧ a.1 ∈ Extent.mk req.sector.toNat req.count ∧
        a.2 < sataBlkSize then
      some (if status ≠ 0 then
        some (req.guestBuf ((a.1 - req.sector.toNat) * sataBlkSize + a.2))
      else none)
    else none

/-- What happens next. -/
inductive Label
  /-- A VMM gets a request of its guest, and calls the server if it is one to read or to write. -/
  | submit (id : BitVec 32) (req : Request)
  /-- The server serves a call. -/
  | serve (id : BitVec 32)
  /-- A VMM answers its guest. -/
  | finish (id : BitVec 32)

section

variable (P : Platform) (D : SataDriver) (cfg : Config)

/-- The start of `virtio_blk_emul_transfer`, up to the remote call. -/
def submit (s : Guests) (id : BitVec 32) (req : Request) : Guests :=
  match req.direction with
  | .tIn => { s with phase := Function.update s.phase id (.calling req) }
  | .tOut => { s with
      ifaceBuf := Function.update s.ifaceBuf id
        (memcpy (s.ifaceBuf id) req.guestBuf req.len.toNat)
      phase := Function.update s.phase id (.calling req) }
  | .tScsiCmd | .tFlush | .tGetId | .invalid =>
    { s with phase := Function.update s.phase id (.returned req 0) }

/-- The server reads for a client. -/
def serveRx (s : Guests) (id : BitVec 32) (req : Request) : Guests :=
  match clientRx P D (postInit P cfg) id s.disk (s.ifaceBuf id) (req.sector.setWidth 32)
      req.len with
  | none => s
  | some rx => { s with
      ifaceBuf := Function.update s.ifaceBuf id rx.dataport
      phase := Function.update s.phase id (.returned req rx.ret) }

/-- The server writes for a client. -/
def serveTx (s : Guests) (id : BitVec 32) (req : Request) : Guests :=
  match clientTx P D (postInit P cfg) id s.disk (s.ifaceBuf id) (req.sector.setWidth 32)
      req.len with
  | none => s
  | some tx => { s with
      disk := tx.disk
      phase := Function.update s.phase id (.returned req tx.ret)
      writes := s.writes ++ [writeOf id req tx.ret] }

/-- The server serves the call of a client. -/
def serve (s : Guests) (id : BitVec 32) : Guests :=
  match s.phase id with
  | .calling req =>
    if req.direction = .tOut then serveTx P D cfg s id req else serveRx P D cfg s id req
  | _ => s

/-- What the guest gets at the end of `virtio_blk_emul_transfer`: the status and its buffer. -/
def Guests.result (s : Guests) (id : BitVec 32) : Option (XferStatus × Dataport) :=
  match s.phase id with
  | .returned req status =>
    some (xferStatus status,
      if req.direction = .tIn then memcpy req.guestBuf (s.ifaceBuf id) req.len.toNat
      else req.guestBuf)
  | _ => none

/-- What happens then. -/
def next (s : Guests) : Label → Guests
  | .submit id req => submit s id req
  | .serve id => serve P D cfg s id
  | .finish id => { s with phase := Function.update s.phase id .idle }

/-- When it can happen. -/
def Enabled (s : Guests) : Label → Prop
  | .submit id _ => id ∈ cfg.badges ∧ (s.phase id).isIdle = true
  | .serve id => (s.phase id).isCalling = true
  | .finish id => (s.result id).isSome = true

instance (s : Guests) : (a : Label) → Decidable (Enabled cfg s a)
  | .submit id _ => inferInstanceAs (Decidable (id ∈ cfg.badges ∧ (s.phase id).isIdle = true))
  | .serve id => inferInstanceAs (Decidable ((s.phase id).isCalling = true))
  | .finish id => inferInstanceAs (Decidable ((s.result id).isSome = true))

end

/-! ## Requests that keep to their partition -/

/-- The request is for whole sectors. -/
def Request.Whole (req : Request) : Prop :=
  0 < req.len.toNat ∧ req.len.toNat ≤ bufSize ∧ req.len.toNat % sataBlkSize = 0

/-- The request ends in the region it starts in: the partition table, which is one sector; the
sectors below `virtStartSector`; or a virtual partition. -/
def Request.StaysInRegion (client : Client) (req : Request) : Prop :=
  if req.sector.toNat < virtStartSector then
    req.sector.toNat + req.count ≤ virtStartSector ∧
      (req.direction = .tIn → req.sector = 0 → req.count = 1)
  else
    ∀ entry ∈ client.entryOf (req.sector.setWidth 32),
      req.sector.toNat + req.count ≤ entry.2.startLba.toNat + entry.2.numSectors.toNat

/-- A request that a guest with partitions makes, as opposed to one that tries what is behind. -/
def Request.Contained (client : Client) (req : Request) : Prop :=
  req.direction = .tIn ∨ req.direction = .tOut →
    req.Whole ∧ req.sector.toNat < 2 ^ 32 ∧ req.StaysInRegion client

/-- The guests make such requests. -/
def WellBehaved (P : Platform) (cfg : Config) (_ : Guests) : Label → Prop
  | .submit id req =>
    ∀ client ∈ (postInit P cfg).clients, client.clientId = id → req.Contained client
  | _ => True

/-- The configuration is accepted, the partitions of the drive do not overlap and end within the
32-bit sector numbers, and each virtual disk can be numbered. -/
structure SoundDrive (P : Platform) (cfg : Config) : Prop where
  /-- The configuration is accepted. -/
  accepted : Accepted P cfg
  /-- The partitions do not overlap. -/
  disjoint : PartitionsDisjoint P
  /-- The virtual disks can be numbered. -/
  fits : ∀ client ∈ (postInit P cfg).clients, client.Fits P
  /-- The partitions end in range. -/
  ends : ∀ client ∈ (postInit P cfg).clients, ∀ partition ∈ client.partitions,
    EndsInRange P partition

/-! ## What a guest can expect -/

section

variable (P : Platform) (cfg : Config)

/-- What the guests can expect of the drive as they find it. -/
def initially (disk : Disk) : Expectation (BitVec 32) Place (BitVec 8) := fun id a ↦
  (findClient (postInit P cfg).clients id).map fun client ↦
    virtualBlock P client disk (BitVec.ofNat 32 a.1) a.2

/-- What they can expect now. -/
def expected (disk : Disk) (s : Guests) : Expectation (BitVec 32) Place (BitVec 8) :=
  s.writes.foldl Expectation.after (initially P cfg disk)

/-- What the guests see is what they can expect. -/
structure GuestsSee (disk : Disk) (s : Guests) : Prop where
  /-- The disk of each guest is as expected. -/
  onDisk : ∀ client ∈ (postInit P cfg).clients, ∀ sector < client.capacity.toNat,
    ∀ j < sataBlkSize, ∀ v, expected P cfg disk s client.clientId (sector, j) = some v →
      virtualBlock P client s.disk (BitVec.ofNat 32 sector) j = v
  /-- So is what a successful read hands to its guest. -/
  delivered : ∀ id req status, s.phase id = .returned req status → req.direction = .tIn →
    ∀ buf, s.result id = some (.xferComplete, buf) → ∀ k < req.len.toNat, ∀ v,
      expected P cfg disk s id (place req.sector k, k % sataBlkSize) = some v → buf k = v
  /-- After a successful write, what was written is expected. -/
  written : ∀ id req status, s.phase id = .returned req status → req.direction = .tOut →
    virtStartSector ≤ req.sector.toNat → xferStatus status = .xferComplete →
      ∀ k < req.len.toNat,
        expected P cfg disk s id (place req.sector k, k % sataBlkSize) = some (req.guestBuf k)

end

/-! ## The three steps of one VMM -/

/-- **By itself a VMM does what `virtio_blk_emul_transfer` does.** -/
theorem submit_serve_finish (P : Platform) (D : SataDriver) (cfg : Config) (s : Guests)
    (id : BitVec 32) (req : Request) {t : Transfer}
    (ht : virtioBlkEmulTransfer P D (postInit P cfg) id ⟨s.disk, s.ifaceBuf id, req.guestBuf⟩
      req.direction req.sector req.len = some t) :
    let s' := serve P D cfg (submit s id req) id
    s'.disk = t.memory.disk ∧ s'.ifaceBuf id = t.memory.ifaceBuf ∧
      s'.result id = some (t.status, t.memory.guestBuf) := by
  obtain ⟨direction, sector, len, guestBuf⟩ := req
  cases direction with
  | tIn =>
    simp only [virtioBlkEmulTransfer, Option.map_eq_some_iff] at ht
    obtain ⟨rx, hrx, rfl⟩ := ht
    simp [serve, submit, serveRx, hrx, Guests.result]
  | tOut =>
    simp only [virtioBlkEmulTransfer, Option.map_eq_some_iff] at ht
    obtain ⟨tx, htx, rfl⟩ := ht
    simp [serve, submit, serveTx, htx, Guests.result]
  | tScsiCmd | tFlush | tGetId | invalid =>
    simp only [virtioBlkEmulTransfer, Option.some.injEq] at ht
    subst ht
    simp [serve, submit, Guests.result, xferStatus]

/-! ## Places of the guests and cells of the drive -/

section

variable {P : Platform} {D : SataDriver} {cfg : Config} {client : Client}

theorem clientId_of_findClient {clients : List Client} {id : BitVec 32}
    (h : findClient clients id = some client) : client.clientId = id := by
  rw [findClient_eq_find?] at h
  simpa using List.find?_some h

/-- The cell of the drive for a place of a guest. -/
def cellOf (P : Platform) (cfg : Config) (id : BitVec 32) (a : Place) : Option (ℕ × ℕ) :=
  if a.2 < sataBlkSize then
    (findClient (postInit P cfg).clients id).bind fun client ↦
      (physSector P client a.1).map fun x ↦ (x, a.2)
  else none

theorem cellOf_eq_some_iff {id : BitVec 32} {a : Place} {k : ℕ × ℕ} :
    cellOf P cfg id a = some k ↔ k.2 < sataBlkSize ∧ a.2 = k.2 ∧
      ∃ client, findClient (postInit P cfg).clients id = some client ∧
        physSector P client a.1 = some k.1 := by
  rw [cellOf]
  split
  · rename_i hj
    simp only [Option.bind_eq_some_iff, Option.map_eq_some_iff]
    constructor
    · rintro ⟨client, hclient, x, hx, rfl⟩
      exact ⟨hj, rfl, client, hclient, hx⟩
    · rintro ⟨-, ha, client, hclient, hx⟩
      exact ⟨client, hclient, k.1, hx, Prod.ext rfl ha⟩
  · rename_i hj
    simp only [reduceCtorEq, false_iff]
    rintro ⟨hk, ha, -⟩
    exact hj (ha ▸ hk)

/-- No sector of the drive is behind sectors of two clients. -/
theorem SoundDrive.eq_of_physSector (h : SoundDrive P cfg) {client client' : Client}
    (hc : client ∈ (postInit P cfg).clients) (hc' : client' ∈ (postInit P cfg).clients)
    {sector sector' x : ℕ} (hx : physSector P client sector = some x)
    (hx' : physSector P client' sector' = some x) : client = client' ∧ sector = sector' := by
  obtain ⟨hlt, y, hy, rfl⟩ := physSector_eq_some_iff.1 hx
  obtain ⟨hlt', y', hy', hyy⟩ := physSector_eq_some_iff.1 hx'
  obtain rfl := BitVec.eq_of_toNat_eq hyy
  have hclient : client = client' := by
    by_contra hne
    obtain ⟨p, t, he, -, -, hin⟩ :=
      exists_entry_of_sectorAt h.accepted hc (h.fits _ hc) (h.ends _ hc) hy
    obtain ⟨p', t', he', -, -, hin'⟩ :=
      exists_entry_of_sectorAt h.accepted hc' (h.fits _ hc') (h.ends _ hc') hy'
    have howns : client.Owns P y'.toNat := ⟨p, (List.of_mem_zip he).1, hin⟩
    exact not_owns_of_owns h.accepted h.disjoint hc hc' (Ne.symm hne) howns
      ⟨p', (List.of_mem_zip he').1, hin'⟩
  subst hclient
  have hfaithful := client_faithful h.accepted h.disjoint hc (h.fits _ hc) (h.ends _ hc)
  have hsector := congrArg BitVec.toNat (hfaithful.injective _ _ _ hy hy')
  rw [BitVec.toNat_ofNat, BitVec.toNat_ofNat, Nat.mod_eq_of_lt hlt,
    Nat.mod_eq_of_lt hlt'] at hsector
  exact ⟨rfl, hsector⟩

/-- **The guests share the drive.** -/
def SoundDrive.sharing (h : SoundDrive P cfg) : Sharing (BitVec 32) Place (ℕ × ℕ) where
  key := cellOf P cfg
  key_inj := by
    intro id id' a b k hk hk'
    obtain ⟨-, ha, client, hclient, hx⟩ := cellOf_eq_some_iff.1 hk
    obtain ⟨-, hb, client', hclient', hx'⟩ := cellOf_eq_some_iff.1 hk'
    obtain ⟨rfl, hsector⟩ := h.eq_of_physSector (mem_of_findClient hclient)
      (mem_of_findClient hclient') hx hx'
    refine ⟨(clientId_of_findClient hclient).symm.trans (clientId_of_findClient hclient'), ?_⟩
    exact Prod.ext hsector (ha.trans hb.symm)

/-- The drive as cells. -/
def cells (disk : Disk) : ℕ × ℕ → BitVec 8 := fun k ↦ disk k.1 k.2

/-- The sectors of a request go to sectors of the drive that follow each other as well. -/
theorem physSector_add (h : SoundDrive P cfg) (hc : client ∈ (postInit P cfg).clients)
    {req : Request} (hlt : req.sector.toNat < 2 ^ 32) (hstays : req.StaysInRegion client)
    (hhigh : virtStartSector ≤ req.sector.toNat) {first : BitVec 32}
    (hfirst : sectorAt P client (req.sector.setWidth 32) = some first) {i : ℕ}
    (hi : i < req.count) :
    physSector P client (req.sector.toNat + i) = some (first.toNat + i) := by
  have hnat := toNat_setWidth_of_lt hlt
  obtain ⟨partition, table, he, hmem, hx⟩ :=
    (sectorAt_eq_some_iff h.accepted hc (h.fits _ hc)).1 hfirst
  rw [Request.StaysInRegion, if_neg (Nat.not_lt.2 hhigh)] at hstays
  have hentry := (entryOf_eq_some_iff h.accepted hc (h.fits _ hc)).2 ⟨he, hmem⟩
  have hend : req.sector.toNat + req.count ≤ table.startLba.toNat + table.numSectors.toNat :=
    hstays _ hentry
  obtain ⟨hchain, hcap⟩ := chain_entries h.accepted hc (h.fits _ hc)
  obtain ⟨hlo, hhi⟩ := Extent.mem_def.1 hmem
  simp only [PartitionTable.extent, hnat] at hlo hhi
  have hplace : req.sector.toNat + i ∈ table.extent := Extent.mem_mk.2 ⟨by omega, by omega⟩
  have hbound := ((hchain.tiling.covered_iff _).1
    ⟨_, List.mem_map.2 ⟨_, he, rfl⟩, hplace⟩).2
  have hadd : (BitVec.ofNat 32 (req.sector.toNat + i)).toNat = req.sector.toNat + i := by
    rw [BitVec.toNat_ofNat, Nat.mod_eq_of_lt (by omega)]
  have hplace' : (BitVec.ofNat 32 (req.sector.toNat + i)).toNat ∈ table.extent := hadd.symm ▸ hplace
  have hends := h.ends _ hc _ (List.of_mem_zip he).1
  refine physSector_eq_some_iff.2 ⟨by omega, _,
    (sectorAt_eq_some_iff h.accepted hc (h.fits _ hc)).2 ⟨partition, table, he, hplace', rfl⟩, ?_⟩
  rw [toNat_sectorAt h.accepted hc he hends hplace', ← hx,
    toNat_sectorAt h.accepted hc he hends hmem, hadd, hnat]
  omega

end

/-! ## One call -/

section

variable {P : Platform} {D : SataDriver} {cfg : Config} {client : Client} {disk : Disk}
  {ifaceBuf : Dataport} {req : Request}

/-- A whole request has as many sectors as its bytes fill. -/
theorem Request.Whole.div_lt (h : req.Whole) {k : ℕ} (hk : k < req.len.toNat) :
    k / sataBlkSize < req.count := by
  obtain ⟨-, -, hmod⟩ := h
  rw [Request.count]
  simp only [sataBlkSize] at *
  omega

/-- A place that the write gets to. -/
def Request.Covers (req : Request) (a : Place) : Prop :=
  virtStartSector ≤ req.sector.toNat ∧ a.1 ∈ Extent.mk req.sector.toNat req.count ∧
    a.2 < sataBlkSize

theorem effect_writeOf_eq_none_iff {id status : BitVec 32} {a : Place} :
    (writeOf id req status).effect a = none ↔ ¬req.Covers a := by
  rw [writeOf, Request.Covers]
  simp only
  split
  · rename_i h
    exact iff_of_false (by simp) fun hn ↦ hn h
  · rename_i h
    exact iff_of_true rfl h

theorem effect_writeOf_eq_some_iff {id status : BitVec 32} {a : Place} {v : BitVec 8} :
    (writeOf id req status).effect a = some (some v) ↔ req.Covers a ∧ status ≠ 0 ∧
      req.guestBuf ((a.1 - req.sector.toNat) * sataBlkSize + a.2) = v := by
  rw [writeOf, Request.Covers]
  simp only
  split
  · rename_i h
    by_cases hstatus : status = 0
    · simp [hstatus]
    · simp [h]
  · rename_i h
    exact iff_of_false (by simp) fun hn ↦ h hn.1

/-- What is below `virtStartSector` does not depend on the drive. -/
theorem virtualBlock_of_low {sector : BitVec 32} (h : sector.toNat < virtStartSector)
    (disk disk' : Disk) :
    virtualBlock P client disk sector = virtualBlock P client disk' sector := by
  simp only [virtualBlock, h, if_true]

/-- **A write stores its bytes in the cells of the client, and touches no other.** -/
theorem stores_txClient (h : SoundDrive P cfg) (hc : client ∈ (postInit P cfg).clients)
    (hlt : req.sector.toNat < 2 ^ 32) (hstays : req.StaysInRegion client)
    (hstaged : ∀ k < req.len.toNat, ifaceBuf k = req.guestBuf k) :
    let tx := txClient P D client disk ifaceBuf (req.sector.setWidth 32) req.len
    Stores h.sharing (writeOf client.clientId req tx.ret) (cells disk) (cells tx.disk) := by
  have hnat := toNat_setWidth_of_lt hlt
  rcases Nat.lt_or_ge req.sector.toNat virtStartSector with hlow | hhigh
  · rw [txClient_low (hnat.symm ▸ hlow)]
    refine ⟨fun a k v _ hv ↦ ?_, fun _ _ _ _ _ ↦ rfl⟩
    exact absurd (effect_writeOf_eq_some_iff.1 hv).1.1 (Nat.not_le.2 hlow)
  have hhigh' : virtStartSector ≤ (req.sector.setWidth 32).toNat := hnat.symm ▸ hhigh
  cases hfirst : sectorAt P client (req.sector.setWidth 32) with
  | none =>
    rw [txClient_absent hhigh' hfirst]
    refine ⟨fun a k v _ hv ↦ ?_, fun _ _ _ _ _ ↦ rfl⟩
    exact absurd rfl (effect_writeOf_eq_some_iff.1 hv).2.1
  | some first =>
    have hfound := h.accepted.findClient_eq hc
    have hphys := fun i hi ↦ physSector_add h hc hlt hstays hhigh hfirst (i := i) hi
    rw [txClient_high hhigh' hfirst]
    refine ⟨fun a k v hk hv ↦ ?_, fun id a k hk hnone ↦ ?_⟩
    · obtain ⟨⟨-, hmem, hj⟩, hstatus, rfl⟩ := effect_writeOf_eq_some_iff.1 hv
      obtain ⟨hlo, hhi⟩ := Extent.mem_mk.1 hmem
      obtain ⟨-, hka, client', hclient', hx⟩ := cellOf_eq_some_iff.1 hk
      obtain rfl := Option.some.inj (hfound.symm.trans hclient')
      have hsector := hphys (a.1 - req.sector.toNat) (by omega)
      rw [Nat.add_sub_cancel' hlo, hx, Option.some.injEq] at hsector
      have hok : (D.sataWriteSectors disk first (req.len.toNat / sataBlkSize) ifaceBuf).1 =
          false := by
        cases herr : (D.sataWriteSectors disk first (req.len.toNat / sataBlkSize) ifaceBuf).1 with
        | false => rfl
        | true => simp [herr] at hstatus
      have hcell : k.1 ∈ Extent.mk first.toNat (req.len.toNat / sataBlkSize) :=
        Extent.mem_mk.2 ⟨by omega, by rw [Request.count] at hhi; omega⟩
      have hstored := sataWriteSectors_apply hok k.1 hj
      rw [if_pos hcell, hsector, Nat.add_sub_cancel_left] at hstored
      rw [cells, ← hka]
      refine (hsector ▸ hstored).trans (hstaged _ ?_)
      simp only [Request.count, sataBlkSize] at *
      omega
    · -- a cell the driver has got to is that of a place the write covers
      refine congrFun (D.write_frame disk first _ ifaceBuf k.1 fun hmem ↦ ?_) k.2
      obtain ⟨hlo, hhi⟩ := Extent.mem_mk.1 hmem
      obtain ⟨hj, -⟩ := cellOf_eq_some_iff.1 hk
      have hsector := hphys (k.1 - first.toNat) (by rw [Request.count]; omega)
      rw [Nat.add_sub_cancel' hlo] at hsector
      have hkey : cellOf P cfg client.clientId
          (req.sector.toNat + (k.1 - first.toNat), k.2) = some k :=
        cellOf_eq_some_iff.2 ⟨hj, rfl, client, hfound, hsector⟩
      refine effect_writeOf_eq_none_iff.1 (hnone _ hkey) ⟨hhigh, Extent.mem_mk.2 ⟨?_, ?_⟩, hj⟩
      · exact Nat.le_add_right _ _
      · rw [Request.count]
        omega

/-- **A read finds what is on the client's disk**, at places the client has. -/
theorem rxClient_eq_virtualByte (h : SoundDrive P cfg) (hc : client ∈ (postInit P cfg).clients)
    (hlt : req.sector.toNat < 2 ^ 32) (hstays : req.StaysInRegion client) (hwhole : req.Whole)
    (hdir : req.direction = .tIn)
    (hret : (rxClient P D client disk ifaceBuf (req.sector.setWidth 32) req.len).ret ≠ 0) {k : ℕ}
    (hk : k < req.len.toNat) :
    (rxClient P D client disk ifaceBuf (req.sector.setWidth 32) req.len).dataport k =
        virtualByte P client disk req.sector k ∧
      (place req.sector k < virtStartSector ∨
        ∃ x, physSector P client (place req.sector k) = some x) := by
  have hdiv := hwhole.div_lt hk
  have hnat := toNat_setWidth_of_lt hlt
  have hlen : req.len ≠ 0 := by
    rintro h0
    rw [h0] at hk
    exact absurd hk (Nat.not_lt_zero _)
  rcases Nat.lt_or_ge req.sector.toNat virtStartSector with hlow | hhigh
  · rw [Request.StaysInRegion, if_pos hlow] at hstays
    have hplace : place req.sector k < virtStartSector := by
      rw [place]
      omega
    refine ⟨?_, .inl hplace⟩
    by_cases hzero : req.sector = 0
    · -- the block of the partition table is read alone
      have hbyte := @read_byte_table P D client ⟨disk, ifaceBuf, req.guestBuf⟩ req.len k hlen
      rw [hzero] at hret ⊢
      refine hbyte.2 (fun hle ↦ ?_) hret
      rw [hstays.2 hdir hzero, Nat.div_lt_one_iff (by decide)] at hdiv
      exact absurd hdiv (Nat.not_lt.2 hle)
    · have hbyte := @read_byte_low P D client ⟨disk, ifaceBuf, req.guestBuf⟩ req.sector req.len k
        hzero hlow (Nat.lt_trans hplace (by decide)) hk hlen
      exact hbyte.2 (fun hle ↦ absurd hplace (Nat.not_lt.2 hle)) hret
  · have hhigh' : virtStartSector ≤ (req.sector.setWidth 32).toNat := hnat.symm ▸ hhigh
    cases hfirst : sectorAt P client (req.sector.setWidth 32) with
    | none => exact absurd (rxClient_absent hhigh' hfirst) hret
    | some first =>
      have hphys := physSector_add h hc hlt hstays hhigh hfirst hdiv
      have hplace := (physSector_eq_some_iff.1 hphys).1
      have hstep : InStep P client (req.sector.setWidth 32) req.len first k := by
        refine ⟨hdiv, ?_⟩
        rw [byteSector, hnat]
        exact hphys
      exact ⟨dataport_of_inStep hlt hhigh hplace hfirst hstep _ _ hret, .inr ⟨_, hphys⟩⟩

end

/-! ## Runs -/

section

variable {P : Platform} {D : SataDriver} {cfg : Config} {client : Client} {disk : Disk}
  {s t : Guests}

/-- What holds of a VMM, when `e` is what its guest can expect and `buf` its dataport. -/
def PhaseOk (P : Platform) (cfg : Config) (id : BitVec 32) (e : Place → Option (BitVec 8))
    (buf : Dataport) : Phase → Prop
  | .idle => True
  | .calling req =>
    (∃ client ∈ (postInit P cfg).clients, client.clientId = id ∧ req.Contained client) ∧
      (req.direction = .tIn ∨ req.direction = .tOut) ∧
      (req.direction = .tOut → ∀ k < req.len.toNat, buf k = req.guestBuf k)
  | .returned req status => status ≠ 0 →
    (req.direction = .tIn → ∀ k < req.len.toNat, ∀ v,
      e (place req.sector k, k % sataBlkSize) = some v → buf k = v) ∧
    (req.direction = .tOut → virtStartSector ≤ req.sector.toNat → ∀ k < req.len.toNat,
      e (place req.sector k, k % sataBlkSize) = some (req.guestBuf k))

/-- What holds in a run from the drive `disk`. -/
structure Private (h : SoundDrive P cfg) (disk : Disk) (s : Guests) : Prop where
  /-- The cells of the drive have what is expected. -/
  holds : Holds h.sharing (expected P cfg disk s) (cells s.disk)
  /-- There are no writes below `virtStartSector`. -/
  low : ∀ w ∈ s.writes, ∀ a : Place, a.1 < virtStartSector → w.effect a = none
  /-- Each VMM is where it should be. -/
  phases : ∀ id, PhaseOk P cfg id (expected P cfg disk s id) (s.ifaceBuf id) (s.phase id)

/-- A sector below `virtStartSector`, or one that has a place on the drive, is as expected. -/
theorem Private.virtualBlock_eq {h : SoundDrive P cfg} (hs : Private h disk s)
    (hc : client ∈ (postInit P cfg).clients) {sector j : ℕ} (hj : j < sataBlkSize)
    (hsector : sector < virtStartSector ∨ ∃ x, physSector P client sector = some x) {v : BitVec 8}
    (hv : expected P cfg disk s client.clientId (sector, j) = some v) :
    virtualBlock P client s.disk (BitVec.ofNat 32 sector) j = v := by
  have hfound := h.accepted.findClient_eq hc
  rcases Nat.lt_or_ge sector virtStartSector with hlow | hhigh
  · rw [expected, foldl_after_of_none fun w hw ↦ hs.low w hw _ hlow, initially, hfound,
      Option.map_some, Option.some.injEq] at hv
    rw [← hv, virtualBlock_of_low _ s.disk disk]
    rwa [BitVec.toNat_ofNat, Nat.mod_eq_of_lt (Nat.lt_trans hlow (by decide))]
  · obtain ⟨x, hx⟩ := hsector.resolve_left (Nat.not_lt.2 hhigh)
    rw [virtualBlock_of_physSector hhigh hx]
    exact hs.holds _ (sector, j) (x, j) v (cellOf_eq_some_iff.2 ⟨hj, rfl, client, hfound, hx⟩) hv

theorem private_initial (h : SoundDrive P cfg) (disk : Disk) (ifaceBuf : BitVec 32 → Dataport) :
    Private h disk (.initial disk ifaceBuf) where
  holds := by
    intro id a k v hk hv
    obtain ⟨-, ha, client, hclient, hx⟩ := cellOf_eq_some_iff.1 hk
    have hinit : (findClient (postInit P cfg).clients id).map
        (fun client ↦ virtualBlock P client disk (BitVec.ofNat 32 a.1) a.2) = some v := hv
    rw [hclient, Option.map_some, Option.some.injEq] at hinit
    rw [← hinit, ha]
    have hhigh : virtStartSector ≤ a.1 := by
      obtain ⟨hlt, y, hy, -⟩ := physSector_eq_some_iff.1 hx
      have hlookup := (client_faithful h.accepted h.disjoint (mem_of_findClient hclient)
        (h.fits _ (mem_of_findClient hclient)) (h.ends _ (mem_of_findClient hclient))).lookup
          (BitVec.ofNat 32 a.1)
      obtain ⟨offset, hoffset, -⟩ := exists_offset_of_sectorAt hy
      have hin := (hlookup.1 (by rw [hoffset]; rfl)).1
      rwa [BitVec.toNat_ofNat, Nat.mod_eq_of_lt hlt] at hin
    exact congrFun (virtualBlock_of_physSector hhigh hx disk) k.2 |>.symm
  low := by
    intro w hw
    exact absurd hw List.not_mem_nil
  phases := fun _ ↦ trivial

/-- Only the VMM that moves has to be looked at, if the others find everything as it was. -/
theorem forall_phaseOk {e e' : Expectation (BitVec 32) Place (BitVec 8)} (id : BitVec 32)
    (hs : ∀ i, PhaseOk P cfg i (e i) (s.ifaceBuf i) (s.phase i)) (he : ∀ i ≠ id, e' i = e i)
    (hbuf : ∀ i ≠ id, t.ifaceBuf i = s.ifaceBuf i) (hphase : ∀ i ≠ id, t.phase i = s.phase i)
    (hid : PhaseOk P cfg id (e' id) (t.ifaceBuf id) (t.phase id)) (i : BitVec 32) :
    PhaseOk P cfg i (e' i) (t.ifaceBuf i) (t.phase i) := by
  by_cases hi : i = id
  · exact hi ▸ hid
  · rw [he i hi, hbuf i hi, hphase i hi]
    exact hs i

/-- A sector of a client's disk is one below `virtStartSector` or has its place on the drive. -/
theorem onDisk_or_low (h : SoundDrive P cfg) (hc : client ∈ (postInit P cfg).clients) {sector : ℕ}
    (hsector : sector < client.capacity.toNat) :
    sector < virtStartSector ∨ ∃ x, physSector P client sector = some x := by
  rcases Nat.lt_or_ge sector virtStartSector with hlow | hhigh
  · exact .inl hlow
  · have hlt := Nat.lt_trans hsector (capacity_lt h.accepted hc)
    have hnat : (BitVec.ofNat 32 sector).toNat = sector := by
      rw [BitVec.toNat_ofNat, Nat.mod_eq_of_lt hlt]
    have hlookup := (client_faithful h.accepted h.disjoint hc (h.fits _ hc) (h.ends _ hc)).lookup
      (BitVec.ofNat 32 sector)
    rw [hnat] at hlookup
    obtain ⟨offset, hoffset⟩ := Option.isSome_iff_exists.1 (hlookup.2 ⟨hhigh, hsector⟩)
    have hx : sectorAt P client (BitVec.ofNat 32 sector) =
        some (BitVec.ofNat 32 sector + offset) := by
      rw [sectorAt, hoffset, Option.map_some]
    exact .inr ⟨_, physSector_eq_some_iff.2 ⟨hlt, _, hx, rfl⟩⟩

/-- A badge of the composition is that of a client. -/
theorem exists_client (h : SoundDrive P cfg) {id : BitVec 32} (hid : id ∈ cfg.badges) :
    ∃ client ∈ (postInit P cfg).clients, client.clientId = id := by
  refine ⟨layoutClient P (Client.ofBadge cfg id), ?_, rfl⟩
  rw [h.accepted.clients_eq]
  exact List.mem_map.2 ⟨id, hid, rfl⟩

/-- Submitting a request is an affair of one VMM. -/
theorem submit_frame (s : Guests) (id : BitVec 32) (req : Request) :
    (submit s id req).disk = s.disk ∧ (submit s id req).writes = s.writes ∧
      ∀ i ≠ id, (submit s id req).ifaceBuf i = s.ifaceBuf i ∧
        (submit s id req).phase i = s.phase i := by
  rw [submit]
  cases req.direction with
  | tOut =>
    refine ⟨rfl, rfl, fun i hi ↦ ⟨?_, ?_⟩⟩
    · exact Function.update_of_ne hi _ _
    · exact Function.update_of_ne hi _ _
  | tIn | tScsiCmd | tFlush | tGetId | invalid =>
    exact ⟨rfl, rfl, fun i hi ↦ ⟨rfl, Function.update_of_ne hi _ _⟩⟩

/-- A VMM that has submitted a request is where it should be. -/
theorem phaseOk_submit (e : Place → Option (BitVec 8)) {id : BitVec 32} {req : Request}
    (hc : client ∈ (postInit P cfg).clients) (hid : client.clientId = id)
    (hreq : req.Contained client) :
    PhaseOk P cfg id e ((submit s id req).ifaceBuf id) ((submit s id req).phase id) := by
  rw [submit]
  cases hdir : req.direction with
  | tIn =>
    simp only [Function.update_self]
    exact ⟨⟨client, hc, hid, hreq⟩, .inl hdir, fun hout ↦ by simp [hdir] at hout⟩
  | tOut =>
    simp only [Function.update_self]
    exact ⟨⟨client, hc, hid, hreq⟩, .inr hdir, fun _ k hk ↦ memcpy_of_lt hk⟩
  | tScsiCmd | tFlush | tGetId | invalid =>
    simp only [Function.update_self]
    exact fun hstatus ↦ absurd rfl hstatus

theorem Private.submit {h : SoundDrive P cfg} (hs : Private h disk s) {id : BitVec 32}
    (hid : id ∈ cfg.badges) {req : Request}
    (hreq : ∀ client ∈ (postInit P cfg).clients, client.clientId = id → req.Contained client) :
    Private h disk (submit s id req) := by
  obtain ⟨client, hc, hclient⟩ := exists_client h hid
  obtain ⟨hdisk, hwrites, hframe⟩ := submit_frame s id req
  have hexp : expected P cfg disk (VirtioBlk.submit s id req) = expected P cfg disk s := by
    rw [expected, hwrites, expected]
  refine ⟨by rw [hexp, hdisk]; exact hs.holds, by rw [hwrites]; exact hs.low, ?_⟩
  rw [hexp]
  refine forall_phaseOk id hs.phases (fun _ _ ↦ rfl) (fun i hi ↦ (hframe i hi).1)
    (fun i hi ↦ (hframe i hi).2) ?_
  exact phaseOk_submit _ hc hclient (hreq client hc hclient)

/-- A read is served. -/
theorem Private.serveRx {h : SoundDrive P cfg} (hs : Private h disk s) {id : BitVec 32}
    {req : Request} (hphase : s.phase id = .calling req) (hdir : req.direction = .tIn) :
    Private h disk (serveRx P D cfg s id req) := by
  have hok := hs.phases id
  rw [hphase] at hok
  obtain ⟨⟨client, hc, rfl, hreq⟩, -, -⟩ := hok
  obtain ⟨hwhole, hlt, hstays⟩ := hreq (.inl hdir)
  rw [VirtioBlk.serveRx, h.accepted.clientRx_eq D hc _ _ hwhole.2.1]
  refine ⟨hs.holds, hs.low, forall_phaseOk client.clientId hs.phases (fun _ _ ↦ rfl)
    (fun i hi ↦ Function.update_of_ne hi _ _) (fun i hi ↦ Function.update_of_ne hi _ _) ?_⟩
  simp only [Function.update_self]
  refine fun hstatus ↦ ⟨fun _ k hk v hv ↦ ?_, fun hout ↦ by simp [hdir] at hout⟩
  obtain ⟨hbyte, hplace⟩ := rxClient_eq_virtualByte h hc hlt hstays hwhole hdir hstatus hk
  rw [hbyte, virtualByte]
  exact hs.virtualBlock_eq hc (Nat.mod_lt _ (by decide)) hplace hv

/-- A write is served. -/
theorem Private.serveTx {h : SoundDrive P cfg} (hs : Private h disk s) {id : BitVec 32}
    {req : Request} (hphase : s.phase id = .calling req) (hdir : req.direction = .tOut) :
    Private h disk (serveTx P D cfg s id req) := by
  have hok := hs.phases id
  rw [hphase] at hok
  obtain ⟨⟨client, hc, rfl, hreq⟩, -, hstaged⟩ := hok
  obtain ⟨hwhole, hlt, hstays⟩ := hreq (.inr hdir)
  rw [VirtioBlk.serveTx, h.accepted.clientTx_eq D hc _ _ hwhole.2.1]
  have hstores : Stores h.sharing _ (cells s.disk)
      (cells (txClient P D client s.disk _ _ _).disk) :=
    stores_txClient h hc hlt hstays (hstaged hdir)
  have hexp : ∀ u : Guests, u.writes = s.writes ++ [writeOf client.clientId req
        (txClient P D client s.disk (s.ifaceBuf client.clientId) (req.sector.setWidth 32)
          req.len).ret] →
      expected P cfg disk u = (expected P cfg disk s).after (writeOf client.clientId req
        (txClient P D client s.disk (s.ifaceBuf client.clientId) (req.sector.setWidth 32)
          req.len).ret) := by
    intro u hu
    rw [expected, hu, List.foldl_append]
    rfl
  refine ⟨?_, ?_, ?_⟩
  · rw [hexp _ rfl]
    exact hs.holds.write hstores
  · intro w hw a ha
    rcases List.mem_append.1 hw with hw | hw
    · exact hs.low w hw a ha
    · rw [List.mem_singleton.1 hw, effect_writeOf_eq_none_iff]
      rintro ⟨hhigh, hmem, -⟩
      exact Nat.not_lt.2 (Nat.le_trans hhigh hmem.1) ha
  · rw [hexp _ rfl]
    refine forall_phaseOk client.clientId hs.phases
      (fun i hi ↦ funext fun a ↦ after_of_ne hi a) (fun _ _ ↦ rfl)
      (fun i hi ↦ Function.update_of_ne hi _ _) ?_
    simp only [Function.update_self]
    refine fun hstatus ↦ ⟨fun hin ↦ by simp [hdir] at hin, fun _ hhigh k hk ↦ ?_⟩
    have hcovers : req.Covers (place req.sector k, k % sataBlkSize) :=
      ⟨hhigh, Extent.mem_mk.2 ⟨Nat.le_add_right _ _, Nat.add_lt_add_left (hwhole.div_lt hk) _⟩,
        Nat.mod_lt _ (by decide)⟩
    refine (after_client _).trans ?_
    rw [effect_writeOf_eq_some_iff.2 ⟨hcovers, hstatus, rfl⟩, Option.getD_some, place,
      Nat.add_sub_cancel_left, Nat.div_add_mod']

/-- **Every step keeps the guests' disks private.** -/
theorem private_next {h : SoundDrive P cfg} (hs : Private h disk s) {a : Label}
    (hwell : WellBehaved P cfg s a) (ha : Enabled cfg s a) :
    Private h disk (next P D cfg s a) := by
  cases a with
  | submit id req => exact hs.submit ha.1 hwell
  | serve id =>
    rw [next, serve]
    split
    · rename_i req hphase
      have hok := hs.phases id
      rw [hphase] at hok
      split
      · rename_i hdir
        exact hs.serveTx hphase hdir
      · rename_i hdir
        exact hs.serveRx hphase (hok.2.1.resolve_right hdir)
    · exact hs
  | finish id =>
    refine ⟨hs.holds, hs.low, forall_phaseOk id hs.phases (fun _ _ ↦ rfl) (fun _ _ ↦ rfl)
      (fun i hi ↦ Function.update_of_ne hi _ _) ?_⟩
    simp only [next, Function.update_self]
    exact trivial

/-- In a run of well-behaved guests the disks are private. -/
theorem run_private (h : SoundDrive P cfg) {ifaceBuf : BitVec 32 → Dataport} {as : List Label}
    (hrun : Run (Guarded (WellBehaved P cfg) (Does (Enabled cfg) (next P D cfg)))
      (.initial disk ifaceBuf) as s) : Private h disk s :=
  hrun.invariant_guarded (private_initial h disk ifaceBuf) fun _ _ _ hs hwell ha ↦
    ha.2 ▸ private_next hs hwell ha.1

/-- **Every guest has a disk of its own.**  Whatever order the calls of the guests are made and
served in, and whatever the driver fails at, a guest's disk, and each successful read, shows what
the guest's own last successful writes have put there; a successful write of its own is one of
them. -/
theorem run_guestsSee (h : SoundDrive P cfg) {ifaceBuf : BitVec 32 → Dataport} {as : List Label}
    (hrun : Run (Guarded (WellBehaved P cfg) (Does (Enabled cfg) (next P D cfg)))
      (.initial disk ifaceBuf) as s) : GuestsSee P cfg disk s := by
  have hs := run_private h hrun
  refine ⟨fun client hc sector hsector j hj v hv ↦ ?_, ?_, ?_⟩
  · exact hs.virtualBlock_eq hc hj (onDisk_or_low h hc hsector) hv
  · intro id req status hphase hdir buf hresult k hk v hv
    have hok := hs.phases id
    rw [hphase] at hok
    simp only [Guests.result, hphase, hdir, if_true, Option.some.injEq, Prod.mk.injEq] at hresult
    obtain ⟨hstatus, rfl⟩ := hresult
    rw [memcpy_of_lt hk]
    exact (hok (xferStatus_eq_complete_iff.1 hstatus)).1 hdir k hk v hv
  · intro id req status hphase hdir hhigh hstatus k hk
    have hok := hs.phases id
    rw [hphase] at hok
    exact (hok (xferStatus_eq_complete_iff.1 hstatus)).2 hdir hhigh k hk

end

/-! ## Two guests -/

instance (req : Request) : Decidable req.Whole :=
  inferInstanceAs (Decidable (_ ∧ _ ∧ _))

instance (client : Client) (req : Request) : Decidable (req.StaysInRegion client) :=
  inferInstanceAs (Decidable (if req.sector.toNat < virtStartSector then _ ∧ (_ → _ → _)
    else ∀ entry ∈ client.entryOf _, _ ≤ entry.2.startLba.toNat + entry.2.numSectors.toNat))

instance (client : Client) (req : Request) : Decidable (req.Contained client) :=
  inferInstanceAs (Decidable (_ → _))

instance (P : Platform) (cfg : Config) (s : Guests) : (a : Label) →
    Decidable (WellBehaved P cfg s a)
  | .submit _ _ => inferInstanceAs (Decidable (∀ client ∈ _, _ → _))
  | .serve _ => inferInstanceAs (Decidable True)
  | .finish _ => inferInstanceAs (Decidable True)

theorem soundDrive_twoPartitions : SoundDrive twoPartitions oneEach where
  accepted := oneEach_accepted
  disjoint := twoPartitions_disjoint
  fits := fits_twoPartitions
  ends := by
    simp only [EndsInRange]
    decide

/-- A request for the first sector of the first partition. -/
def firstSector (direction : Direction) (byte : BitVec 8) : Request :=
  ⟨direction, 64, 512, fun _ ↦ byte⟩

/-- Both guests write to their first sectors, at the same time; the first one reads it again. -/
def bothWrite : List Label :=
  [.submit 1 (firstSector .tOut 1), .submit 2 (firstSector .tOut 2), .serve 2, .serve 1,
    .finish 1, .submit 1 (firstSector .tIn 0), .serve 1]

/-- The theorem at this run. -/
theorem run_guestsSee_bothWrite : GuestsSee twoPartitions oneEach (fun _ _ ↦ 7)
    (bothWrite.foldl (next twoPartitions .faultless oneEach)
      (.initial (fun _ _ ↦ 7) fun _ _ ↦ 0)) :=
  run_guestsSee soundDrive_twoPartitions (run_guarded_foldl (by decide))

end VirtioBlk
end CamkesVm
