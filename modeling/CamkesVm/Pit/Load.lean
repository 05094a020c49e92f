import CamkesVm.Pit.Channel

/-!
# The PIT: loading a count

A count is written to the data port of its channel a byte at a time, in the way the last control
word for the channel selected: only the low byte, only the high byte, or both, low byte first.  In
the last case `write_state` remembers which of the two comes next and `write_latch` the one that has
come.

`loads` is what a sequence of data writes loads, by the access mode alone.  `count_loading` says
that the code does just this, in every run and whatever else happens to the PIT in between.

## What is here

* `loads` — the meaning of a sequence of data writes: each is a count of its own in the two modes of
  one byte, and they go in pairs in the mode of two.
* `dataWrites`, `Label.Programs` — the data writes of a run to one channel, and the events that
  start it again.
* `PITChannelState.pending` — what the state of the channel promises to make of the writes to come,
  and `pending_write`, the step lemma: a write does the first of it.
* `count_loading` — the induction over a run.

A single byte is not a count: in the mode of two bytes the channel goes on counting the old one
until the second byte is there, and its time of loading is the time of that byte.
-/

set_option autoImplicit false

namespace CamkesVm
namespace Pit

open Transition

/-! ## What is to be loaded -/

/-- A count as it is written: 0 stands for 65536. -/
def countOf (val : ℕ) : ℕ := if val = 0 then 65536 else val

/-- What pairs of data writes load, each a count and the time it is loaded at: nothing at the first,
and both bytes at the second. -/
def loadPairs : List (BitVec 8 × BitVec 64) → List (ℕ × BitVec 64)
  | v₁ :: v₂ :: writes => (countOf (v₁.1.toNat + 256 * v₂.1.toNat), v₂.2) :: loadPairs writes
  | _ => []

/-- What data writes load in access mode `r`. -/
def loads (r : ℕ) (writes : List (BitVec 8 × BitVec 64)) : List (ℕ × BitVec 64) :=
  match r with
  | 1 => writes.map fun v ↦ (countOf v.1.toNat, v.2)
  | 2 => writes.map fun v ↦ (countOf (v.1.toNat * 256), v.2)
  | _ => loadPairs writes

/-- The byte an access writes to the data port, and when. -/
def Access.written : Access → Option (BitVec 8 × BitVec 64)
  | .write val now => some (val, now)
  | _ => none

/-- The data writes to channel `i`. -/
def dataWrites (i : Fin 3) (as : List Label) : List (BitVec 8 × BitVec 64) :=
  (as.filterMap (Label.on i)).filterMap Access.written

/-- An access that is a control word selecting an access mode. -/
def Access.Programs : Access → Prop
  | .command val _ => val.toNat / 16 % 4 ≠ 0
  | _ => False

instance : DecidablePred Access.Programs
  | .command val _ => inferInstanceAs (Decidable (val.toNat / 16 % 4 ≠ 0))
  | .read _ | .write _ _ | .readBack _ _ _ | .timer => inferInstanceAs (Decidable False)

/-- An event that is a control word selecting an access mode for channel `i`. -/
def Label.Programs (i : Fin 3) (a : Label) : Prop := ∃ b ∈ a.on i, b.Programs

instance (i : Fin 3) : DecidablePred (Label.Programs i) :=
  fun a ↦ inferInstanceAs (Decidable (∃ b ∈ a.on i, b.Programs))

/-! ## What the code loads -/

/-- What further data writes load into a channel, by its `write_state`. -/
def PITChannelState.pending (s : PITChannelState) (writes : List (BitVec 8 × BitVec 64)) :
    List (ℕ × BitVec 64) :=
  if s.writeState = rwStateMsb then loads 2 writes
  else if s.writeState = rwStateWord0 then loads 3 writes
  else if s.writeState = rwStateWord1 then loads 3 ((s.writeLatch, 0) :: writes)
  else loads 1 writes

/-- The count of a channel and when it was loaded. -/
def PITChannelState.loaded (s : PITChannelState) : ℕ × BitVec 64 := (s.count, s.countLoadTime)

section

variable {i : Fin 3} {s s' : PITChannelState} {writes : List (BitVec 8 × BitVec 64)}

theorem SameCounting.pending (h : SameCounting s s') : s'.pending writes = s.pending writes := by
  rw [PITChannelState.pending, PITChannelState.pending, h.writeState, h.writeLatch]

theorem SameCounting.loaded (h : SameCounting s s') : s'.loaded = s.loaded := by
  rw [PITChannelState.loaded, PITChannelState.loaded, h.count, h.countLoadTime]

theorem loaded_load (s : PITChannelState) (val : ℕ) (now : BitVec 64) :
    (s.load val now).loaded = (countOf val, now) := by
  obtain ⟨hcount, htime, -⟩ := load_fields s val now
  rw [PITChannelState.loaded, hcount, htime]
  rfl

theorem pending_load (s : PITChannelState) (val : ℕ) (now : BitVec 64) :
    (s.load val now).pending writes = s.pending writes := by
  obtain ⟨-, -, -, -, hstate, hlatch⟩ := load_fields s val now
  rw [PITChannelState.pending, PITChannelState.pending, hstate, hlatch]

/-- When the first byte of a pair was written does not matter. -/
theorem loadPairs_cons (val : BitVec 8) (now : BitVec 64) (writes : List (BitVec 8 × BitVec 64)) :
    loadPairs ((val, now) :: writes) = loadPairs ((val, 0) :: writes) := by
  cases writes <;> rfl

/-- **A data write** does the first of what was pending, if it is its turn. -/
theorem pending_write (s : PITChannelState) (val : BitVec 8) (now : BitVec 64)
    (writes : List (BitVec 8 × BitVec 64)) :
    (s.pending ((val, now) :: writes)).getLastD s.loaded =
      ((s.write val now).pending writes).getLastD (s.write val now).loaded := by
  rw [PITChannelState.write]
  split
  · rename_i h
    rw [pending_load, loaded_load, PITChannelState.pending, PITChannelState.pending, if_pos h,
      if_pos h]
    exact List.getLastD_cons
  · rename_i h2
    split
    · rename_i h3
      rw [PITChannelState.pending, if_neg h2, if_pos h3]
      exact congrArg (List.getLastD · s.loaded) (loadPairs_cons val now writes)
    · rename_i h3
      split
      · rename_i h4
        have hlast : s.pending ((val, now) :: writes) =
            (countOf (s.writeLatch.toNat + val.toNat * 256), now) :: loads 3 writes := by
          rw [PITChannelState.pending, if_neg h2, if_neg h3, if_pos h4, Nat.mul_comm val.toNat]
          rfl
        have hloaded := loaded_load s (s.writeLatch.toNat + val.toNat * 256) now
        rw [hlast, List.getLastD_cons, ← hloaded]
        rfl
      · rename_i h4
        rw [pending_load, loaded_load, PITChannelState.pending, PITChannelState.pending, if_neg h2,
          if_neg h3, if_neg h4, if_neg h2, if_neg h3, if_neg h4]
        exact List.getLastD_cons

theorem mode_write (s : PITChannelState) (val : BitVec 8) (now : BitVec 64) :
    (s.write val now).mode = s.mode := by
  rw [PITChannelState.write]
  repeat' split
  · exact (load_fields s _ now).2.2.1
  · rfl
  · exact (load_fields s _ now).2.2.1
  · exact (load_fields s _ now).2.2.1

/-- **An access that neither writes a byte of a count nor programs the channel** leaves what it
counts alone. -/
theorem sameCounting_access {b : Access} (hwrite : b.written = none) (hprogram : ¬b.Programs) :
    SameCounting s (s.access i b) := by
  cases b with
  | read now => exact sameCounting_readChannel s now
  | write val now => exact absurd hwrite nofun
  | command val now =>
    have haccess : val.toNat / 16 % 4 = 0 := not_not.mp hprogram
    have hlatch : Pit.command s val now = pitLatchCount s now := by
      rw [Pit.command]
      exact if_pos haccess
    change SameCounting s (Pit.command s val now)
    rw [hlatch]
    exact sameCounting_pitLatchCount s now
  | readBack val now now' => exact sameCounting_readBack s i val now now'
  | timer => exact sameCounting_rearm s _

/-- What a channel counts after accesses that do not program it. -/
theorem loaded_foldl {bs : List Access} (h : ∀ b ∈ bs, ¬b.Programs) :
    (bs.foldl (PITChannelState.access i) s).mode = s.mode ∧
      (bs.foldl (PITChannelState.access i) s).loaded =
        (s.pending (bs.filterMap Access.written)).getLastD s.loaded := by
  induction bs generalizing s with
  | nil =>
    refine ⟨rfl, ?_⟩
    simp [PITChannelState.pending, loads, loadPairs]
  | cons b bs ih =>
    obtain ⟨hmode, hloaded⟩ := @ih (s.access i b) fun b hb ↦ h b (List.mem_cons_of_mem _ hb)
    rw [List.foldl_cons]
    cases hb : b.written with
    | none =>
      have hsame : SameCounting s (s.access i b) :=
        sameCounting_access hb (h b List.mem_cons_self)
      rw [List.filterMap_cons_none hb]
      exact ⟨hmode.trans hsame.mode, by rw [hloaded, hsame.pending, hsame.loaded]⟩
    | some v =>
      rw [List.filterMap_cons_some hb]
      cases b with
      | write val now =>
        cases hb
        exact ⟨hmode.trans (mode_write s val now), hloaded.trans (pending_write s val now _).symm⟩
      | _ => exact absurd hb nofun

/-- What a control word does. -/
theorem programmed (s : PITChannelState) {val : BitVec 8} (now : BitVec 64)
    (h : val.toNat / 16 % 4 ≠ 0) :
    (command s val now).mode = val.toNat / 2 % 8 ∧ (command s val now).loaded = s.loaded ∧
      (command s val now).pending writes = loads (val.toNat / 16 % 4) writes := by
  have hlt := Nat.mod_lt (val.toNat / 16) (show 0 < 4 by decide)
  rw [command, if_neg h]
  refine ⟨rfl, rfl, ?_⟩
  rw [PITChannelState.pending]
  dsimp only
  generalize val.toNat / 16 % 4 = r at h hlt ⊢
  obtain rfl | rfl | rfl : r = 1 ∨ r = 2 ∨ r = 3 := by omega
  all_goals rfl

end

/-- **The count loading protocol.**  After a control word that selects an access mode for a channel,
and until the next one, the channel holds the last count that its data writes have loaded by the
rule of that mode, or else the one it held before; and the time of that load, and the mode of the
control word.  Nothing but its data writes and control words changes its count, mode or load time.
-/
theorem count_loading (i : Fin 3) :
    (∀ (pit pit' : PITCommonState) (a : Label) (val : BitVec 8) (now : BitVec 64) (as : List Label),
      a.on i = some (.command val now) → val.toNat / 16 % 4 ≠ 0 → (∀ a' ∈ as, ¬a'.Programs i) →
      Run Step pit (a :: as) pit' →
      (pit'.channels i).mode = val.toNat / 2 % 8 ∧
      ((pit'.channels i).count, (pit'.channels i).countLoadTime) =
        (loads (val.toNat / 16 % 4) (dataWrites i as)).getLastD
          ((pit.channels i).count, (pit.channels i).countLoadTime)) ∧
    ∀ (pit : PITCommonState) (a : Label), dataWrites i [a] = [] → ¬a.Programs i →
      ((pit.next a).channels i).count = (pit.channels i).count ∧
      ((pit.next a).channels i).mode = (pit.channels i).mode ∧
      ((pit.next a).channels i).countLoadTime = (pit.channels i).countLoadTime := by
  constructor
  · intro pit pit' a val now as ha hr hno hrun
    obtain ⟨hmode, hloaded, hpending⟩ :=
      @programmed (dataWrites i as) (pit.channels i) val now hr
    have hfold := hrun.eq_foldl
    have hchannel : pit'.channels i = (as.filterMap (Label.on i)).foldl (PITChannelState.access i)
        (command (pit.channels i) val now) := by
      rw [hfold, List.foldl_cons, channels_foldl_next, channels_next, ha]
      rfl
    obtain ⟨hmode', hloaded'⟩ := @loaded_foldl i (command (pit.channels i) val now)
      (as.filterMap (Label.on i)) fun b hb ↦ by
        obtain ⟨a', ha', hon⟩ := List.mem_filterMap.mp hb
        exact fun hprograms ↦ hno a' ha' ⟨b, hon, hprograms⟩
    rw [← hchannel] at hmode' hloaded'
    refine ⟨hmode'.trans hmode, hloaded'.trans ?_⟩
    rw [hloaded]
    exact congrArg (List.getLastD · (pit.channels i).loaded) hpending
  · intro pit a hwrite hno
    have hsame : SameCounting (pit.channels i) ((pit.next a).channels i) := by
      rw [channels_next]
      cases hon : a.on i with
      | none => exact .refl _
      | some b =>
        refine sameCounting_access ?_ fun hprograms ↦ hno ⟨b, hon, hprograms⟩
        rw [dataWrites, List.filterMap_cons_some hon] at hwrite
        exact List.filterMap_eq_nil_iff.mp hwrite b List.mem_cons_self
    exact ⟨hsame.count, hsame.mode, hsame.countLoadTime⟩

/-- A count of 11932 for the first channel, with a latch command and a read between its bytes. -/
theorem count_loading_word :
    let at' (t : BitVec 64) : Fin 3 → BitVec 64 := fun _ ↦ t
    let as : List Label := [.portOut 0 0x9c (at' 6) (at' 6), .portOut 3 0x00 (at' 7) (at' 7),
      .portIn 0 8, .portOut 0 0x2e (at' 9) (at' 9)]
    let pit := (.portOut 3 0x34 (at' 5) (at' 5) :: as).foldl PITCommonState.next
      (pitPreInit 0 (at' 0))
    (pit.channels 0).mode = 2 ∧
      ((pit.channels 0).count, (pit.channels 0).countLoadTime) = (11932, 9) :=
  (count_loading 0).1 _ _ _ 0x34 5 _ rfl (by decide) (by decide) (run_foldl (by decide))

end Pit
end CamkesVm
