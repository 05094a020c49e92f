import Mathlib.Data.BitVec
import Mathlib.Data.List.Intervals
import Mathlib.Algebra.Order.Group.Nat

/-!
# Configured guest mappings

The configuration of an x86 VMM can name stretches of physical memory for its guest, each to be
mapped with frames of one size.  `templates/seL4GuestMaps.template.c` makes a capability for each of
the frames.  It expands to `guest_mappings_get_guest_map`, which enumerates the frames, and to
`guest_mappings_get_mapping_mem_frame`, which finds the capability to one; the memory of PCI devices
has a template like it.  `simple_frame_cap_wrapper` asks both when the VMM needs a frame.

The loop in `main_continued` goes through the enumeration when the guest is set up.  The function
that it calls returns 1 where it has found the frame, and the loop takes that for an error.
`usable_iff` says that a configuration works if it asks for no frame.

## What is here

* `Mapping`, `FrameName`, `AllocCap` — an entry of the configuration, and the capabilities that
  CAmkES makes by name; different names may be expected to have different capabilities, but only
  that none is null is used.
* `Mapping.frames`, `gmaps`, `deviceMem` — the loops of the templates.
* `frameCap`, `guestMappingsGetGuestMap` and the other functions that the templates expand to, and
  their user `simpleFrameCapWrapper`.
* `bootLoop`, `mainContinued` — the loop over the enumeration. Whether its fatal branch really stops
  the VMM depends on how `ZF_LOGF` is compiled, so that is a parameter.
* `asked`, `UsableMappings` — the frames that are asked for, in arithmetic, and what it means that
  they can be used.
* `map_frame_gmaps`, `simpleFrameCapWrapper_ne_none_iff` — the templates are right, and so is the
  lookup; the fault is in the loop alone (`bootLoop_eq`).
-/

set_option autoImplicit false

namespace CamkesVm
namespace Passthrough

/-! ## The templates -/

/-- An element of `guest_mappings`, or of the `memory` of a PCI device. -/
structure Mapping where
  /-- Where it starts. -/
  paddr : ℕ
  /-- How many bytes it has. -/
  size : ℕ
  /-- A frame of it has `2 ^ pageBits` bytes. -/
  pageBits : ℕ

/-- The names of capabilities. -/
inductive FrameName
  /-- `gmap_frame_%d` -/
  | gmapFrame (frame : ℕ)
  /-- `mmio_frame_%d` -/
  | mmioFrame (frame : ℕ)

/-- `alloc_cap`, which is CAmkES's: a capability for each name. -/
structure AllocCap (w : ℕ) where
  /-- The capability. -/
  cap : FrameName → BitVec w
  /-- It is not `seL4_CapNull`. -/
  cap_ne : ∀ name, cap name ≠ 0

/-- An element of `gmaps`. -/
structure Gmap (w : ℕ) where
  /-- The address of the frame. -/
  frame : ℕ
  /-- Its size. -/
  size : ℕ
  /-- The capability. -/
  cap : BitVec w

/-- `range(0, stop, step)`. -/
def pyRange (stop step : ℕ) : List ℕ := (List.range ((stop + step - 1) / step)).map (· * step)

/-- The frames of a mapping: the loop over `frame_offset`. -/
def Mapping.frames (m : Mapping) : List ℕ := (pyRange m.size (2 ^ m.pageBits)).map (m.paddr + ·)

section

variable {w : ℕ} (A : AllocCap w)

/-- What the template collects in `gmaps`. -/
def gmaps (guestMappings : List Mapping) : List (Gmap w) :=
  guestMappings.flatMap fun m ↦ m.frames.map fun frame ↦
    ⟨frame, 2 ^ m.pageBits, A.cap (.gmapFrame frame)⟩

/-- What the template for PCI devices collects in `device_mem`, from the `memory` of each. -/
def deviceMem (pciDevices : List (List Mapping)) : List (ℕ × BitVec w) :=
  pciDevices.flatMap fun memory ↦ memory.flatMap fun m ↦ m.frames.map fun frame ↦
    (frame, A.cap (.mmioFrame frame))

/-- A `switch` over addresses, which returns a capability, or 0 by default. -/
def frameCap (table : List (ℕ × BitVec w)) (paddr : BitVec w) : BitVec w :=
  match table.find? fun entry ↦ BitVec.ofNat w entry.1 = paddr with
  | some entry => entry.2
  | none => 0

/-- `guest_mappings_num_guestmaps`. -/
def guestMappingsNumGuestmaps (guestMappings : List Mapping) : ℕ := (gmaps A guestMappings).length

/-- `guest_mappings_get_guest_map`: what it returns, and the frame and the size that it stores. -/
def guestMappingsGetGuestMap (guestMappings : List Mapping) (num : ℕ) :
    ℤ × Option (BitVec 64 × BitVec 64) :=
  match (gmaps A guestMappings)[num]? with
  | some gmap => (1, some (BitVec.ofNat 64 gmap.frame, BitVec.ofNat 64 gmap.size))
  | none => (0, none)

/-- `guest_mappings_get_mapping_mem_frame`. -/
def guestMappingsGetMappingMemFrame (guestMappings : List Mapping) (paddr : BitVec w) : BitVec w :=
  frameCap ((gmaps A guestMappings).map fun gmap ↦ (gmap.frame, gmap.cap)) paddr

/-- `pci_devices_get_device_mem_frame`. -/
def pciDevicesGetDeviceMemFrame (pciDevices : List (List Mapping)) (paddr : BitVec w) : BitVec w :=
  frameCap (deviceMem A pciDevices) paddr

/-! ## Their users -/

/-- `simple_frame_cap_wrapper`: the capability, or `none` for -1. -/
def simpleFrameCapWrapper (pciDevices : List (List Mapping)) (guestMappings : List Mapping)
    (paddr : BitVec w) : Option (BitVec w) :=
  let cap := pciDevicesGetDeviceMemFrame A pciDevices paddr
  if cap ≠ 0 then some cap
  else
    let cap := guestMappingsGetMappingMemFrame A guestMappings paddr
    if cap ≠ 0 then some cap else none

/-- What the loop in `main_continued` has done. -/
structure Boot where
  /-- The indices at which it has taken the fatal branch. -/
  fatal : List ℕ
  /-- The frames it has obtained. -/
  frames : List (BitVec 64)

/-- The loop in `main_continued` over the guest mappings, with `left` indices to go from `i` on.
`aborts` says whether `ZF_LOGF_IF` stops the VMM once it has reported the error. -/
def bootLoop (aborts : Bool) (guestMappings : List Mapping) : ℕ → ℕ → Boot
  | 0, _ => ⟨[], []⟩
  | left + 1, i =>
    let (error, stored) := guestMappingsGetGuestMap A guestMappings i
    let frames := (stored.map Prod.fst).toList
    if error ≠ 0 then
      let rest := if aborts then ⟨[], []⟩ else bootLoop aborts guestMappings left (i + 1)
      ⟨i :: rest.fatal, frames ++ rest.frames⟩
    else
      let rest := bootLoop aborts guestMappings left (i + 1)
      ⟨rest.fatal, frames ++ rest.frames⟩

/-- `main_continued`, as far as the guest mappings go. -/
def mainContinued (aborts : Bool) (guestMappings : List Mapping) : Boot :=
  bootLoop A aborts guestMappings (guestMappingsNumGuestmaps A guestMappings) 0

/-! ## Usable mappings -/

/-- The frames that a configuration asks for: `paddr + k * 2 ^ pageBits` for each `k` of which the
offset is below the size. -/
def asked (guestMappings : List Mapping) : List ℕ :=
  guestMappings.flatMap fun m ↦ ((List.range m.size).filter fun k ↦ k * 2 ^ m.pageBits < m.size).map
    fun k ↦ m.paddr + k * 2 ^ m.pageBits

/-- The VMM boots with the frames it is asked for, and finds the capabilities to them. -/
structure UsableMappings (aborts : Bool) (pciDevices : List (List Mapping))
    (guestMappings : List Mapping) : Prop where
  /-- The fatal branch is not taken. -/
  noFatal : (mainContinued A aborts guestMappings).fatal = []
  /-- The loop obtains the frames, in order. -/
  frames : (mainContinued A aborts guestMappings).frames =
    (asked guestMappings).map (BitVec.ofNat 64)
  /-- Where no PCI device has a frame, a capability is found for these and no others. -/
  lookup : ∀ paddr, pciDevicesGetDeviceMemFrame A pciDevices paddr = 0 →
    (simpleFrameCapWrapper A pciDevices guestMappings paddr ≠ none ↔
      ∃ frame ∈ asked guestMappings, BitVec.ofNat w frame = paddr)

variable {A}

/-! ## The frames -/

/-- **The offsets of a mapping's frames**: the ones below its size. -/
theorem pyRange_eq {step : ℕ} (hstep : 0 < step) (stop : ℕ) :
    pyRange stop step = ((List.range stop).filter fun k ↦ k * step < stop).map (· * step) := by
  have hlt : ∀ k, k < (stop + step - 1) / step ↔ k * step < stop := by
    intro k
    rw [Nat.lt_iff_add_one_le, Nat.le_div_iff_mul_le hstep, Nat.add_mul]
    omega
  have hle : (stop + step - 1) / step ≤ stop := by
    by_contra hgt
    have hmul := (hlt stop).1 (by omega)
    exact absurd (Nat.le_mul_of_pos_right stop hstep) (by omega)
  have hfilter : (List.range stop).filter (fun k ↦ k * step < stop) =
      List.range ((stop + step - 1) / step) := by
    simp only [← hlt]
    rw [← List.Ico.zero_bot, List.Ico.filter_lt, min_eq_right hle, List.Ico.zero_bot]
  rw [pyRange, hfilter]

/-- **The frames of the template are those that are asked for**, in order. -/
theorem map_frame_gmaps (guestMappings : List Mapping) :
    (gmaps A guestMappings).map Gmap.frame = asked guestMappings := by
  rw [gmaps, asked, List.map_flatMap]
  refine List.flatMap_congr fun m _ ↦ ?_
  rw [Mapping.frames, pyRange_eq (Nat.two_pow_pos _), List.map_map, List.map_map, List.map_map]
  rfl

theorem gmap_cap_ne {guestMappings : List Mapping} {gmap : Gmap w}
    (h : gmap ∈ gmaps A guestMappings) : gmap.cap ≠ 0 := by
  obtain ⟨m, -, hgmap⟩ := List.mem_flatMap.1 h
  obtain ⟨frame, -, rfl⟩ := List.mem_map.1 hgmap
  exact A.cap_ne _

/-- **No frame is asked for** if all mappings are empty. -/
theorem asked_eq_nil_iff {guestMappings : List Mapping} :
    asked guestMappings = [] ↔ ∀ m ∈ guestMappings, m.size = 0 := by
  rw [asked, List.flatMap_eq_nil_iff]
  refine forall₂_congr fun m _ ↦ ?_
  rw [List.map_eq_nil_iff, List.filter_eq_nil_iff]
  constructor
  · intro h
    by_contra hsize
    refine h 0 (List.mem_range.2 (Nat.pos_of_ne_zero hsize)) ?_
    simpa using Nat.pos_of_ne_zero hsize
  · intro hsize k hk
    rw [hsize] at hk
    exact nomatch hk

/-! ## The lookup -/

/-- A table of capabilities has one for the addresses that are in it. -/
theorem frameCap_ne_zero_iff {table : List (ℕ × BitVec w)} (h : ∀ entry ∈ table, entry.2 ≠ 0)
    (paddr : BitVec w) :
    frameCap table paddr ≠ 0 ↔ ∃ entry ∈ table, BitVec.ofNat w entry.1 = paddr := by
  rw [frameCap]
  split
  · rename_i entry hfind
    exact iff_of_true (h entry (List.mem_of_find?_eq_some hfind))
      ⟨entry, List.mem_of_find?_eq_some hfind, by simpa using List.find?_some hfind⟩
  · rename_i hfind
    refine iff_of_false (fun h ↦ h rfl) ?_
    rintro ⟨entry, hmem, haddr⟩
    exact absurd haddr (by simpa using List.find?_eq_none.1 hfind entry hmem)

/-- **The lookup works**, whether or not the VMM gets that far. -/
theorem simpleFrameCapWrapper_ne_none_iff {pciDevices : List (List Mapping)} {paddr : BitVec w}
    (hpci : pciDevicesGetDeviceMemFrame A pciDevices paddr = 0) (guestMappings : List Mapping) :
    simpleFrameCapWrapper A pciDevices guestMappings paddr ≠ none ↔
      ∃ frame ∈ asked guestMappings, BitVec.ofNat w frame = paddr := by
  have hcap : guestMappingsGetMappingMemFrame A guestMappings paddr ≠ 0 ↔
      ∃ frame ∈ asked guestMappings, BitVec.ofNat w frame = paddr := by
    rw [guestMappingsGetMappingMemFrame, frameCap_ne_zero_iff]
    · rw [← map_frame_gmaps (A := A)]
      simp only [List.mem_map, exists_exists_and_eq_and]
    · intro entry hentry
      obtain ⟨gmap, hgmap, rfl⟩ := List.mem_map.1 hentry
      exact gmap_cap_ne hgmap
  rw [← hcap, simpleFrameCapWrapper, hpci]
  dsimp only
  rw [if_neg (not_not.2 rfl)]
  split
  · rename_i hne
    exact iff_of_true (Option.some_ne_none _) hne
  · rename_i hzero
    exact iff_of_false (fun h ↦ h rfl) hzero

/-! ## The loop -/

/-- **Every index is fatal**, and where that stops nothing the loop obtains all frames. -/
theorem bootLoop_eq {guestMappings : List Mapping} {left i : ℕ}
    (h : i + left = (gmaps A guestMappings).length) :
    (bootLoop A false guestMappings left i).fatal = List.range' i left ∧
      (bootLoop A false guestMappings left i).frames =
        ((gmaps A guestMappings).drop i).map fun gmap ↦ BitVec.ofNat 64 gmap.frame := by
  induction left generalizing i with
  | zero =>
    rw [List.drop_of_length_le (by omega)]
    exact ⟨rfl, rfl⟩
  | succ left ih =>
    have hlt : i < (gmaps A guestMappings).length := by omega
    obtain ⟨hfatal, hframes⟩ := ih (i := i + 1) (by omega)
    rw [bootLoop, guestMappingsGetGuestMap, List.getElem?_eq_getElem hlt, List.range'_succ,
      List.drop_eq_getElem_cons hlt]
    dsimp only
    rw [if_pos (by decide), if_neg Bool.false_ne_true, hfatal, hframes]
    exact ⟨rfl, rfl⟩

/-- So the enumeration itself is right, if only nobody minds the result. -/
theorem mainContinued_eq (guestMappings : List Mapping) :
    (mainContinued A false guestMappings).fatal = List.range (asked guestMappings).length ∧
      (mainContinued A false guestMappings).frames =
        (asked guestMappings).map (BitVec.ofNat 64) := by
  obtain ⟨hfatal, hframes⟩ := bootLoop_eq (A := A) (Nat.zero_add (gmaps A guestMappings).length)
  rw [mainContinued, guestMappingsNumGuestmaps, hfatal, hframes, ← map_frame_gmaps (A := A),
    List.length_map, List.range_eq_range', List.map_map]
  exact ⟨rfl, rfl⟩

/-- A loop that is entered takes the fatal branch at once. -/
theorem fatal_eq_nil_iff (aborts : Bool) (guestMappings : List Mapping) :
    (mainContinued A aborts guestMappings).fatal = [] ↔ asked guestMappings = [] := by
  rw [mainContinued, guestMappingsNumGuestmaps, ← map_frame_gmaps (A := A), List.map_eq_nil_iff]
  cases hgmaps : gmaps A guestMappings with
  | nil => exact iff_of_true rfl rfl
  | cons gmap rest =>
    refine iff_of_false ?_ (List.cons_ne_nil _ _)
    rw [List.length_cons, bootLoop, guestMappingsGetGuestMap, hgmaps]
    exact List.cons_ne_nil _ _

end

/-- **When guest mappings are usable.**  The VMM boots, with the frames that the configuration asks
for and capabilities for these and no others, exactly if it asks for none. -/
theorem usable_mappings_iff {w : ℕ} (A : AllocCap w) (aborts : Bool)
    (pciDevices : List (List Mapping)) (guestMappings : List Mapping) :
    UsableMappings A aborts pciDevices guestMappings ↔ ∀ m ∈ guestMappings, m.size = 0 := by
  rw [← asked_eq_nil_iff]
  constructor
  · intro h
    exact (fatal_eq_nil_iff aborts guestMappings).1 h.noFatal
  · intro hnone
    refine ⟨(fatal_eq_nil_iff aborts guestMappings).2 hnone, ?_,
      fun paddr hpci ↦ simpleFrameCapWrapper_ne_none_iff hpci guestMappings⟩
    have hgmaps : gmaps A guestMappings = [] := by
      rw [← List.map_eq_nil_iff, map_frame_gmaps, hnone]
    rw [mainContinued, guestMappingsNumGuestmaps, hgmaps, hnone]
    rfl

/-- A mapping of one page. -/
def onePage : Mapping := ⟨0xe0000000, 4096, 12⟩

/-- **One page is enough** for the loop to take the fatal branch. -/
theorem not_usable_onePage :
    ¬ ∀ (A : AllocCap 64) (aborts : Bool) (pciDevices : List (List Mapping))
      (guestMappings : List Mapping), UsableMappings A aborts pciDevices guestMappings := by
  intro h
  have hfatal := (h ⟨fun _ ↦ 1, fun _ ↦ by decide⟩ true [] [onePage]).noFatal
  exact absurd hfatal (by decide)

end Passthrough
end CamkesVm
