import CamkesVm.ArmMemory.State

/-!
# Frames of other components

A component can be given frames of another by placing capabilities to them behind those that the VMM
knows of: `num_extra_frame_caps` of them, which `vmm_init` keeps from the allocator.  The module
`map_frame_hack` maps them into the guest from `extra_frame_map_address` on.

For a page it finds the index of the capability from the distance of the two addresses, but takes
the page's from the first one's.  Only for the first page does this make no difference:
`backedByReserved_iff`.

## What is here

* `ExtraFrames` — the configuration, with the bounds that its types give.
* `startExtraFrameCaps`, `allocatorStart` — where the capabilities are, and which slots `vmm_init`
  leaves to the allocator.
* `capIdx`, `mapFrameHackIterator`, `mapFrameHackInitModule` — the module, with the index computed
  in 32 bits as in the source, where addresses have the width of a word.
* `KeptOut`, `BackedByReserved` — what is meant: page `k` gets the capability of its number, and
  that is one that the allocator cannot hand out again.
* `capIdx_page` — the index for a page, in closed form.
* `backedByReserved_iff`, `not_backedByReserved_twoFrames` — at most one page; and the smallest
  configuration with two.

The reservation is asked of the library, which calls the iterator once for each page of it. Whether
it succeeds is a parameter, and if it does not then nothing is mapped.
-/

set_option autoImplicit false

namespace CamkesVm
namespace ArmMemory

/-! ## The module -/

/-- What the VMM is configured with.  The attributes are numbers of type `int`. -/
structure ExtraFrames (w : ℕ) where
  /-- `extra_frame_map_address` -/
  extraFrameMapAddress : BitVec 32
  /-- `num_extra_frame_caps` -/
  numExtraFrameCaps : ℕ
  /-- It is an `int`. -/
  num_lt : numExtraFrameCaps < 2 ^ 31
  /-- `simple_last_valid_cap`. -/
  lastValidCap : BitVec w

namespace ExtraFrames

variable {w : ℕ} (c : ExtraFrames w)

/-- `extra_frame_map_address`, converted to an address. -/
def mapAddress : BitVec w := c.extraFrameMapAddress.signExtend w

/-- `start_extra_frame_caps`, which `vmm_init` stores as an `int`. -/
def startExtraFrameCaps : BitVec 32 := (c.lastValidCap + 1).setWidth 32

/-- The first slot that `vmm_init` lets the allocator use. -/
def allocatorStart : BitVec w := c.lastValidCap + 1 + BitVec.ofNat w c.numExtraFrameCaps

/-- `cap_idx`. -/
def capIdx (addr : BitVec w) : BitVec 32 :=
  ((c.mapAddress - addr) / BitVec.ofNat w (2 ^ pageBits)).setWidth 32

/-- `map_frame_hack_iterator`. -/
def mapFrameHackIterator (addr : BitVec w) : VmFrame w :=
  ⟨(c.startExtraFrameCaps + c.capIdx addr).signExtend w, .allRights, addr, pageBits⟩

/-- The page `k` from `extra_frame_map_address` on. -/
def page (k : ℕ) : BitVec w := c.mapAddress + BitVec.ofNat w (k * 2 ^ pageBits)

/-- The size that is reserved. -/
def reservationSize : BitVec w := BitVec.ofNat w c.numExtraFrameCaps * BitVec.ofNat w (2 ^ pageBits)

/-- `map_frame_hack_init_module`: the frames it maps, if `vm_reserve_memory_at` succeeds or does
not.  `vm_map_reservation` calls the iterator for each page of the reservation. -/
def mapFrameHackInitModule (reserves : Bool) : List (VmFrame w) :=
  if c.numExtraFrameCaps = 0 then []
  else if reserves then
    (List.range (c.reservationSize.toNat / 2 ^ pageBits)).map fun k ↦
      c.mapFrameHackIterator (c.page k)
  else []

/-! ## The capabilities -/

/-- A capability is one of those that `vmm_init` keeps from the allocator. -/
def KeptOut (cptr : BitVec w) : Prop :=
  ∃ k < c.numExtraFrameCaps, cptr = c.lastValidCap + 1 + BitVec.ofNat w k

/-- The guest gets the frames it is meant to. -/
structure BackedByReserved (mapped : List (VmFrame w)) : Prop where
  /-- Page `k` is backed by capability `k`. -/
  backed : ∀ k < c.numExtraFrameCaps,
    ⟨(c.startExtraFrameCaps + BitVec.ofNat 32 k).signExtend w, .allRights, c.page k, pageBits⟩ ∈
      mapped
  /-- The capabilities are different ones. -/
  distinct : (mapped.map VmFrame.cptr).Nodup
  /-- The guest gets no other capability. -/
  keptOut : ∀ frame ∈ mapped, c.KeptOut frame.cptr

/-- The first capability is the number it is stored as. -/
def Fits : Prop := c.startExtraFrameCaps.signExtend w = c.lastValidCap + 1

variable {c}

/-- The capabilities kept from the allocator are those between the ones the VMM knows of and the
allocator's. -/
theorem keptOut_iff {cptr : BitVec w}
    (hroom : c.lastValidCap.toNat + 1 + c.numExtraFrameCaps < 2 ^ w) :
    c.KeptOut cptr ↔ c.lastValidCap < cptr ∧ cptr < c.allocatorStart := by
  have hword : ∀ k ≤ c.numExtraFrameCaps,
      (c.lastValidCap + 1 + BitVec.ofNat w k).toNat = c.lastValidCap.toNat + 1 + k := by
    intro k hk
    have hone : (1 : BitVec w) = BitVec.ofNat w 1 := rfl
    rw [BitVec.add_assoc, hone, BitVec.ofNat_add_ofNat, BitVec.toNat_add, BitVec.toNat_ofNat,
      Nat.mod_eq_of_lt (a := 1 + k) (by omega), Nat.mod_eq_of_lt (by omega)]
    omega
  rw [BitVec.lt_def, BitVec.lt_def, allocatorStart, hword _ (Nat.le_refl _)]
  constructor
  · rintro ⟨k, hk, rfl⟩
    rw [hword k hk.le]
    omega
  · rintro ⟨hlast, hlt⟩
    refine ⟨cptr.toNat - (c.lastValidCap.toNat + 1), by omega, BitVec.eq_of_toNat_eq ?_⟩
    rw [hword _ (by omega)]
    omega

theorem mapFrameHackIterator_mem {reserves : Bool} {frame : VmFrame w}
    (h : frame ∈ c.mapFrameHackInitModule reserves) :
    frame = c.mapFrameHackIterator frame.vaddr := by
  rw [mapFrameHackInitModule] at h
  split at h
  · exact nomatch h
  · split at h
    · obtain ⟨k, -, rfl⟩ := List.mem_map.1 h
      rfl
    · exact nomatch h

@[simp] theorem page_zero : c.page 0 = c.mapAddress := by
  simp [page]

@[simp] theorem capIdx_page_zero : c.capIdx (c.page 0) = 0 := by
  simp [capIdx]

/-- **The index for a page after the first** counts down from the number of pages that there are
addresses for. -/
theorem capIdx_page {k : ℕ} (hk : 0 < k) (hroom : k * 2 ^ pageBits < 2 ^ w) :
    c.capIdx (c.page k) = BitVec.ofNat 32 (2 ^ w / 2 ^ pageBits - k) := by
  have hpage : 0 < k * 2 ^ pageBits := Nat.mul_pos hk (Nat.two_pow_pos pageBits)
  have hsmall : 2 ^ pageBits < 2 ^ w := (Nat.le_mul_of_pos_left _ hk).trans_lt hroom
  have hdistance : (c.mapAddress - c.page k).toNat = 2 ^ w - k * 2 ^ pageBits := by
    have hneg : c.mapAddress - c.page k = -BitVec.ofNat w (k * 2 ^ pageBits) :=
      sub_add_cancel_left _ _
    rw [hneg, BitVec.toNat_neg, BitVec.toNat_ofNat, Nat.mod_eq_of_lt hroom,
      Nat.mod_eq_of_lt (by omega)]
  refine BitVec.eq_of_toNat_eq ?_
  rw [capIdx, BitVec.toNat_setWidth, BitVec.toNat_udiv, hdistance, BitVec.toNat_ofNat,
    Nat.mod_eq_of_lt hsmall, BitVec.toNat_ofNat, Nat.mul_comm, Nat.sub_mul_div]

/-- A page of which the index is wrong is not backed as it is meant to be. -/
theorem not_mem_mapped {k : ℕ} {reserves : Bool} (hk : c.capIdx (c.page k) ≠ BitVec.ofNat 32 k)
    (hw : 32 ≤ w) : ⟨(c.startExtraFrameCaps + BitVec.ofNat 32 k).signExtend w, .allRights, c.page k,
      pageBits⟩ ∉ c.mapFrameHackInitModule reserves := by
  intro h
  have hcptr := congrArg VmFrame.cptr (mapFrameHackIterator_mem h)
  refine hk ?_
  have hsame : c.startExtraFrameCaps + BitVec.ofNat 32 k =
      c.startExtraFrameCaps + c.capIdx (c.page k) := by
    refine BitVec.eq_of_toInt_eq ?_
    rw [← BitVec.toInt_signExtend_of_le hw, ← BitVec.toInt_signExtend_of_le hw]
    exact congrArg BitVec.toInt hcptr
  exact ((BitVec.add_right_inj _).1 hsame).symm

/-- With one capability, the page is backed by it. -/
theorem mapFrameHackInitModule_one (hnum : c.numExtraFrameCaps = 1) (hw : 32 ≤ w) :
    c.mapFrameHackInitModule true =
      [⟨c.startExtraFrameCaps.signExtend w, .allRights, c.page 0, pageBits⟩] := by
  have hsize : c.reservationSize.toNat / 2 ^ pageBits = 1 := by
    have hlt : 2 ^ pageBits < 2 ^ w :=
      Nat.pow_lt_pow_right (by omega) (lt_of_lt_of_le (by decide) hw)
    have hone : BitVec.ofNat w 1 * BitVec.ofNat w (2 ^ pageBits) = BitVec.ofNat w (2 ^ pageBits) :=
      BitVec.one_mul _
    rw [reservationSize, hnum, hone, BitVec.toNat_ofNat, Nat.mod_eq_of_lt hlt]
    exact Nat.div_self (Nat.two_pow_pos pageBits)
  rw [mapFrameHackInitModule, if_neg (by omega), if_pos rfl, hsize, List.range_one,
    List.map_singleton, mapFrameHackIterator, capIdx_page_zero, add_zero]

end ExtraFrames

/-- **When the guest gets the frames it is meant to.**  Where the reservation is made, each page
from `extra_frame_map_address` on is backed by the capability of its number, and the capabilities
are different ones of those that the allocator is kept from, exactly if there is at most one, of
which the number is an `int`. -/
theorem backedByReserved_iff (arch : Arch) (c : ExtraFrames arch.wordBits) :
    c.BackedByReserved (c.mapFrameHackInitModule true) ↔
      c.numExtraFrameCaps = 0 ∨ c.numExtraFrameCaps = 1 ∧ c.Fits := by
  have hw : 32 ≤ arch.wordBits := by cases arch <;> decide
  have hindex : c.capIdx (c.page 1) ≠ BitVec.ofNat 32 1 := by
    rw [ExtraFrames.capIdx_page Nat.one_pos (by cases arch <;> decide)]
    cases arch <;> decide
  constructor
  · intro h
    have hle : c.numExtraFrameCaps ≤ 1 := by
      by_contra hmany
      exact ExtraFrames.not_mem_mapped hindex hw (h.backed 1 (by omega))
    rcases Nat.eq_zero_or_pos c.numExtraFrameCaps with hzero | hpos
    · exact .inl hzero
    · have hone : c.numExtraFrameCaps = 1 := by omega
      refine .inr ⟨hone, ?_⟩
      rw [ExtraFrames.mapFrameHackInitModule_one hone hw] at h
      obtain ⟨k, hk, hcptr⟩ := h.keptOut _ List.mem_cons_self
      obtain rfl : k = 0 := by omega
      exact hcptr.trans (BitVec.add_zero _)
  · rintro (hzero | ⟨hone, hfits⟩)
    · have hnone : c.mapFrameHackInitModule true = [] := if_pos hzero
      rw [hnone]
      exact ⟨fun k hk ↦ absurd hk (by omega), List.nodup_nil, nofun⟩
    · rw [ExtraFrames.mapFrameHackInitModule_one hone hw]
      refine ⟨fun k hk ↦ ?_, List.nodup_singleton _, fun frame hframe ↦ ?_⟩
      · obtain rfl : k = 0 := by omega
        rw [BitVec.add_zero]
        exact List.mem_cons_self
      · rw [List.mem_singleton.1 hframe]
        exact ⟨0, by omega, hfits.trans (BitVec.add_zero _).symm⟩

/-- Two frames of other components, in slots 2000 and 2001, for `0x60000000` on. -/
def twoFrames : ExtraFrames 64 where
  extraFrameMapAddress := 0x60000000
  numExtraFrameCaps := 2
  num_lt := by decide
  lastValidCap := 1999

/-- **The second of two pages** is backed by the last capability before the two, one of the VMM's
own. -/
theorem not_backedByReserved_twoFrames :
    ¬ ∀ (arch : Arch) (c : ExtraFrames arch.wordBits),
      c.BackedByReserved (c.mapFrameHackInitModule true) := by
  intro h
  obtain ⟨k, hk, hcptr⟩ := (h .aarch64 twoFrames).keptOut
    ⟨1999, .allRights, 0x60001000, pageBits⟩ (by decide)
  have hlt : k < 2 := hk
  rcases (by omega : k = 0 ∨ k = 1) with rfl | rfl
  · exact absurd hcptr (by decide)
  · exact absurd hcptr (by decide)

end ArmMemory
end CamkesVm
