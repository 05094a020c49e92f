import Mathlib.Data.BitVec

/-!
# Frames of memory, and where an Arm VMM gets them

The VMM of an Arm VM maps frames of physical memory, into its own address space for its drivers and
into that of its guest.  For a frame at a given address it asks the allocator,
`vka_utspace_alloc_at`, which makes one from untyped memory and returns a cookie to free it by; or
it asks the system for a capability that exists already, `simple_get_frame_cap`.

The VMM has put a function of its own before the allocator's, `camkes_vm_utspace_alloc_at`.  The
frames of dataports are in no untyped memory, but there are capabilities to them, in a linker
section of the program, and this function copies one when it is asked for a page of a dataport.  It
has no cookie to return then.

A word has `w` bits, of which there are 32 or 64.  What the allocator, the system and the kernel
answer is not up to the program: `Answers` has it for one frame.

## What is here

* `Arch`, `pageBits`, `roundDown`, `roundUp` — words and pages. The width stays a parameter, so that
  the results hold for both architectures.
* `CapRights`, `VmFrame`, `DataportFrame` — the data of the source, with the rights and results that
  occur.
* `Answers`, `AllocAt` — what the world outside answers when a frame is asked for, and what the
  allocation comes to.
* `dataportFrame`, `camkesVmUtspaceAllocAt` — the search of the linker section, which takes the
  first dataport frame at exactly the address, and the function put before the allocator's.

The allocator and the system are not modelled beyond their answers. Any answer is possible at any
time, in particular a failure, so whatever is shown of the paths that fail holds for every way of
getting there.

The modules after this one are about three uses of frames: `CamkesVm.ArmMemory.MapPaddr` for
drivers, `CamkesVm.ArmMemory.OnDemand` for the guest's own accesses, and
`CamkesVm.ArmMemory.ExtraFrames` for the frames of other components.
-/

set_option autoImplicit false

namespace CamkesVm
namespace ArmMemory

/-! ## Words -/

/-- The architectures of Arm VMs. -/
inductive Arch
  /-- 32 bits. -/
  | aarch32
  /-- 64 bits. -/
  | aarch64
  deriving DecidableEq

/-- The number of bits of a word. -/
def Arch.wordBits : Arch → ℕ
  | .aarch32 => 32
  | .aarch64 => 64

variable {w : ℕ}

/-! ## Pages -/

/-- `seL4_PageBits`, and `PAGE_BITS_4K`. -/
abbrev pageBits : ℕ := 12

/-- `ROUND_DOWN(x, BIT(bits))`, and `PAGE_ALIGN`. -/
def roundDown (x : BitVec w) (bits : ℕ) : BitVec w := BitVec.ofNat w (x.toNat / 2 ^ bits * 2 ^ bits)

/-- `ROUND_UP(x, BIT(bits))`. -/
def roundUp (x : BitVec w) (bits : ℕ) : BitVec w :=
  BitVec.ofNat w ((x.toNat + 2 ^ bits - 1) / 2 ^ bits * 2 ^ bits)

/-! ## Frames -/

/-- `seL4_CapRights_t`, as far as it occurs. -/
inductive CapRights
  /-- `seL4_NoRights` -/
  | noRights
  /-- `seL4_AllRights` -/
  | allRights
  deriving DecidableEq

/-- `vm_frame_t`. -/
structure VmFrame (w : ℕ) where
  /-- The capability; 0 is `seL4_CapNull`. -/
  cptr : BitVec w
  /-- The rights. -/
  rights : CapRights
  /-- Where it goes in the guest. -/
  vaddr : BitVec w
  /-- Its size. -/
  sizeBits : ℕ
  deriving DecidableEq

/-- No frame. -/
def VmFrame.null : VmFrame w := ⟨0, .noRights, 0, 0⟩

/-- `dataport_frame_t`. -/
structure DataportFrame (w : ℕ) where
  /-- The physical address. -/
  paddr : BitVec w
  /-- Where the VMM has it. -/
  vaddr : BitVec w
  /-- The capability. -/
  cap : BitVec w
  /-- The size, in bytes. -/
  size : ℕ
  deriving DecidableEq

/-! ## The allocator -/

/-- What is answered when a frame is asked for. -/
structure Answers (w : ℕ) where
  /-- `vka_cnode_copy` succeeds. -/
  copies : Bool
  /-- The cookie of the allocator's `utspace_alloc_at`, if it succeeds. -/
  utspaceAllocAt : Option (BitVec w)
  /-- `simple_get_frame_cap` succeeds. -/
  getFrameCap : Bool
  deriving DecidableEq

/-- What `vka_utspace_alloc_at` does. -/
inductive AllocAt (w : ℕ)
  /-- It fails. -/
  | error
  /-- It copies the capability to a dataport frame, and stores no cookie. -/
  | copied
  /-- It allocates a frame, and stores its cookie. -/
  | allocated (cookie : BitVec w)
  deriving DecidableEq

/-- The frame of a dataport that a page of `2 ^ sizeBits` bytes is in.  Of those at the address, the
ones of another size are reported and passed over; and only small pages are looked up. -/
def dataportFrame (frames : List (DataportFrame w)) (sizeBits : ℕ) (paddr : BitVec w) :
    Option (DataportFrame w) :=
  if sizeBits = pageBits then
    frames.find? fun frame ↦ frame.paddr = paddr ∧ frame.size = 2 ^ sizeBits
  else none

/-- `camkes_vm_utspace_alloc_at`. -/
def camkesVmUtspaceAllocAt (frames : List (DataportFrame w)) (sizeBits : ℕ) (paddr : BitVec w)
    (answers : Answers w) : AllocAt w :=
  match dataportFrame frames sizeBits paddr with
  | some _ => if answers.copies then .copied else .error
  | none =>
    match answers.utspaceAllocAt with
    | none => .error
    | some cookie => .allocated cookie

end ArmMemory
end CamkesVm
