import CamkesVm.ArmMemory.State
import CamkesVm.Lib.Transition

/-!
# Memory on demand

When an Arm guest touches an address where it has no memory, its VMM can put a page there:
`unhandled_mem_fault_callback` reserves the page, and `vm_map_reservation` asks `on_demand_iterator`
for a frame to map.  That tries device memory first, at the address the guest used, and ordinary
memory after that.  Most addresses are no device's, so the second is the usual case.

Each of the two takes a slot from the allocator for the capability.  The allocator's own function
for a frame of ordinary memory gives its slot back if it fails.  `alloc_vm_device_cap` does not:
`slots_eq_backed_iff` says which faults cost a slot that no page is backed by.

## What is here

* `Fault` — a fault with everything that is answered while it is handled; `FaultResult` and
  `Allocated` are what comes of it.
* `allocVmDeviceCap`, `allocVmRamCap`, `onDemandIterator`, `unhandledMemFaultCallback` — the
  functions of the source, from the inside out.
* `OnDemand`, `OnDemand.Step` — the slots that were taken, and the pages that were reserved, got a
  frame and were mapped, through a sequence of faults.
* `onDemandIterator_cases`, `next_spec` — what one fault does, for the frame and for the numbers.
* `OnDemand.NoneLost`, `OnDemand.NoneIdle` — the two ways to say that slots and pages agree, against
  the pages with a frame and against the pages that are mapped.
* `slots_eq_backed_iff` — both, as conditions on the faults of a run: `Fault.Wastes` and
  `Fault.Installs` look at the answers only.

A page is reserved once, since a second reservation at the same address fails; `nodup_backed` draws
the conclusion from it that counting frames is counting pages.
-/

set_option autoImplicit false

namespace CamkesVm
namespace ArmMemory

open Transition

variable {w : ℕ}

/-! ## A fault -/

/-- A fault, and what is answered while it is handled. -/
structure Fault (w : ℕ) where
  /-- The address. -/
  paddr : BitVec w
  /-- `vm_reserve_memory_at` succeeds. -/
  reserves : Bool
  /-- The slot that `vka_cspace_alloc_path` finds, if there is one. -/
  cspaceAlloc : Option (BitVec w)
  /-- What is answered for a frame of device memory. -/
  answers : Answers w
  /-- The capability that `vka_alloc_frame_maybe_device` returns, if it succeeds, in a slot that it
  has taken itself. -/
  allocFrame : Option (BitVec w)
  /-- `vm_map_reservation` can map a frame. -/
  maps : Bool

/-- The page of the address. -/
def Fault.page (fault : Fault w) : BitVec w := roundDown fault.paddr pageBits

/-- `memory_fault_result_t`, as far as it occurs. -/
inductive FaultResult
  /-- `FAULT_RESTART` -/
  | restart
  /-- `FAULT_ERROR` -/
  | error
  deriving DecidableEq

/-- What an allocation function leaves: the frame, if it succeeds, and the slots it has taken. -/
structure Allocated (w : ℕ) where
  /-- `frame_result` -/
  frame : Option (VmFrame w)
  /-- The slots. -/
  slots : List (BitVec w)
  deriving DecidableEq

/-- `alloc_vm_device_cap`. -/
def allocVmDeviceCap (dataports : List (DataportFrame w)) (fault : Fault w) (addr : BitVec w) :
    Allocated w :=
  match fault.cspaceAlloc with
  | none => ⟨none, []⟩
  | some slot =>
    match camkesVmUtspaceAllocAt dataports pageBits addr fault.answers with
    | .copied | .allocated _ => ⟨some ⟨slot, .allRights, addr, pageBits⟩, [slot]⟩
    | .error =>
      if fault.answers.getFrameCap then ⟨some ⟨slot, .allRights, addr, pageBits⟩, [slot]⟩
      -- the slot stays taken
      else ⟨none, [slot]⟩

/-- `alloc_vm_ram_cap`. -/
def allocVmRamCap (fault : Fault w) (addr : BitVec w) : Allocated w :=
  match fault.allocFrame with
  | none => ⟨none, []⟩
  | some cptr => ⟨some ⟨cptr, .allRights, addr, pageBits⟩, [cptr]⟩

/-- `on_demand_iterator`: the frame it returns, and the slots that were taken. -/
def onDemandIterator (dataports : List (DataportFrame w)) (fault : Fault w) (addr : BitVec w) :
    VmFrame w × List (BitVec w) :=
  let paddr := roundDown addr pageBits
  let device := allocVmDeviceCap dataports fault paddr
  match device.frame with
  | some frame => (frame, device.slots)
  | none =>
    let ram := allocVmRamCap fault paddr
    (ram.frame.getD .null, device.slots ++ ram.slots)

/-- What the VMM has done so far on demand. -/
structure OnDemand (w : ℕ) where
  /-- The slots it has taken from the allocator. -/
  slots : List (BitVec w)
  /-- The pages it has reserved. -/
  reserved : List (BitVec w)
  /-- The frames it has got for pages. -/
  backed : List (VmFrame w)
  /-- The frames that have been mapped. -/
  mapped : List (VmFrame w)
  deriving DecidableEq

/-- Nothing yet. -/
def OnDemand.initial : OnDemand w := ⟨[], [], [], []⟩

/-- `unhandled_mem_fault_callback`, where `install` is `CONFIG_VM_ONDEMAND_DEVICE_INSTALL`. -/
def unhandledMemFaultCallback (install : Bool) (dataports : List (DataportFrame w))
    (s : OnDemand w) (fault : Fault w) : FaultResult × OnDemand w :=
  if install ∧ fault.page ≠ 0 ∧ fault.reserves then
    let (frame, slots) := onDemandIterator dataports fault fault.page
    let s := { s with slots := s.slots ++ slots, reserved := fault.page :: s.reserved }
    if frame = .null then (.error, s)
    else
      let s := { s with backed := s.backed ++ [frame] }
      if fault.maps then (.restart, { s with mapped := s.mapped ++ [frame] }) else (.error, s)
  else (.error, s)

/-! ## Sequences of faults -/

/-- A page is not reserved twice. -/
def OnDemand.Enabled (s : OnDemand w) (fault : Fault w) : Prop :=
  fault.reserves = true → fault.page ∉ s.reserved

instance (s : OnDemand w) (fault : Fault w) : Decidable (s.Enabled fault) :=
  inferInstanceAs (Decidable (_ → _))

/-- The state after a fault. -/
def OnDemand.next (dataports : List (DataportFrame w)) (s : OnDemand w) (fault : Fault w) :
    OnDemand w :=
  (unhandledMemFaultCallback true dataports s fault).2

/-- A fault is handled, with memory to be installed on demand. -/
abbrev OnDemand.Step (dataports : List (DataportFrame w)) :
    OnDemand w → Fault w → OnDemand w → Prop :=
  Does OnDemand.Enabled (OnDemand.next dataports)

/-- There is device memory for the page: the allocator makes a frame of it or a dataport has one, or
else the system has a capability. -/
def Fault.HasDevice (dataports : List (DataportFrame w)) (fault : Fault w) : Prop :=
  camkesVmUtspaceAllocAt dataports pageBits fault.page fault.answers ≠ .error ∨
    fault.answers.getFrameCap = true

/-- The fault comes to `alloc_vm_device_cap`. -/
def Fault.Handled (fault : Fault w) : Prop := fault.page ≠ 0 ∧ fault.reserves = true

/-- There is no device memory for a page, and a slot for it. -/
def Fault.Wastes (dataports : List (DataportFrame w)) (fault : Fault w) : Prop :=
  fault.Handled ∧ fault.cspaceAlloc ≠ none ∧ ¬ fault.HasDevice dataports

/-- There is memory for a page, and a slot for it. -/
def Fault.Backable (dataports : List (DataportFrame w)) (fault : Fault w) : Prop :=
  fault.Handled ∧
    (fault.cspaceAlloc ≠ none ∧ fault.HasDevice dataports ∨ fault.allocFrame ≠ none)

section

variable {dataports : List (DataportFrame w)} {s t : OnDemand w} {fault : Fault w}

instance : Decidable (fault.HasDevice dataports) :=
  inferInstanceAs (Decidable (_ ∨ _))

instance : Decidable fault.Handled := inferInstanceAs (Decidable (_ ∧ _))

instance : Decidable (fault.Wastes dataports) := inferInstanceAs (Decidable (_ ∧ _))

instance : Decidable (fault.Backable dataports) := inferInstanceAs (Decidable (_ ∧ _))

theorem roundDown_roundDown (x : BitVec w) (bits : ℕ) :
    roundDown (roundDown x bits) bits = roundDown x bits := by
  have hle : x.toNat / 2 ^ bits * 2 ^ bits < 2 ^ w :=
    (Nat.div_mul_le_self _ _).trans_lt x.isLt
  rw [roundDown, roundDown, BitVec.toNat_ofNat, Nat.mod_eq_of_lt hle,
    Nat.mul_div_cancel _ (Nat.two_pow_pos bits)]

/-- The frame that a capability to a page is. -/
def pageFrame (fault : Fault w) (cptr : BitVec w) : VmFrame w :=
  ⟨cptr, .allRights, fault.page, pageBits⟩

theorem pageFrame_ne_null (cptr : BitVec w) : pageFrame fault cptr ≠ .null :=
  fun h ↦ nomatch congrArg VmFrame.rights h

/-- A capability to device memory goes to the slot that was taken for it. -/
theorem allocVmDeviceCap_of_hasDevice (hdevice : fault.HasDevice dataports) :
    allocVmDeviceCap dataports fault fault.page =
      ⟨fault.cspaceAlloc.map (pageFrame fault), fault.cspaceAlloc.toList⟩ := by
  rw [allocVmDeviceCap]
  split
  · rename_i hslot
    rw [hslot]
    rfl
  · rename_i slot hslot
    rw [hslot]
    split
    · rfl
    · rfl
    · rename_i herror
      have hcap : fault.answers.getFrameCap = true := hdevice.resolve_left fun h ↦ h herror
      rw [if_pos hcap]
      rfl

/-- Where there is none, the slot is taken all the same. -/
theorem allocVmDeviceCap_of_not_hasDevice (hdevice : ¬ fault.HasDevice dataports) :
    allocVmDeviceCap dataports fault fault.page = ⟨none, fault.cspaceAlloc.toList⟩ := by
  obtain ⟨herror, hcap⟩ := not_or.1 hdevice
  rw [allocVmDeviceCap, not_not.1 herror]
  cases fault.cspaceAlloc with
  | none => rfl
  | some slot => exact if_neg hcap

/-- **The frame for a page**: one of device memory, in the slot that was taken for it; or one of
ordinary memory, and the slot that was taken for the other stays taken; or none. -/
theorem onDemandIterator_cases (dataports : List (DataportFrame w)) (fault : Fault w) :
    (∃ slot, fault.cspaceAlloc = some slot ∧ fault.HasDevice dataports ∧
        onDemandIterator dataports fault fault.page = (pageFrame fault slot, [slot])) ∨
      ¬ (fault.cspaceAlloc ≠ none ∧ fault.HasDevice dataports) ∧
        ((∃ cptr, fault.allocFrame = some cptr ∧ onDemandIterator dataports fault fault.page =
            (pageFrame fault cptr, fault.cspaceAlloc.toList ++ [cptr])) ∨
          fault.allocFrame = none ∧
            onDemandIterator dataports fault fault.page = (.null, fault.cspaceAlloc.toList)) := by
  have hpage : roundDown fault.page pageBits = fault.page := roundDown_roundDown _ _
  rw [onDemandIterator, hpage]
  by_cases hdevice : fault.HasDevice dataports
  · rw [allocVmDeviceCap_of_hasDevice hdevice]
    cases fault.cspaceAlloc with
    | some slot => exact .inl ⟨slot, rfl, hdevice, rfl⟩
    | none =>
      refine .inr ⟨fun h ↦ h.1 rfl, ?_⟩
      rw [allocVmRamCap]
      cases fault.allocFrame with
      | some cptr => exact .inl ⟨cptr, rfl, rfl⟩
      | none => exact .inr ⟨rfl, rfl⟩
  · rw [allocVmDeviceCap_of_not_hasDevice hdevice]
    refine .inr ⟨fun h ↦ hdevice h.2, ?_⟩
    rw [allocVmRamCap]
    cases fault.allocFrame with
    | some cptr => exact .inl ⟨cptr, rfl, rfl⟩
    | none => exact .inr ⟨rfl, by simp⟩

/-- A fault that does not come to the allocation changes nothing. -/
theorem next_of_not_handled (hhandled : ¬ fault.Handled) : s.next dataports fault = s := by
  rw [OnDemand.next, unhandledMemFaultCallback, if_neg fun h ↦ hhandled h.2]

/-- **What a fault does**: if there is memory for the page, a frame of it is one more that backs a
page, and one more that is mapped if that goes well.  As many slots are taken, and another where one
is wasted. -/
theorem next_spec (dataports : List (DataportFrame w)) (s : OnDemand w) (fault : Fault w) :
    ∃ slots frame, frame.vaddr = fault.page ∧
    (s.next dataports fault).slots = s.slots ++ slots ∧
    (s.next dataports fault).backed =
      s.backed ++ (if fault.Backable dataports then [frame] else []) ∧
    (s.next dataports fault).mapped =
      s.mapped ++ (if fault.Backable dataports ∧ fault.maps = true then [frame] else []) ∧
    (s.next dataports fault).reserved =
      (if fault.Handled then [fault.page] else []) ++ s.reserved ∧
    slots.length = (if fault.Backable dataports then 1 else 0) +
      (if fault.Wastes dataports then 1 else 0) := by
  by_cases hhandled : fault.Handled
  swap
  · have hwastes : ¬ fault.Wastes dataports := fun h ↦ hhandled h.1
    have hbackable : ¬ fault.Backable dataports := fun h ↦ hhandled h.1
    rw [next_of_not_handled hhandled]
    refine ⟨[], pageFrame fault 0, rfl, ?_⟩
    simp [hhandled, hwastes, hbackable]
  have hbackable : fault.Backable dataports ↔
      fault.cspaceAlloc ≠ none ∧ fault.HasDevice dataports ∨ fault.allocFrame ≠ none :=
    and_iff_right hhandled
  have hwastes : fault.Wastes dataports ↔
      fault.cspaceAlloc ≠ none ∧ ¬ fault.HasDevice dataports := and_iff_right hhandled
  rw [OnDemand.next, unhandledMemFaultCallback, if_pos ⟨rfl, hhandled⟩, if_pos hhandled]
  rcases onDemandIterator_cases dataports fault with
    ⟨slot, hslot, hdevice, hiterator⟩ | ⟨hno, ⟨cptr, hcptr, hiterator⟩ | ⟨hnone, hiterator⟩⟩
  · refine ⟨[slot], pageFrame fault slot, rfl, ?_⟩
    rw [hiterator]
    cases hmaps : fault.maps <;>
      simp [hbackable, hwastes, hslot, hdevice, pageFrame_ne_null]
  · refine ⟨fault.cspaceAlloc.toList ++ [cptr], pageFrame fault cptr, rfl, ?_⟩
    rw [hiterator]
    cases hmaps : fault.maps <;> cases hslot : fault.cspaceAlloc <;>
      simp_all [pageFrame_ne_null]
  · refine ⟨fault.cspaceAlloc.toList, pageFrame fault 0, rfl, ?_⟩
    rw [hiterator]
    cases hslot : fault.cspaceAlloc <;> simp_all

/-- **What a fault does to the numbers.** -/
theorem lengths_next (dataports : List (DataportFrame w)) (s : OnDemand w) (fault : Fault w) :
    ((s.next dataports fault).slots.length = s.slots.length +
      (if fault.Backable dataports then 1 else 0) + (if fault.Wastes dataports then 1 else 0)) ∧
    ((s.next dataports fault).backed.length =
      s.backed.length + (if fault.Backable dataports then 1 else 0)) ∧
    ((s.next dataports fault).mapped.length =
      s.mapped.length + (if fault.Backable dataports ∧ fault.maps = true then 1 else 0)) := by
  obtain ⟨slots, frame, -, hslots, hbacked, hmapped, -, hlength⟩ :=
    next_spec dataports s fault
  rw [hslots, hbacked, hmapped, List.length_append, List.length_append, List.length_append,
    apply_ite List.length, apply_ite List.length, hlength]
  exact ⟨(Nat.add_assoc _ _ _).symm, rfl, rfl⟩

/-- **The pages are different ones**: none is reserved twice, and a frame is got for a reserved
page only.  So there are as many pages with a frame as there are frames. -/
theorem nodup_backed {faults : List (Fault w)}
    (h : Run (OnDemand.Step dataports) .initial faults t) :
    (t.backed.map VmFrame.vaddr).Nodup ∧ ∀ frame ∈ t.backed, frame.vaddr ∈ t.reserved := by
  refine h.invariant (I := fun t ↦ (t.backed.map VmFrame.vaddr).Nodup ∧
    ∀ frame ∈ t.backed, frame.vaddr ∈ t.reserved) ⟨List.nodup_nil, nofun⟩ ?_
  rintro s fault t ⟨hnodup, hmem⟩ ⟨henabled, rfl⟩
  obtain ⟨slots, frame, hvaddr, -, hbacked, -, hreserved, -⟩ :=
    next_spec dataports s fault
  rw [hbacked, hreserved]
  by_cases hbackable : fault.Backable dataports
  · have hfresh : fault.page ∉ s.reserved := henabled hbackable.1.2
    rw [if_pos hbackable, if_pos hbackable.1, List.map_append]
    constructor
    · refine hnodup.append (List.nodup_singleton _) fun page hpage hpage' ↦ hfresh ?_
      obtain ⟨frame', hframe', rfl⟩ := List.mem_map.1 hpage
      rw [← hvaddr, ← List.mem_singleton.1 hpage']
      exact hmem frame' hframe'
    · intro frame' hframe'
      rcases List.mem_append.1 hframe' with hold | hnew
      · exact List.mem_cons_of_mem _ (hmem frame' hold)
      · rw [List.mem_singleton.1 hnew, hvaddr]
        exact List.mem_cons_self
  · rw [if_neg hbackable, List.append_nil]
    exact ⟨hnodup, fun frame' hframe' ↦ List.mem_append_right _ (hmem frame' hframe')⟩

end

/-! ## The slots and the pages -/

/-- As many slots have been taken as there are frames for pages. -/
def OnDemand.NoneLost (s : OnDemand w) : Prop := s.slots.length = s.backed.length

/-- As many slots have been taken as there are pages mapped. -/
def OnDemand.NoneIdle (s : OnDemand w) : Prop := s.slots.length = s.mapped.length

/-- A fault wastes no slot, and if there is memory for its page then this can be mapped. -/
def Fault.Installs (dataports : List (DataportFrame w)) (fault : Fault w) : Prop :=
  ¬ fault.Wastes dataports ∧ (fault.Backable dataports → fault.maps = true)

/-- **When the slots are those of the pages.**  Through a sequence of faults there are as many slots
taken as there are pages with a frame, exactly as long as no fault is at a page that there is no
device memory for while there is a slot for it.  There are as many as pages mapped exactly as long
as in addition each frame can be mapped. -/
theorem slots_eq_backed_iff (dataports : List (DataportFrame w)) (faults : List (Fault w))
    (t : OnDemand w) :
    (Run (Guarded (fun _ fault ↦ ¬ fault.Wastes dataports) (OnDemand.Step dataports))
        .initial faults t ↔
      Run (Guarded (fun s _ ↦ s.NoneLost) (OnDemand.Step dataports)) .initial faults t ∧
        t.NoneLost) ∧
    (Run (Guarded (fun _ fault ↦ fault.Installs dataports) (OnDemand.Step dataports))
        .initial faults t ↔
      Run (Guarded (fun s _ ↦ s.NoneIdle) (OnDemand.Step dataports)) .initial faults t ∧
        t.NoneIdle) := by
  refine ⟨Run.guarded_iff (I := OnDemand.NoneLost) rfl ?_,
    Run.guarded_iff (I := OnDemand.NoneIdle) rfl ?_⟩
  · rintro s fault t hs ⟨-, rfl⟩
    obtain ⟨hslots, hbacked, -⟩ := lengths_next dataports s fault
    rw [OnDemand.NoneLost] at hs ⊢
    rw [hslots, hbacked, hs]
    by_cases hwastes : fault.Wastes dataports <;> simp [hwastes]
  · rintro s fault t hs ⟨-, rfl⟩
    obtain ⟨hslots, -, hmapped⟩ := lengths_next dataports s fault
    rw [OnDemand.NoneIdle] at hs ⊢
    rw [hslots, hmapped, hs, Fault.Installs]
    by_cases hbackable : fault.Backable dataports
    · by_cases hmaps : fault.maps = true
      · by_cases hwastes : fault.Wastes dataports <;> simp [hwastes, hbackable, hmaps]
      · -- the slot of a frame that cannot be mapped is not made up for
        refine iff_of_false (fun h ↦ hmaps (h.2 hbackable)) ?_
        have hunmapped : ¬ (fault.Backable dataports ∧ fault.maps = true) := fun h ↦ hmaps h.2
        rw [if_pos hbackable, if_neg hunmapped]
        omega
    · by_cases hwastes : fault.Wastes dataports <;> simp [hwastes, hbackable]

/-- A fault at `0x8000123`, where there is no device: slot 100 is taken in vain, and then there is
ordinary memory in slot 101. -/
def ramFault : Fault 64 where
  paddr := 0x8000123
  reserves := true
  cspaceAlloc := some 100
  answers := { copies := false, utspaceAllocAt := none, getFrameCap := false }
  allocFrame := some 101
  maps := true

/-- **One page costs two slots** where there is no device. -/
theorem not_noneLost_ramFault :
    ¬ ∀ (dataports : List (DataportFrame 64)) (faults : List (Fault 64)) (t : OnDemand 64),
      Run (OnDemand.Step dataports) .initial faults t → t.NoneLost := by
  intro h
  have hrun : Run (OnDemand.Step []) .initial [ramFault]
      ⟨[100, 101], [0x8000000], [⟨101, .allRights, 0x8000000, 12⟩],
        [⟨101, .allRights, 0x8000000, 12⟩]⟩ := .single ⟨by decide, by decide⟩
  exact absurd (h [] [ramFault] _ hrun) (by decide : ¬ 2 = 1)

end ArmMemory
end CamkesVm
