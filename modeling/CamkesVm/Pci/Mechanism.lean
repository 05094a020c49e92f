import CamkesVm.Pci.ConfigPorts

/-!
# The configuration mechanism

What the two ports are for can be said of one register of 32 bits.  A write to the address port
changes the bytes it writes, and bits 0 and 1 of the register are always 0; a read yields its bytes;
and the data port leads to the place that the register says.  An access that lies only partly in a
port is refused.

The handlers do this only for some accesses.  They look at where an access to the address port
begins, and not at where it ends, so that one that goes beyond the register is carried out.  They
clear bits 0 and 1 of what is written, not of the register, so that a write that does not begin at
its first byte loses two bits there, and leaves those of the register as `malloc` left them.
`run_obeys_iff` says that these accesses are all that goes wrong.

## What is here

* `latch`, `latched`, `place` — the register by itself: what a write makes of it, what a read
  yields, and the place it names.
* `stored_eq_latch_iff`, `configAddress_eq_iff` — when the handler's own computations agree with
  that.
* `ObeysIn`, `ObeysOut`, `obeysIn_iff`, `obeysOut_iff` — one access of each kind, and exactly when
  it is carried out as it should be.
* `Machine` — the handlers side by side with the register, under the same accesses;
  `Machine.Matches` compares them, and `Machine.Obeys` is about the next access.
* `Machine.Careful`, `careful_iff`, `lowClear_next` — the condition on an access and the state
  before it, and what becomes of bits 0 and 1.
* `run_obeys_iff`, `not_matches_after_byte` — the runs, and two accesses after which the two differ.
-/

set_option autoImplicit false

namespace CamkesVm
namespace Pci

open Transition ByteWords

/-! ## The register -/

/-- What a write to the address port makes of the register. -/
def latch (register : BitVec 32) (offset size : ℕ) (val : BitVec 32) : BitVec 32 :=
  ofBytes 32 (overlay (byte register) offset (byte val) size) 4 &&& 0xfffffffc

/-- What a read of the address port yields: the bytes that are read, and zeros above them. -/
def latched (register : BitVec 32) (offset size : ℕ) : BitVec 32 :=
  ofBytes 32 (fun k ↦ if k < size then byte register (offset + k) else 0) 4

/-- Where an access to the data port goes. -/
def place (register : BitVec 32) (offset : ℕ) : ConfigAddress where
  bus := register.extractLsb' 16 8
  dev := (register.extractLsb' 11 5).setWidth 8
  func := (register.extractLsb' 8 3).setWidth 8
  reg := (register &&& 0xfc).setWidth 8 + BitVec.ofNat 8 offset

/-- Bits 0 and 1 are 0: clearing them changes nothing. -/
def LowClear (x : BitVec 32) : Prop := x &&& 0xfffffffc = x

/-- Clearing them changes the first byte only. -/
theorem byte_clear (x : BitVec 32) {i : ℕ} (hi : i < 4) :
    byte (x &&& 0xfffffffc) i = if i = 0 then byte x i &&& 0xfc else byte x i := by
  have hfirst : byte (0xfffffffc : BitVec 32) 0 = 0xfc := by decide
  have hothers : ∀ i, i < 4 → i ≠ 0 → byte (0xfffffffc : BitVec 32) i = BitVec.allOnes 8 := by
    decide
  rw [byte_and]
  split
  · rename_i h0
    rw [h0, hfirst]
  · rename_i h0
    rw [hothers i hi h0, BitVec.and_allOnes]

theorem lowClear_iff {x : BitVec 32} : LowClear x ↔ byte x 0 &&& 0xfc = byte x 0 := by
  constructor
  · intro h
    have hbyte := byte_clear x (i := 0) (by decide)
    rw [h, if_pos rfl] at hbyte
    exact hbyte.symm
  · intro h
    refine eq_of_byte_eq (n := 4) (by decide) fun i hi ↦ ?_
    rw [byte_clear x hi]
    split
    · rename_i h0
      rw [h0, h]
    · rfl

/-- The bytes of the address are those of the heap. -/
theorem byte_confPortAddr (s : ConfigState) {i : ℕ} (hi : i < 4) :
    byte s.confPortAddr i = s.heap i := byte_ofBytes s.heap (by decide) hi

theorem byte_latch (register val : BitVec 32) (offset size : ℕ) {i : ℕ} (hi : i < 4) :
    byte (latch register offset size val) i =
      if i = 0 then overlay (byte register) offset (byte val) size i &&& 0xfc
      else overlay (byte register) offset (byte val) size i := by
  rw [latch, byte_clear _ hi, byte_ofBytes _ (by decide) hi]

/-- The address after a write, as the handler makes it. -/
def stored (s : ConfigState) (offset size : ℕ) (val : BitVec 32) : BitVec 32 :=
  ofBytes 32 (overlay s.heap offset (byte (val &&& 0xfffffffc)) size) 4

section

variable (s : ConfigState) {offset size : ℕ} {val : BitVec 32}

theorem byte_stored (offset size : ℕ) (val : BitVec 32) {i : ℕ} (hi : i < 4) :
    byte (stored s offset size val) i =
      overlay s.heap offset (byte (val &&& 0xfffffffc)) size i :=
  byte_ofBytes _ (by decide) hi

/-- It is what it should be, if the write begins at its first byte, -/
theorem stored_of_first (hsize : 0 < size) :
    stored s 0 size val = latch s.confPortAddr 0 size val := by
  refine eq_of_byte_eq (n := 4) (by decide) fun i hi ↦ ?_
  rw [byte_stored _ _ _ _ hi, byte_latch _ _ _ _ hi]
  by_cases hmem : 0 ≤ i ∧ i < 0 + size
  · rw [overlay_of_mem _ _ hmem, overlay_of_mem _ _ hmem, byte_clear _ (by omega)]
    rfl
  · have hne : i ≠ 0 := by omega
    rw [overlay_of_not_mem _ _ hmem, overlay_of_not_mem _ _ hmem, if_neg hne,
      byte_confPortAddr s hi]

/-- or if there is nothing to clear wherever the first byte comes from. -/
theorem stored_of_lowClear (hval : LowClear val) (hregister : LowClear s.confPortAddr) :
    stored s offset size val = latch s.confPortAddr offset size val := by
  refine eq_of_byte_eq (n := 4) (by decide) fun i hi ↦ ?_
  rw [byte_stored _ _ _ _ hi, byte_latch _ _ _ _ hi, show val &&& 0xfffffffc = val from hval]
  by_cases hmem : offset ≤ i ∧ i < offset + size
  · rw [overlay_of_mem _ _ hmem, overlay_of_mem _ _ hmem]
    split
    · rename_i h0
      rw [h0, Nat.zero_sub]
      exact (lowClear_iff.mp hval).symm
    · rfl
  · rw [overlay_of_not_mem _ _ hmem, overlay_of_not_mem _ _ hmem, ← byte_confPortAddr s hi]
    split
    · rename_i h0
      rw [h0]
      exact (lowClear_iff.mp hregister).symm
    · rfl

/-- A write that begins further on clears the byte it begins with, and not the first one. -/
theorem lowClear_of_stored (hne : offset ≠ 0) (hsize : 0 < size) (hle : offset + size ≤ 4)
    (h : stored s offset size val = latch s.confPortAddr offset size val) :
    LowClear val ∧ LowClear s.confPortAddr := by
  have hmem : offset ≤ offset ∧ offset < offset + size := by omega
  have hnot : ¬(offset ≤ 0 ∧ 0 < offset + size) := by omega
  have hval := congrArg (byte · offset) h
  have hregister := congrArg (byte · 0) h
  rw [byte_stored _ _ _ _ (by omega), byte_latch _ _ _ _ (by omega), if_neg hne,
    overlay_of_mem _ _ hmem, overlay_of_mem _ _ hmem, Nat.sub_self, byte_clear _ (by decide),
    if_pos rfl] at hval
  rw [byte_stored _ _ _ _ (by decide), byte_latch _ _ _ _ (by decide), if_pos rfl,
    overlay_of_not_mem _ _ hnot, overlay_of_not_mem _ _ hnot,
    ← byte_confPortAddr s (by decide)] at hregister
  exact ⟨lowClear_iff.mpr hval, lowClear_iff.mpr hregister.symm⟩

/-- **The address as it is written** is the one it should be, if the write begins at its first byte,
or bits 0 and 1 of the value and of the register are 0 in any case. -/
theorem stored_eq_latch_iff (hsize : 0 < size) (hle : offset + size ≤ 4) :
    stored s offset size val = latch s.confPortAddr offset size val ↔
      offset = 0 ∨ LowClear val ∧ LowClear s.confPortAddr := by
  constructor
  · intro h
    exact or_iff_not_imp_left.mpr fun hne ↦ lowClear_of_stored s hne hsize hle h
  · rintro (rfl | ⟨hval, hregister⟩)
    · exact stored_of_first s hsize
    · exact stored_of_lowClear s hval hregister

end

/-! ## Decoding it -/

theorem getLsbD_mask (n : ℕ) {i : ℕ} (hi : i < 32) : (mask n).getLsbD i = decide (i < n) := by
  rw [mask, BitVec.getLsbD_ofNat, Nat.one_shiftLeft, Nat.testBit_two_pow_sub_one,
    decide_eq_true hi, Bool.true_and]

/-- A field of a word, by its place and width. -/
theorem setWidth_and_mask (x : BitVec 32) (k n : ℕ) :
    (x >>> k &&& mask n).setWidth 8 = (x.extractLsb' k n).setWidth 8 := by
  refine BitVec.eq_of_getLsbD_eq fun i hi ↦ ?_
  rw [BitVec.getLsbD_setWidth, BitVec.getLsbD_setWidth, BitVec.getLsbD_and,
    BitVec.getLsbD_ushiftRight, BitVec.getLsbD_extractLsb', getLsbD_mask n (by omega)]
  exact congrArg (decide (i < 8) && ·) (Bool.and_comm _ _)

/-- **The place that is reached** is the one the register says, if bits 0 and 1 of it are 0. -/
theorem configAddress_eq_iff (s : ConfigState) (offset : ℕ) :
    s.configAddress (BitVec.ofNat 8 offset) = place s.confPortAddr offset ↔
      LowClear s.confPortAddr := by
  generalize hx : s.confPortAddr = x
  have hbus : (x >>> 16 &&& mask 8).setWidth 8 = x.extractLsb' 16 8 :=
    (setWidth_and_mask x 16 8).trans (BitVec.setWidth_eq _)
  have hcode : (x &&& mask 8).setWidth 8 = byte x 0 :=
    (setWidth_and_mask x 0 8).trans (BitVec.setWidth_eq _)
  have hplace : (x &&& 0xfc).setWidth 8 = byte x 0 &&& 0xfc := by
    rw [byte_zero, BitVec.setWidth_and]
    rfl
  have hreg : (x &&& mask 8).setWidth 8 + BitVec.ofNat 8 offset =
      (x &&& 0xfc).setWidth 8 + BitVec.ofNat 8 offset ↔ LowClear x := by
    rw [BitVec.add_left_inj, hcode, hplace, lowClear_iff, eq_comm]
  rw [ConfigState.configAddress, place, hx, hbus, setWidth_and_mask, setWidth_and_mask,
    ConfigAddress.mk.injEq]
  exact ⟨fun h ↦ hreg.mp h.2.2.2, fun h ↦ ⟨rfl, rfl, rfl, hreg.mpr h⟩⟩

/-! ## What the handlers do -/

section

variable {P : ConfigPorts} {s : ConfigState} {answers : Answers} {port val : BitVec 32} {size : ℕ}

/-- An access that begins in the address port is carried out, wherever it ends. -/
theorem pciConfigIoIn_of_begins (h : Begins P.addr port) :
    pciConfigIoIn P s answers port size = (some (ofBytes 32 (overlay (fun _ ↦ 0) 0
      (fun k ↦ s.heap (offset P.addr port + k)) size) 4), s) := by
  rw [pciConfigIoIn, if_pos (begins_iff.mp h), ← offset_eq h]

theorem pciConfigIoOut_of_begins (h : Begins P.addr port) :
    pciConfigIoOut P s port size val = (true, { s with
      heap := overlay s.heap (offset P.addr port) (byte (val &&& 0xfffffffc)) size }) := by
  have hmask : ~~~mask 2 = 0xfffffffc := by decide
  rw [pciConfigIoOut, if_pos (begins_iff.mp h), ← offset_eq h, ← hmask]

theorem pciConfigIoIn_of_checked (h : ¬Begins P.addr port)
    (hcheck : port < P.data ∨ P.dataEnd < port + BitVec.ofNat 32 size) :
    pciConfigIoIn P s answers port size = (none, s) := by
  rw [pciConfigIoIn, if_neg fun hno ↦ h (begins_iff.mpr hno), if_pos hcheck]

theorem pciConfigIoOut_of_checked (h : ¬Begins P.addr port)
    (hcheck : port < P.data ∨ P.dataEnd < port + BitVec.ofNat 32 size) :
    pciConfigIoOut P s port size val = (false, s) := by
  rw [pciConfigIoOut, if_neg fun hno ↦ h (begins_iff.mpr hno), if_pos hcheck]

/-- An access that lies inside the data port is made at the place the handlers find. -/
theorem pciConfigIoIn_of_inside (h : Inside P.data port size) (hsize : Sized size) :
    pciConfigIoIn P s answers port size =
      (some ((answers size (s.configAddress (BitVec.ofNat 8 (offset P.data port)))).setWidth 32),
        s.call (.read size (s.configAddress (BitVec.ofNat 8 (offset P.data port))))) := by
  rw [pciConfigIoIn, if_neg fun hno ↦ h.not_begins hsize (begins_iff.mpr hno),
    if_neg h.data_checked, ofNat_offset (h.begins hsize)]
  rcases hsize with rfl | rfl | rfl <;> rfl

theorem pciConfigIoOut_of_inside (h : Inside P.data port size) (hsize : Sized size) :
    pciConfigIoOut P s port size val =
      (true, s.call (.write size (s.configAddress (BitVec.ofNat 8 (offset P.data port)))
        ((val.setWidth (8 * size)).setWidth 32))) := by
  rw [pciConfigIoOut, if_neg fun hno ↦ h.not_begins hsize (begins_iff.mpr hno),
    if_neg h.data_checked, ofNat_offset (h.begins hsize)]
  rcases hsize with rfl | rfl | rfl
  · rfl
  · rfl
  · exact congrArg (fun v ↦ (true, s.call (.write 4 _ v))) (by simp)

/-- The bytes that are read are those of the register. -/
theorem ofBytes_read (s : ConfigState) {offset : ℕ} (h : offset + size ≤ 4) :
    ofBytes 32 (overlay (fun _ ↦ 0) 0 (fun k ↦ s.heap (offset + k)) size) 4 =
      latched s.confPortAddr offset size := by
  refine ofBytes_congr fun i _ ↦ ?_
  by_cases hi : i < size
  · rw [overlay_of_mem _ _ ⟨Nat.zero_le i, by omega⟩, if_pos hi,
      byte_confPortAddr s (by omega), Nat.sub_zero]
  · rw [overlay_of_not_mem _ _ (by omega), if_neg hi]

end

/-! ## What they should do -/

section

variable (P : ConfigPorts) (s : ConfigState) (register : BitVec 32)

/-- What a read should do. -/
structure ObeysIn (answers : Answers) (port : BitVec 32) (size : ℕ) : Prop where
  /-- An access that lies partly in a port is refused. -/
  refused : Crosses P.addr port size ∨ Crosses P.data port size →
    pciConfigIoIn P s answers port size = (none, s)
  /-- The address port yields the bytes of the register. -/
  address : Inside P.addr port size →
    pciConfigIoIn P s answers port size = (some (latched register (offset P.addr port) size), s)
  /-- The data port leads to the place that the register says. -/
  data : Inside P.data port size →
    pciConfigIoIn P s answers port size =
      (some ((answers size (place register (offset P.data port))).setWidth 32),
        s.call (.read size (place register (offset P.data port))))

/-- What a write should do.  What it makes of the register is said by `Machine.next`. -/
structure ObeysOut (port : BitVec 32) (size : ℕ) (val : BitVec 32) : Prop where
  /-- An access that lies partly in a port is refused. -/
  refused : Crosses P.addr port size ∨ Crosses P.data port size →
    pciConfigIoOut P s port size val = (false, s)
  /-- The address port accepts it, and no register is reached. -/
  address : Inside P.addr port size →
    (pciConfigIoOut P s port size val).1 = true ∧
      (pciConfigIoOut P s port size val).2.calls = s.calls
  /-- The data port leads to the place that the register says. -/
  data : Inside P.data port size →
    pciConfigIoOut P s port size val =
      (true, s.call (.write size (place register (offset P.data port))
        ((val.setWidth (8 * size)).setWidth 32)))

end

/-- An access that begins in the address port ends in it. -/
def Kept (P : ConfigPorts) (port : BitVec 32) (size : ℕ) : Prop :=
  Begins P.addr port → Inside P.addr port size

section

variable {P : ConfigPorts} {s : ConfigState} {answers : Answers} {port val : BitVec 32} {size : ℕ}

/-- Otherwise it crosses the end of it. -/
theorem crosses_of_not_kept (hsize : Sized size) (h : ¬Kept P port size) :
    Begins P.addr port ∧ Crosses P.addr port size := by
  obtain ⟨hbegins, hout⟩ := Classical.not_imp.mp h
  have hpos := hsize.pos
  have hfrom := hbegins.1
  exact ⟨hbegins, ⟨by omega, hbegins.2⟩, hout⟩

/-- So the accesses that lie partly in a port do not begin in the address port. -/
theorem Kept.not_begins (h : Kept P port size)
    (hcross : Crosses P.addr port size ∨ Crosses P.data port size) : ¬Begins P.addr port := by
  intro hbegins
  have hapart := P.apart
  have hfrom := (h hbegins).1
  have hto := (h hbegins).2
  rcases hcross with hcross | ⟨hcross, -⟩
  · exact hcross.2 (h hbegins)
  · omega

/-- **A read** does what it should, if and only if it does not leave the address port and bits 0 and
1 of the register are 0 when it matters. -/
theorem obeysIn_iff (hsize : Sized size) :
    Kept P port size ∧ (Inside P.data port size → LowClear s.confPortAddr) ↔
      ObeysIn P s s.confPortAddr answers port size := by
  constructor
  · rintro ⟨hkept, hclear⟩
    refine ⟨fun hcross ↦ ?_, fun hin ↦ ?_, fun hin ↦ ?_⟩
    · exact pciConfigIoIn_of_checked (hkept.not_begins hcross)
        (Crosses.data_checked hcross hsize)
    · rw [pciConfigIoIn_of_begins (hin.begins hsize), ofBytes_read s (hin.offset_add_le)]
    · rw [pciConfigIoIn_of_inside hin hsize, (configAddress_eq_iff s _).mpr (hclear hin)]
  · intro h
    constructor
    · by_contra hkept
      obtain ⟨hbegins, hcross⟩ := crosses_of_not_kept hsize hkept
      have hrefused := congrArg Prod.fst (h.refused (.inl hcross))
      rw [pciConfigIoIn_of_begins hbegins] at hrefused
      exact absurd hrefused (Option.some_ne_none _)
    · intro hin
      have hcall := congrArg (fun r ↦ r.2.calls) (h.data hin)
      rw [pciConfigIoIn_of_inside hin hsize] at hcall
      have hplace := List.append_cancel_left hcall
      rw [List.cons.injEq, LibCall.read.injEq] at hplace
      exact (configAddress_eq_iff s _).mp hplace.1.2

/-- A write leaves the register alone, unless it begins in the address port. -/
theorem heap_pciConfigIoOut (h : ¬Begins P.addr port) :
    (pciConfigIoOut P s port size val).2.heap = s.heap := by
  rw [pciConfigIoOut, if_neg fun hno ↦ h (begins_iff.mpr hno)]
  split
  · rfl
  · dsimp only
    split <;> rfl

/-- **A write** does what it should to the register and otherwise, if and only if it does not leave
the address port and bits 0 and 1 are 0 when it matters. -/
theorem obeysOut_iff (hsize : Sized size) :
    Kept P port size ∧ (Inside P.data port size → LowClear s.confPortAddr) ∧
        (Inside P.addr port size →
          offset P.addr port = 0 ∨ LowClear val ∧ LowClear s.confPortAddr) ↔
      ObeysOut P s s.confPortAddr port size val ∧
        (pciConfigIoOut P s port size val).2.confPortAddr =
          if Inside P.addr port size then latch s.confPortAddr (offset P.addr port) size val
          else s.confPortAddr := by
  constructor
  · rintro ⟨hkept, hclear, hwrite⟩
    refine ⟨⟨fun hcross ↦ ?_, fun hin ↦ ?_, fun hin ↦ ?_⟩, ?_⟩
    · exact pciConfigIoOut_of_checked (hkept.not_begins hcross)
        (Crosses.data_checked hcross hsize)
    · rw [pciConfigIoOut_of_begins (hin.begins hsize)]
      exact ⟨rfl, rfl⟩
    · rw [pciConfigIoOut_of_inside hin hsize, (configAddress_eq_iff s _).mpr (hclear hin)]
    · split
      · rename_i hin
        rw [pciConfigIoOut_of_begins (hin.begins hsize)]
        exact (stored_eq_latch_iff s hsize.pos hin.offset_add_le).mpr (hwrite hin)
      · rename_i hout
        rw [ConfigState.confPortAddr, heap_pciConfigIoOut fun hno ↦ hout (hkept hno)]
        rfl
  · rintro ⟨h, hregister⟩
    refine ⟨?_, fun hin ↦ ?_, fun hin ↦ ?_⟩
    · by_contra hkept
      obtain ⟨hbegins, hcross⟩ := crosses_of_not_kept hsize hkept
      have hrefused := congrArg Prod.fst (h.refused (.inl hcross))
      rw [pciConfigIoOut_of_begins hbegins] at hrefused
      exact Bool.false_ne_true hrefused.symm
    · have hcall := congrArg (fun r ↦ r.2.calls) (h.data hin)
      rw [pciConfigIoOut_of_inside hin hsize] at hcall
      have hplace := List.append_cancel_left hcall
      rw [List.cons.injEq, LibCall.write.injEq] at hplace
      exact (configAddress_eq_iff s _).mp hplace.1.2.1
    · rw [if_pos hin, pciConfigIoOut_of_begins (hin.begins hsize)] at hregister
      exact (stored_eq_latch_iff s hsize.pos hin.offset_add_le).mp hregister

end

/-! ## Runs -/

/-- An access to a port. -/
inductive Access
  /-- It is read, and the library's functions would answer so. -/
  | ioIn (answers : Answers) (port : BitVec 32) (ioSize : ℕ)
  /-- It is written. -/
  | ioOut (port : BitVec 32) (ioSize : ℕ) (val : BitVec 32)

/-- The handlers and the register. -/
structure Machine where
  /-- What the handlers share. -/
  config : ConfigState
  /-- What the register should be. -/
  register : BitVec 32

namespace Machine

variable (P : ConfigPorts) (y : Machine)

/-- One access. -/
def next : Access → Machine
  | .ioIn answers port ioSize =>
    { y with config := (pciConfigIoIn P y.config answers port ioSize).2 }
  | .ioOut port ioSize val =>
    { config := (pciConfigIoOut P y.config port ioSize val).2
      register :=
        if Inside P.addr port ioSize then latch y.register (offset P.addr port) ioSize val
        else y.register }

/-- An access has one, two or four bytes. -/
def Enabled (_ : Machine) : Access → Prop
  | .ioIn _ _ ioSize => Sized ioSize
  | .ioOut _ ioSize _ => Sized ioSize

instance : (a : Access) → Decidable (y.Enabled a)
  | .ioIn _ _ _ | .ioOut _ _ _ => inferInstanceAs (Decidable (Sized _))

/-- The step relation of the machine. -/
abbrev Step : Machine → Access → Machine → Prop := Does Enabled (next P)

/-- The machine at the start, with what `malloc` has left. -/
def init (heap : ℕ → BitVec 8) : Machine where
  config := { heap := heap, calls := [] }
  register := ofBytes 32 heap 4

/-- **The latched address is what it should be.** -/
def Matches : Prop := y.config.confPortAddr = y.register

instance : Decidable y.Matches := inferInstanceAs (Decidable (_ = _))

/-- **An access does what it should.** -/
def Obeys : Access → Prop
  | .ioIn answers port ioSize => ObeysIn P y.config y.register answers port ioSize
  | .ioOut port ioSize val => ObeysOut P y.config y.register port ioSize val

/-- An access that begins in the address port ends in it, a write to it begins at its first byte or
has bits 0 and 1 equal to 0, and so has the register for such a write and for the data port. -/
def Careful : Access → Prop
  | .ioIn _ port ioSize => Kept P port ioSize ∧
      (Inside P.data port ioSize → LowClear y.config.confPortAddr)
  | .ioOut port ioSize val => Kept P port ioSize ∧
      (Inside P.data port ioSize → LowClear y.config.confPortAddr) ∧
      (Inside P.addr port ioSize →
        offset P.addr port = 0 ∨ LowClear val ∧ LowClear y.config.confPortAddr)

variable {P y}

/-- A read leaves the register alone. -/
theorem confPortAddr_ioIn (s : ConfigState) (answers : Answers) (port : BitVec 32) (size : ℕ) :
    (pciConfigIoIn P s answers port size).2.confPortAddr = s.confPortAddr := by
  rw [pciConfigIoIn]
  split
  · rfl
  · split
    · rfl
    · dsimp only
      split <;> rfl

/-- **One access**: it does what it should to the register and otherwise, if and only if it is
careful. -/
theorem careful_iff {a : Access} (h : y.Matches) (henabled : y.Enabled a) :
    y.Careful P a ↔ y.Obeys P a ∧ (y.next P a).Matches := by
  cases a with
  | ioIn answers port ioSize =>
    have hregister : (y.next P (.ioIn answers port ioSize)).Matches :=
      (confPortAddr_ioIn y.config answers port ioSize).trans h
    rw [Careful, Obeys, and_iff_left hregister, ← h]
    exact obeysIn_iff henabled
  | ioOut port ioSize val =>
    rw [Careful, Obeys, Matches, next, ← h]
    exact obeysOut_iff henabled

/-- **From the first write of the address on** bits 0 and 1 of the register are 0, as long as the
accesses are careful. -/
theorem lowClear_next {a : Access} (h : y.Matches) (henabled : y.Enabled a)
    (hcareful : y.Careful P a) (hclear : LowClear y.config.confPortAddr ∨
      ∃ port ioSize val, a = .ioOut port ioSize val ∧ Inside P.addr port ioSize) :
    LowClear (y.next P a).config.confPortAddr := by
  have hlatch : ∀ register offset size val, LowClear (latch register offset size val) := by
    intro register offset size val
    rw [LowClear, latch, BitVec.and_assoc, BitVec.and_self]
  have hnext : (y.next P a).config.confPortAddr = (y.next P a).register :=
    ((careful_iff h henabled).mp hcareful).2
  rcases hclear with hclear | ⟨port, ioSize, val, rfl, hin⟩
  · cases a with
    | ioIn answers port ioSize =>
      change LowClear (pciConfigIoIn P y.config answers port ioSize).2.confPortAddr
      rw [confPortAddr_ioIn]
      exact hclear
    | ioOut port ioSize val =>
      rw [hnext, next]
      dsimp only
      split
      · exact hlatch _ _ _ _
      · exact h ▸ hclear
  · rw [hnext, next]
    dsimp only
    rw [if_pos hin]
    exact hlatch _ _ _ _

/-- **When the mechanism works**: in the runs all of whose accesses are careful, and in those only,
every access does what it should and the latched address is always what it should be. -/
theorem run_obeys_iff (P : ConfigPorts) (heap : ℕ → BitVec 8) (as : List Access) (y : Machine) :
    Run (Guarded (Careful P) (Step P)) (init heap) as y ↔
      Run (Guarded (fun y a ↦ y.Matches ∧ y.Obeys P a) (Step P)) (init heap) as y ∧
        y.Matches := by
  refine Run.guarded_iff_of_outcome rfl ?_
  rintro y a - h ⟨henabled, rfl⟩
  exact careful_iff h henabled

/-- **Two bits that are lost.**  With the ports of a PC the guest writes an address, and then the
byte of it that has the device and the function. -/
theorem not_matches_after_byte :
    ¬∀ P heap as y, Run (Step P) (init heap) as y → y.Matches := by
  intro h
  let P : ConfigPorts := ⟨0xcf8, 0xcfc, by decide, by decide, by decide⟩
  have hrun : Run (Step P) (init fun _ ↦ 0)
      [.ioOut 0xcf8 4 0x80000000, .ioOut 0xcf9 1 0x03] _ := run_foldl (by decide)
  exact absurd (h P _ _ _ hrun) (by decide)

end Machine

end Pci
end CamkesVm
