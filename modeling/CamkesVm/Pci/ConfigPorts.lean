import CamkesVm.Lib.ByteWords
import CamkesVm.Lib.Transition

/-!
# The PCI configuration ports

A configuration register is reached in two steps: its address is written to the address port, and
then it is read or written through the data port.  `pci_config_io_in` and `pci_config_io_out` do
that for the VMM.  The address is kept in four bytes from `malloc`, which nobody initialises, and
copied to and from them with `memcpy`, as many bytes as the access has.

The functions of the library that do the accesses are not here.  A call comes with what they would
answer it, and `calls` has the ones that were made.

## What is here

* `ConfigPorts` — where the two ports are; in the source these are constants, and what matters of
  them is that they are apart and below the end of the ports.
* `ConfigAddress`, `LibCall`, `Answers` — a place in configuration space, and the calls of the
  library with their answers.
* `ConfigState` — the bytes behind the cookie. There are more than four of them: the handlers copy
  as many as they are told to, from wherever they are told to begin.
* `pciConfigIoIn`, `pciConfigIoOut` — the two functions, in the order of their tests.
* `Begins`, `Inside`, `Crosses` — the three ways an access may lie to a port, and what the tests of
  the handlers say about them.

What the handlers should do is in `CamkesVm.Pci.Mechanism`, and whether they do it.
-/

set_option autoImplicit false

namespace CamkesVm
namespace Pci

open ByteWords

/-! ## The ports -/

/-- The two ports, each four bytes wide.  There are 65536 ports. -/
structure ConfigPorts where
  /-- `PCI_CONF_PORT_ADDR` -/
  addr : BitVec 32
  /-- `PCI_CONF_PORT_DATA` -/
  data : BitVec 32
  addr_fits : addr.toNat + 4 ≤ 65536
  data_fits : data.toNat + 4 ≤ 65536
  apart : addr.toNat + 4 ≤ data.toNat ∨ data.toNat + 4 ≤ addr.toNat

/-- `PCI_CONF_PORT_ADDR_END` -/
def ConfigPorts.addrEnd (P : ConfigPorts) : BitVec 32 := P.addr + 4

/-- `PCI_CONF_PORT_DATA_END` -/
def ConfigPorts.dataEnd (P : ConfigPorts) : BitVec 32 := P.data + 4

/-- `MASK` -/
def mask (n : ℕ) : BitVec 32 := BitVec.ofNat 32 (1 <<< n - 1)

/-! ## State -/

/-- The place of a configuration register. -/
structure ConfigAddress where
  /-- The bus. -/
  bus : BitVec 8
  /-- The device on it. -/
  dev : BitVec 8
  /-- The function of that, `fun`. -/
  func : BitVec 8
  /-- The first byte of the register. -/
  reg : BitVec 8
  deriving DecidableEq

/-- A call of one of the library's functions. -/
inductive LibCall
  /-- `pci_config_read8`, `pci_config_read16` or `pci_config_read32`, by the number of bytes -/
  | read (size : ℕ) (address : ConfigAddress)
  /-- `pci_config_write8`, `pci_config_write16` or `pci_config_write32` -/
  | write (size : ℕ) (address : ConfigAddress) (val : BitVec 32)
  deriving DecidableEq

/-- What the functions that read answer. -/
abbrev Answers := (size : ℕ) → ConfigAddress → BitVec (8 * size)

/-- What the two handlers share. -/
structure ConfigState where
  /-- The bytes from `conf_port_addr` on.  Four of them are the cookie. -/
  heap : ℕ → BitVec 8
  /-- The calls that were made, oldest first. -/
  calls : List LibCall

namespace ConfigState

variable (s : ConfigState)

/-- `*conf_port_addr` -/
def confPortAddr : BitVec 32 := ofBytes 32 s.heap 4

/-- Making a call. -/
def call (c : LibCall) : ConfigState := { s with calls := s.calls ++ [c] }

/-- The place the address port says, `offset` bytes further on. -/
def configAddress (offset : BitVec 8) : ConfigAddress where
  bus := (s.confPortAddr >>> 16 &&& mask 8).setWidth 8
  dev := (s.confPortAddr >>> 11 &&& mask 5).setWidth 8
  func := (s.confPortAddr >>> 8 &&& mask 3).setWidth 8
  reg := (s.confPortAddr &&& mask 8).setWidth 8 + offset

end ConfigState

/-! ## The handlers -/

section

variable (P : ConfigPorts) (s : ConfigState)

/-- `pci_config_io_in`: the value of `*result`, unless it fails. -/
def pciConfigIoIn (answers : Answers) (port : BitVec 32) (ioSize : ℕ) :
    Option (BitVec 32) × ConfigState :=
  if P.addr ≤ port ∧ port < P.addrEnd then
    let offset : BitVec 8 := (port - P.addr).setWidth 8
    -- emulate read addr
    (some (ofBytes 32 (overlay (fun _ ↦ 0) 0 (fun k ↦ s.heap (offset.toNat + k)) ioSize) 4), s)
  else if port < P.data ∨ P.dataEnd < port + BitVec.ofNat 32 ioSize then (none, s)
  else
    let address := s.configAddress ((port - P.data).setWidth 8)
    -- read the real config
    match ioSize with
    | 1 => (some ((answers 1 address).setWidth 32), s.call (.read 1 address))
    | 2 => (some ((answers 2 address).setWidth 32), s.call (.read 2 address))
    | 4 => (some ((answers 4 address).setWidth 32), s.call (.read 4 address))
    | _ => (none, s)

/-- `pci_config_io_out`: whether it succeeds. -/
def pciConfigIoOut (port : BitVec 32) (ioSize : ℕ) (val : BitVec 32) : Bool × ConfigState :=
  if P.addr ≤ port ∧ port < P.addrEnd then
    let offset : BitVec 8 := (port - P.addr).setWidth 8
    -- emulate read addr
    let val := val &&& ~~~mask 2
    (true, { s with heap := overlay s.heap offset.toNat (byte val) ioSize })
  else if port < P.data ∨ P.dataEnd < port + BitVec.ofNat 32 ioSize then (false, s)
  else
    let address := s.configAddress ((port - P.data).setWidth 8)
    -- read the real config
    match ioSize with
    | 1 => (true, s.call (.write 1 address ((val.setWidth 8).setWidth 32)))
    | 2 => (true, s.call (.write 2 address ((val.setWidth 16).setWidth 32)))
    | 4 => (true, s.call (.write 4 address val))
    | _ => (false, s)

end

/-! ## Where an access goes -/

section

variable (base port : BitVec 32) (size : ℕ)

/-- An access begins in the four bytes from `base` on, -/
def Begins : Prop := base.toNat ≤ port.toNat ∧ port.toNat < base.toNat + 4

/-- has all its bytes in them, -/
def Inside : Prop := base.toNat ≤ port.toNat ∧ port.toNat + size ≤ base.toNat + 4

/-- or only some. -/
def Crosses : Prop :=
  (base.toNat < port.toNat + size ∧ port.toNat < base.toNat + 4) ∧ ¬Inside base port size

instance : Decidable (Inside base port size) := inferInstanceAs (Decidable (_ ∧ _))

/-- How far into them it begins. -/
def offset : ℕ := port.toNat - base.toNat

end

/-- The sizes an access can have. -/
def Sized (size : ℕ) : Prop := size = 1 ∨ size = 2 ∨ size = 4

instance (size : ℕ) : Decidable (Sized size) := inferInstanceAs (Decidable (_ ∨ _))

section

variable {P : ConfigPorts} {base port : BitVec 32} {size : ℕ}

theorem Sized.pos (h : Sized size) : 0 < size := by
  rcases h with rfl | rfl | rfl <;> decide

theorem Sized.le (h : Sized size) : size ≤ 4 := by
  rcases h with rfl | rfl | rfl <;> decide

theorem Inside.begins (h : Inside base port size) (hsize : Sized size) : Begins base port := by
  have hpos := hsize.pos
  exact ⟨h.1, by have := h.2; omega⟩

theorem Inside.offset_add_le (h : Inside base port size) : offset base port + size ≤ 4 := by
  have hfrom := h.1
  have hto := h.2
  rw [offset]
  omega

theorem addrEnd_toNat : P.addrEnd.toNat = P.addr.toNat + 4 := by
  have hfits := P.addr_fits
  rw [ConfigPorts.addrEnd, BitVec.toNat_add]
  exact Nat.mod_eq_of_lt (Nat.lt_of_le_of_lt hfits (by decide))

theorem dataEnd_toNat : P.dataEnd.toNat = P.data.toNat + 4 := by
  have hfits := P.data_fits
  rw [ConfigPorts.dataEnd, BitVec.toNat_add]
  exact Nat.mod_eq_of_lt (Nat.lt_of_le_of_lt hfits (by decide))

theorem toNat_port_add (h : port.toNat + size < 4294967296) :
    (port + BitVec.ofNat 32 size).toNat = port.toNat + size := by
  rw [BitVec.toNat_add, BitVec.toNat_ofNat]
  omega

/-- **The check on the address port** looks at where an access begins, and not where it ends. -/
theorem begins_iff : Begins P.addr port ↔ P.addr ≤ port ∧ port < P.addrEnd := by
  rw [Begins, BitVec.le_def, BitVec.lt_def, addrEnd_toNat]

theorem Inside.not_begins (h : Inside P.data port size) (hsize : Sized size) :
    ¬Begins P.addr port := by
  have hpos := hsize.pos
  have hapart := P.apart
  have hle := h.1
  have hfits := h.2
  rintro ⟨hfrom, hto⟩
  omega

/-- **The check on the data port** lets an access through that lies inside it, -/
theorem Inside.data_checked (h : Inside P.data port size) :
    ¬(port < P.data ∨ P.dataEnd < port + BitVec.ofNat 32 size) := by
  have hfits := P.data_fits
  have hfrom := h.1
  have hto := h.2
  rw [BitVec.lt_def, BitVec.lt_def, dataEnd_toNat, toNat_port_add (by omega)]
  omega

/-- and stops one that lies partly in either port. -/
theorem Crosses.data_checked (h : Crosses P.addr port size ∨ Crosses P.data port size)
    (hsize : Sized size) :
    port < P.data ∨ P.dataEnd < port + BitVec.ofNat 32 size := by
  have haddr := P.addr_fits
  have hdata := P.data_fits
  have hapart := P.apart
  have hsizele := hsize.le
  rw [BitVec.lt_def, BitVec.lt_def, dataEnd_toNat]
  rcases h with ⟨⟨hfrom, hto⟩, hout⟩ | ⟨⟨hfrom, hto⟩, hout⟩
  · rw [toNat_port_add (by omega)]
    omega
  · rw [Inside] at hout
    rw [toNat_port_add (by omega)]
    omega

/-- How far into a port an access begins, as the handlers see it. -/
theorem offset_eq (h : Begins base port) :
    ((port - base).setWidth 8).toNat = offset base port := by
  obtain ⟨hle, hlt⟩ := h
  rw [BitVec.toNat_setWidth, BitVec.toNat_sub_of_le (BitVec.le_def.mpr hle), offset]
  omega

theorem ofNat_offset (h : Begins base port) :
    (port - base).setWidth 8 = BitVec.ofNat 8 (offset base port) := by
  rw [← offset_eq h, BitVec.ofNat_toNat, BitVec.setWidth_eq]

end

end Pci
end CamkesVm
