import CamkesVm.Rtc.Codec

/-!
# The date the guest boots with

`rtc_set_date_from_host` sets the clock to the host's date and then writes a century byte to the two
places where a BIOS looks for it.  The host gives the year in full.  The date registers are right
(`displayed_rtcSetDateFromHost`).  The century byte is not: 19 is added to the number of the
century, as if the year had been counted from 1900.  It is therefore wrong for every year, in either
encoding (`not_hostDateShown`): a guest that combines it with the year register is 1900 years ahead.

## What is here

* `byteRange`, `rtcFromBcd_rtcToBcd_emod` — what remains of a number that is too large for its byte.
* `centuryOf`, `centuryOf_rtcSetDateFromHost` — the century that a guest reads, and its exact value:
  19 more than it should be, as far as the byte goes.
* `HostDateShown`, `not_hostDateShown` — what the guest should boot with, and that it does not,
  whatever the date.

The host's date is any that the registers can show, with a year that its field counts with; it need
not be one that exists.
-/

set_option autoImplicit false

namespace CamkesVm
namespace Rtc

/-! ## What a byte holds of a large number -/

/-- How many numbers a byte can hold: two digits of which the first goes up to 15, or eight bits. -/
def byteRange (dm : Bool) : ℤ := if dm then 256 else 160

/-- The two digits of a number in a byte, the first of which is cut off at four bits. -/
theorem rtcToBcd_false_ofNat (n : ℕ) :
    rtcToBcd false n = (BitVec.ofNat 8 (n / 10 % 16) <<< 4) ||| BitVec.ofNat 8 (n % 10) := by
  have hdiv : (n : ℤ).tdiv 10 = ((n / 10 : ℕ) : ℤ) := by
    rw [Int.tdiv_eq_ediv_of_nonneg (by omega)]
    rfl
  have hmod : (n : ℤ).tmod 10 = ((n % 10 : ℕ) : ℤ) := by
    rw [Int.tmod_eq_emod_of_nonneg (by omega)]
    rfl
  have hshift (q : ℕ) : (BitVec.ofNat 32 q <<< 4).setWidth 8 = BitVec.ofNat 8 (q % 16) <<< 4 := by
    refine BitVec.eq_of_toNat_eq ?_
    simp only [BitVec.toNat_setWidth, BitVec.toNat_shiftLeft, BitVec.toNat_ofNat, Nat.shiftLeft_eq]
    omega
  have hwidth : (BitVec.ofNat 32 (n % 10)).setWidth 8 = BitVec.ofNat 8 (n % 10) :=
    BitVec.setWidth_ofNat_of_le (by decide) _
  rw [rtcToBcd, if_neg Bool.false_ne_true, hdiv, hmod, BitVec.ofInt_natCast, BitVec.ofInt_natCast,
    BitVec.setWidth_or, hshift, hwidth]

/-- **A byte is read as the number it was written for, modulo what it can hold.** -/
theorem rtcFromBcd_rtcToBcd_emod (dm : Bool) {a : ℤ} (h : 0 ≤ a) :
    rtcFromBcd dm (rtcToBcd dm a) = a % byteRange dm := by
  obtain ⟨n, rfl⟩ := Int.eq_ofNat_of_zero_le h
  cases dm with
  | true =>
    simp only [rtcFromBcd, rtcToBcd, byteRange, if_true]
    rw [BitVec.ofInt_natCast, BitVec.toNat_ofNat]
    rfl
  | false =>
    have hall : ∀ q < 16, ∀ r < 10,
        rtcFromBcd false ((BitVec.ofNat 8 q <<< 4) ||| BitVec.ofNat 8 r) =
          10 * (q : ℕ) + (r : ℕ) := by
      decide
    rw [rtcToBcd_false_ofNat, hall _ (Nat.mod_lt _ (by decide)) _ (Nat.mod_lt _ (by decide)),
      byteRange, if_neg Bool.false_ne_true]
    omega

/-- A byte is read as a number that is not negative. -/
theorem rtcFromBcd_nonneg (dm : Bool) (b : BitVec 8) : 0 ≤ rtcFromBcd dm b := by
  rw [rtcFromBcd]
  split <;> omega

/-! ## The registers at boot -/

section

variable (T : FieldTypes) (s : RTCState) (tm : RtcTimeDate)

/-- The century a century byte says, in the format register B selects. -/
def centuryOf (s : RTCState) (i : Fin 128) : ℤ := rtcFromBcd s.isBinary (s.cmosData i)

/-- `rtc_set_date_from_host` leaves all registers alone but for the time and the century. -/
theorem rtcSetDateFromHost_cmosData_of_ne {i : Fin 128} (h : i ≠ regIbmCenturyByte)
    (h2 : i ≠ regIbmPs2CenturyByte) :
    (rtcSetDateFromHost T s tm).cmosData i = (rtcSetDate T s tm).cmosData i := by
  rw [rtcSetDateFromHost, setCmos_of_ne _ h2, setCmos_of_ne _ h]

@[simp] theorem isBinary_rtcSetDateFromHost :
    (rtcSetDateFromHost T s tm).isBinary = s.isBinary := by
  rw [RTCState.isBinary, RTCState.anyBit,
    rtcSetDateFromHost_cmosData_of_ne T s tm (by decide) (by decide)]
  exact isBinary_rtcCopyDate T { s with currentTm := tm }

@[simp] theorem is24h_rtcSetDateFromHost : (rtcSetDateFromHost T s tm).is24h = s.is24h := by
  rw [RTCState.is24h, RTCState.anyBit,
    rtcSetDateFromHost_cmosData_of_ne T s tm (by decide) (by decide)]
  exact is24h_rtcCopyDate T { s with currentTm := tm }

/-- The century bytes do not show in the time. -/
theorem displayed_rtcSetDateFromHost_eq :
    displayed (rtcSetDateFromHost T s tm) = displayed (rtcSetDate T s tm) := by
  have hbin : (rtcSetDate T s tm).isBinary = s.isBinary :=
    isBinary_rtcCopyDate T { s with currentTm := tm }
  have h24 : (rtcSetDate T s tm).is24h = s.is24h := is24h_rtcCopyDate T { s with currentTm := tm }
  simp only [displayed, isBinary_rtcSetDateFromHost, is24h_rtcSetDateFromHost, hbin, h24]
  rw [rtcSetDateFromHost_cmosData_of_ne T s tm (by decide) (by decide),
    rtcSetDateFromHost_cmosData_of_ne T s tm (by decide) (by decide),
    rtcSetDateFromHost_cmosData_of_ne T s tm (by decide) (by decide),
    rtcSetDateFromHost_cmosData_of_ne T s tm (by decide) (by decide),
    rtcSetDateFromHost_cmosData_of_ne T s tm (by decide) (by decide),
    rtcSetDateFromHost_cmosData_of_ne T s tm (by decide) (by decide)]

/-- **The date registers are right**: they show the host's date, with the last two digits of the
year. -/
theorem displayed_rtcSetDateFromHost {T : FieldTypes} {s : RTCState} {tm : RtcTimeDate}
    (h : DisplayedDate tm) (hyear : T.full tm.year) (hbase : s.baseYear = 1900) :
    displayed (rtcSetDateFromHost T s tm) = { tm with year := tm.year % 100 } := by
  obtain ⟨hs, hmin, hh, hd, hm⟩ := h
  have hdisplayable : Displayable tm :=
    ⟨⟨hs.1, by omega⟩, ⟨hmin.1, by omega⟩, hh, ⟨by omega, by omega⟩, by omega, by omega⟩
  calc displayed (rtcSetDateFromHost T s tm)
      = displayed (rtcSetDate T s tm) := displayed_rtcSetDateFromHost_eq T s tm
    _ = { tm with year := yearOfCentury T tm.year s.baseYear } :=
        displayed_rtcCopyDate T (s := { s with currentTm := tm }) hdisplayable
    _ = { tm with year := tm.year % 100 } := by rw [hbase, yearOfCentury_of_full hyear]

/-- Both century bytes are written with the century of the year and 19 more. -/
theorem rtcSetDateFromHost_century {i : Fin 128}
    (h : i = regIbmCenturyByte ∨ i = regIbmPs2CenturyByte) :
    (rtcSetDateFromHost T s tm).cmosData i = rtcToBcd s.isBinary (tm.year.tdiv 100 + 19) := by
  have hbin : (rtcSetDate T s tm).isBinary = s.isBinary :=
    isBinary_rtcCopyDate T { s with currentTm := tm }
  rcases h with rfl | rfl
  · rw [rtcSetDateFromHost, setCmos_of_ne _ (by decide), setCmos_self, hbin]
  · rw [rtcSetDateFromHost, setCmos_self, hbin]

/-- **The century is 19 too large**, as far as a byte can hold it. -/
theorem centuryOf_rtcSetDateFromHost {i : Fin 128}
    (h : i = regIbmCenturyByte ∨ i = regIbmPs2CenturyByte) (hyear : 0 ≤ tm.year) :
    centuryOf (rtcSetDateFromHost T s tm) i =
      (tm.year / 100 + 19) % byteRange s.isBinary := by
  rw [centuryOf, isBinary_rtcSetDateFromHost, rtcSetDateFromHost_century T s tm h,
    Int.tdiv_eq_ediv_of_nonneg hyear, rtcFromBcd_rtcToBcd_emod _ (by omega)]

/-- So it is never the century of the year. -/
theorem centuryOf_rtcSetDateFromHost_ne {i : Fin 128}
    (h : i = regIbmCenturyByte ∨ i = regIbmPs2CenturyByte) :
    centuryOf (rtcSetDateFromHost T s tm) i ≠ tm.year / 100 := by
  by_cases hyear : 0 ≤ tm.year
  · rw [centuryOf_rtcSetDateFromHost T s tm h hyear, byteRange]
    split <;> omega
  · have hnonneg := rtcFromBcd_nonneg (rtcSetDateFromHost T s tm).isBinary
      ((rtcSetDateFromHost T s tm).cmosData i)
    rw [centuryOf]
    omega

/-- **The guest boots with the host's date**: the registers show it, and the century byte completes
the year. -/
structure HostDateShown : Prop where
  /-- The registers show the host's date, and of the year the last two digits. -/
  date : displayed (rtcSetDateFromHost T s tm) = { tm with year := tm.year % 100 }
  /-- The century byte says the century. -/
  century : centuryOf (rtcSetDateFromHost T s tm) regIbmCenturyByte = tm.year / 100
  /-- So does its copy. -/
  ps2Century : centuryOf (rtcSetDateFromHost T s tm) regIbmPs2CenturyByte = tm.year / 100
  /-- The two together give the year. -/
  year : 100 * centuryOf (rtcSetDateFromHost T s tm) regIbmCenturyByte +
    (displayed (rtcSetDateFromHost T s tm)).year = tm.year

end

/-- **The century is wrong for every host date.**  The date registers are right and each century
byte is 19 too large, modulo what a byte can hold: no date is shown in full. -/
theorem not_hostDateShown {T : FieldTypes} {s : RTCState} {tm : RtcTimeDate}
    (h : DisplayedDate tm) (hyear : T.full tm.year) (hbase : s.baseYear = 1900) :
    displayed (rtcSetDateFromHost T s tm) = { tm with year := tm.year % 100 } ∧
    (0 ≤ tm.year → ∀ i, i = regIbmCenturyByte ∨ i = regIbmPs2CenturyByte →
      centuryOf (rtcSetDateFromHost T s tm) i =
        (tm.year / 100 + 19) % byteRange s.isBinary) ∧
    ¬HostDateShown T s tm :=
  ⟨displayed_rtcSetDateFromHost h hyear hbase,
    fun hnonneg _ hi ↦ centuryOf_rtcSetDateFromHost T s tm hi hnonneg,
    fun hshown ↦ centuryOf_rtcSetDateFromHost_ne T s tm (.inl rfl) hshown.century⟩

/-- The device when `rtc_initfn` sets the date. -/
def bootState : RTCState :=
  ((({ zeroState with baseYear := 1900 }.setCmos rtcRegA 0x26).setCmos rtcRegB 0x02).setCmos
    rtcRegC 0x00).setCmos rtcRegD 0x80

/-- The theorem at boot, on the first of March 2024. -/
theorem not_hostDateShown_boot :
    displayed (rtcSetDateFromHost intFields bootState exampleDate) =
      { exampleDate with year := exampleDate.year % 100 } ∧
    (0 ≤ exampleDate.year → ∀ i, i = regIbmCenturyByte ∨ i = regIbmPs2CenturyByte →
      centuryOf (rtcSetDateFromHost intFields bootState exampleDate) i =
        (exampleDate.year / 100 + 19) % byteRange bootState.isBinary) ∧
    ¬HostDateShown intFields bootState exampleDate :=
  not_hostDateShown ⟨by decide, by decide, by decide, by decide, by decide⟩ trivial rfl

/-- **In 2024 the century byte says 39**, so that the year is 3924. -/
theorem not_forall_hostDateShown :
    ¬ ∀ T s tm, DisplayedDate tm → T.full tm.year → s.baseYear = 1900 → HostDateShown T s tm := by
  intro h
  have hshown := h intFields bootState exampleDate
    ⟨by decide, by decide, by decide, by decide, by decide⟩ trivial rfl
  have hcentury : centuryOf (rtcSetDateFromHost intFields bootState exampleDate) regIbmCenturyByte =
    39 := by decide
  exact absurd (hcentury.symm.trans hshown.century) (by decide)

end Rtc
end CamkesVm
