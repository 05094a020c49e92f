import CamkesVm.Hpet.Expiry

/-!
# The width of an access

The handler of a write takes no notice of the size of the access.  A word written to the lower half
of a 64-bit register is merged with what the register holds in its upper half, by `|`.  For an
access of 4 bytes with nothing above them this is right.  An access of 8 bytes leaves the bits that
were set in the upper half before (`writeWhole_eq_iff`), and so does an access of 4 bytes whose data
word has more than 32 bits in it (`write_lowWord_iff`).

Two accesses of 4 bytes always write the register (`writeHalves_eq`), and what has no upper half of
its own does not mind what is above the lower 32 bits.

## What is here

* `Covers`, `mergeLow`, `mergeHigh` — the merging, on words: when the old upper half shows in the
  result.
* `WideReg` — the registers that are 64 bits wide, which are the counter and two of each timer, with
  offset and value, and `WideReg.Plain` for the ones that a write simply writes.
* `write_low`, `write_high` — a write at either half of such a register.
* `StrayTimer`, `StrayHarmless` — which registers mind bits above the lower 32 of the data word.
* `width_iff` — both questions together, for every register, value and offset.
-/

set_option autoImplicit false

namespace CamkesVm
namespace Hpet

/-! ## Halves -/

theorem eq_iff_halves (x y : BitVec 64) : x = y ↔ loHalf x = loHalf y ∧ hiHalf x = hiHalf y := by
  refine ⟨fun h ↦ ⟨congrArg loHalf h, congrArg hiHalf h⟩, fun ⟨hlo, hhi⟩ ↦ ?_⟩
  have hx := x.isLt
  have hy := y.isLt
  simp only [BitVec.toNat_eq, loHalf, hiHalf, BitVec.toNat_setWidth, BitVec.toNat_ushiftRight,
    Nat.shiftRight_eq_div_pow] at hlo hhi ⊢
  omega

/-- The data word of an access of 4 bytes: the low 32 bits. -/
def lowWord (v : BitVec 64) : BitVec 64 := (loHalf v).setWidth 64

/-- The data word of an access of 4 bytes that writes the upper half of a word. -/
def highWord (v : BitVec 64) : BitVec 64 := (hiHalf v).setWidth 64

@[simp] theorem loHalf_lowWord (v : BitVec 64) : loHalf (lowWord v) = loHalf v := loHalf_setWidth v

@[simp] theorem hiHalf_lowWord (v : BitVec 64) : hiHalf (lowWord v) = 0 := hiHalf_setWidth v

@[simp] theorem loHalf_highWord (v : BitVec 64) : loHalf (highWord v) = hiHalf v :=
  loHalf_setWidth (v >>> 32)

/-- The upper half of `x` has every bit that the upper half of `v` has. -/
def Covers (x v : BitVec 64) : Prop := hiHalf v &&& ~~~hiHalf x = 0

instance (x v : BitVec 64) : Decidable (Covers x v) := inferInstanceAs (Decidable (_ = _))

theorem or_eq_left_iff {n : ℕ} (a b : BitVec n) : a ||| b = a ↔ b &&& ~~~a = 0 := by
  have hbool : ∀ x y : Bool, (x || y) = x ↔ (y && !x) = false := by decide
  constructor
  · intro h
    refine BitVec.eq_of_getElem_eq fun i hi ↦ ?_
    have hbit := congrArg (fun z : BitVec n ↦ z[i]) h
    simpa only [BitVec.getElem_or, BitVec.getElem_and, BitVec.getElem_not, BitVec.ofNat_eq_ofNat,
      BitVec.getElem_zero, hbool] using hbit
  · intro h
    refine BitVec.eq_of_getElem_eq fun i hi ↦ ?_
    have hbit := congrArg (fun z : BitVec n ↦ z[i]) h
    simpa only [BitVec.getElem_or, BitVec.getElem_and, BitVec.getElem_not, BitVec.ofNat_eq_ofNat,
      BitVec.getElem_zero, hbool] using hbit

/-! ## Merging -/

/-- What is written to the lower half of a register. -/
def mergeLow (old v : BitVec 64) : BitVec 64 := (old &&& highHalf) ||| v

/-- What is written to its upper half. -/
def mergeHigh (old v : BitVec 64) : BitVec 64 := (old &&& lowHalf) ||| (v <<< 32)

/-- **A whole word merged into the lower half** is what the register then holds exactly if it has
all the bits of the old upper half. -/
theorem mergeLow_eq_iff (old w : BitVec 64) : mergeLow old w = w ↔ Covers w old := by
  rw [eq_iff_halves, mergeLow, loHalf_or, hiHalf_or, loHalf_and_highHalf, hiHalf_and_highHalf,
    BitVec.ofNat_eq_ofNat, BitVec.zero_or, BitVec.or_comm, or_eq_left_iff]
  exact and_iff_right rfl

/-- **Stray upper bits** do not matter exactly if the register has them already. -/
theorem mergeLow_lowWord_iff (old v : BitVec 64) :
    mergeLow old v = mergeLow old (lowWord v) ↔ Covers old v := by
  rw [eq_iff_halves]
  simp only [mergeLow, loHalf_or, hiHalf_or, loHalf_and_highHalf, hiHalf_and_highHalf,
    loHalf_lowWord, hiHalf_lowWord, BitVec.ofNat_eq_ofNat, BitVec.or_zero, true_and]
  exact or_eq_left_iff _ _

/-- A word written in two halves. -/
theorem mergeHigh_mergeLow (old w : BitVec 64) :
    mergeHigh (mergeLow old (lowWord w)) (highWord w) = w := by
  rw [eq_iff_halves]
  simp only [mergeHigh, mergeLow, loHalf_or, hiHalf_or, loHalf_and_lowHalf, hiHalf_and_lowHalf,
    loHalf_shiftLeft, hiHalf_shiftLeft, loHalf_and_highHalf, loHalf_lowWord, loHalf_highWord,
    BitVec.ofNat_eq_ofNat, BitVec.or_zero, BitVec.zero_or, and_self]

/-- Written to the upper half, only the low 32 bits are seen. -/
theorem shiftLeft_lowWord (v : BitVec 64) : lowWord v <<< 32 = v <<< 32 := by
  rw [eq_iff_halves]
  simp

/-- So they are through a mask of low bits. -/
theorem lowWord_and (v : BitVec 64) {m : BitVec 64} (hm : hiHalf m = 0) :
    lowWord v &&& m = v &&& m := by
  rw [eq_iff_halves]
  simp [loHalf_and, hiHalf_and, hm]

/-! ## The registers of 64 bits -/

/-- A register of 64 bits. -/
inductive WideReg
  /-- `HPET_COUNTER` -/
  | counter
  /-- `HPET_TN_CMP` -/
  | comparator (i : Fin hpetMaxTimers)
  /-- `HPET_TN_ROUTE` -/
  | fsbRoute (i : Fin hpetMaxTimers)

namespace WideReg

/-- Its offset. -/
def offset : WideReg → ℕ
  | counter => 0x0f0
  | comparator i => 0x100 + 0x20 * i + 0x008
  | fsbRoute i => 0x100 + 0x20 * i + 0x010

/-- Its value. -/
def value (s : HPETState) : WideReg → BitVec 64
  | counter => s.hpetCounter
  | comparator i => (s.timer i).cmp
  | fsbRoute i => (s.timer i).fsb

/-- A write to it writes it: a comparator belongs to a timer that is neither periodic nor in 32-bit
mode. -/
def Plain (s : HPETState) : WideReg → Prop
  | comparator i => timerIsPeriodic (s.timer i) = false ∧ timerIs32bit (s.timer i) = false
  | _ => True

end WideReg

/-- The register after an access of 8 bytes. -/
def writeWhole (s : HPETState) (r : WideReg) (w now : BitVec 64) : Option (BitVec 64) :=
  (vmHpetMmioWrite s now r.offset w).map fun s ↦ r.value s

/-- The register after an access of 4 bytes to either half, the lower one first. -/
def writeHalves (s : HPETState) (r : WideReg) (w now now' : BitVec 64) : Option (BitVec 64) :=
  ((vmHpetMmioWrite s now r.offset (lowWord w)).bind fun s ↦
    vmHpetMmioWrite s now' (r.offset + 4) (highWord w)).map fun s ↦ r.value s

/-! ## What a write does to its register -/

/-- **A write, by its offset.** -/
theorem vmHpetMmioWrite_eq (s : HPETState) (now : BitVec 64) (offset : ℕ) (value : BitVec 64) :
    vmHpetMmioWrite s now offset value =
      if inTimerRange offset then
        (selectTimer s offset).elim (some s) fun k ↦
          if isTimerReg (timerReg offset) then
            (timerIndex k).map fun i ↦ writeTimerReg s now i
              (readTimerReg (s.timer i) (timerReg offset)) value (timerReg offset)
          else some s
      else some (writeGeneralReg s now (readGeneralReg s now offset) value offset) := by
  simp only [vmHpetMmioWrite, vmHpetMmioRead]
  cases inTimerRange offset with
  | false => rfl
  | true =>
    simp only [if_true]
    cases selectTimer s offset with
    | none => rfl
    | some k =>
      simp only [Option.elim_some]
      cases isTimerReg (timerReg offset) with
      | false => rfl
      | true =>
        simp only [if_true]
        cases timerIndex k <;> rfl

/-- The offsets of a comparator block. -/
theorem block_offset : ∀ (i : Fin hpetMaxTimers), ∀ reg ∈ [0x008, 0x00c, 0x010, 0x014],
    inTimerRange (0x100 + 0x20 * i + reg) = true ∧ timerId (0x100 + 0x20 * i + reg) = i ∧
      timerReg (0x100 + 0x20 * i + reg) = reg ∧ isTimerReg reg = true := by decide

/-- A write to a register of an existing comparator block. -/
theorem write_block {s : HPETState} (hs : s.numTimers = hpetMaxTimers) (now : BitVec 64)
    (i : Fin hpetMaxTimers) (reg : ℕ) (hreg : reg ∈ [0x008, 0x00c, 0x010, 0x014])
    (value : BitVec 64) :
    vmHpetMmioWrite s now (0x100 + 0x20 * i + reg) value =
      some (writeTimerReg s now i (readTimerReg (s.timer i) reg) value reg) := by
  obtain ⟨hrange, hid, hreg', his⟩ := block_offset i reg hreg
  have hselect : selectTimer s (0x100 + 0x20 * i + reg) = some i.val := by
    rw [selectTimer, hid, hs, if_neg (by have := i.isLt; omega)]
  rw [vmHpetMmioWrite_eq, hrange, if_pos rfl, hselect, Option.elim_some, hreg', his, if_pos rfl,
    timerIndex, dif_pos i.isLt]
  rfl

/-- What a write to a comparator block leaves in its timer. -/
theorem writeTimerReg_self (s : HPETState) (now : BitVec 64) (i : Fin hpetMaxTimers)
    (oldVal value : BitVec 64) (reg : ℕ) : ∃ w, (writeTimerReg s now i oldVal value reg).timer i =
      { writeRegs (s.timer i) oldVal value reg with wrapFlag := w } := by
  obtain ⟨w, hw⟩ := (writeTimerReg_frame s now i oldVal value reg).1 i
  exact ⟨w, by rw [hw, Function.update_self]⟩

section

variable {s : HPETState} (hs : s.numTimers = hpetMaxTimers)
include hs

/-- **A write at the base of a register** merges the data word into it. -/
theorem write_low {r : WideReg} (hr : r.Plain s) (now v : BitVec 64) :
    ∃ s', vmHpetMmioWrite s now r.offset v = some s' ∧
      r.value s' = mergeLow (r.value s) v ∧ r.Plain s' ∧ s'.numTimers = hpetMaxTimers := by
  cases r with
  | counter => exact ⟨_, rfl, rfl, trivial, hs⟩
  | comparator i =>
    obtain ⟨hperiodic, h32⟩ := hr
    refine ⟨_, write_block hs now i 0x008 (by decide) v, ?_⟩
    obtain ⟨w, hw⟩ := writeTimerReg_self s now i (readTimerReg (s.timer i) 0x008) v 0x008
    have hregs : writeRegs (s.timer i) (readTimerReg (s.timer i) 0x008) v 0x008 =
        { s.timer i with
          cmp := mergeLow (s.timer i).cmp v
          config := (s.timer i).config &&& ~~~hpetTnSetval } := by
      simp [writeRegs, writeCmpLow, hperiodic, h32, mergeLow]
    rw [hregs] at hw
    obtain ⟨hp', h32'⟩ := mode_clear_setval (s.timer i) (mergeLow (s.timer i).cmp v)
      (s.timer i).period
    refine ⟨?_, ⟨?_, ?_⟩, (writeTimerReg_frame ..).2.2.2.trans hs⟩
    · rw [WideReg.value, hw]
      rfl
    · rw [hw]
      exact hp'.trans hperiodic
    · rw [hw]
      exact h32'.trans h32
  | fsbRoute i =>
    refine ⟨_, write_block hs now i 0x010 (by decide) v, ?_, trivial,
      (writeTimerReg_frame ..).2.2.2.trans hs⟩
    obtain ⟨w, hw⟩ := writeTimerReg_self s now i (readTimerReg (s.timer i) 0x010) v 0x010
    rw [WideReg.value, hw]
    rfl

/-- **A write at the second half of a register** replaces that half. -/
theorem write_high {r : WideReg} (hr : r.Plain s) (now v : BitVec 64) :
    ∃ s', vmHpetMmioWrite s now (r.offset + 4) v = some s' ∧
      r.value s' = mergeHigh (r.value s) v := by
  cases r with
  | counter => exact ⟨_, rfl, rfl⟩
  | comparator i =>
    obtain ⟨hperiodic, -⟩ := hr
    refine ⟨_, write_block hs now i 0x00c (by decide) v, ?_⟩
    obtain ⟨w, hw⟩ := writeTimerReg_self s now i (readTimerReg (s.timer i) 0x00c) v 0x00c
    rw [WideReg.value, hw]
    simp [writeRegs, writeCmpHigh, hperiodic, mergeHigh, WideReg.value]
  | fsbRoute i =>
    refine ⟨_, write_block hs now i 0x014 (by decide) v, ?_⟩
    obtain ⟨w, hw⟩ := writeTimerReg_self s now i (readTimerReg (s.timer i) 0x014) v 0x014
    rw [WideReg.value, hw]
    exact BitVec.or_comm _ _

/-- **Two accesses of 4 bytes** write the word. -/
theorem writeHalves_eq {r : WideReg} (hr : r.Plain s) (w now now' : BitVec 64) :
    writeHalves s r w now now' = some w := by
  obtain ⟨s₁, hlow, hvalue, hr₁, hs₁⟩ := write_low hs hr now (lowWord w)
  obtain ⟨s₂, hhigh, hvalue₂⟩ := write_high hs₁ hr₁ now' (highWord w)
  rw [writeHalves, hlow, Option.bind_some, hhigh, Option.map_some, hvalue₂, hvalue,
    mergeHigh_mergeLow]

/-- **One access of 8 bytes** writes the word exactly if it has all the bits that the upper half of
the register had. -/
theorem writeWhole_eq_iff {r : WideReg} (hr : r.Plain s) (w now : BitVec 64) :
    writeWhole s r w now = some w ↔ Covers w (r.value s) := by
  obtain ⟨s₁, hwrite, hvalue, -⟩ := write_low hs hr now w
  rw [writeWhole, hwrite, Option.map_some, hvalue, Option.some_inj, mergeLow_eq_iff]

end

/-! ## Stray bits -/

/-- The bits of a data word above the lower 32 do not show in a register of a comparator block. -/
def StrayTimer (t : HPETTimer) (v : BitVec 64) : ℕ → Prop
  | 0x008 => timerIs32bit t = false →
      (timerIsPeriodic t = false ∨ anyBit t.config hpetTnSetval = true → Covers t.cmp v) ∧
        (timerIsPeriodic t = true → Covers t.period (v &&& periodClamp t))
  | 0x010 => Covers t.fsb v
  | _ => True

/-- The bits of a data word above the lower 32 do not show. -/
def StrayHarmless (s : HPETState) (offset : ℕ) (v : BitVec 64) : Prop :=
  (offset = 0x0f0 → Covers s.hpetCounter v) ∧
    ∀ i : Fin hpetMaxTimers, inTimerRange offset = true → selectTimer s offset = some i.val →
      StrayTimer (s.timer i) v (timerReg offset)

/-- A test of a low bit. -/
theorem anyBit_lowWord (v : BitVec 64) {m : BitVec 64} (hm : hiHalf m = 0) :
    anyBit (lowWord v) m = anyBit v m := by
  rw [anyBit, anyBit, lowWord_and v hm]

theorem activatingBit_lowWord (oldVal v : BitVec 64) {m : BitVec 64} (hm : hiHalf m = 0) :
    activatingBit oldVal (lowWord v) m = activatingBit oldVal v m := by
  rw [activatingBit, activatingBit, anyBit_lowWord v hm]

theorem deactivatingBit_lowWord (oldVal v : BitVec 64) {m : BitVec 64} (hm : hiHalf m = 0) :
    deactivatingBit oldVal (lowWord v) m = deactivatingBit oldVal v m := by
  rw [deactivatingBit, deactivatingBit, anyBit_lowWord v hm]

/-- The configuration of a timer has no writable bits in its upper half. -/
theorem writeTimerCfg_lowWord (s : HPETState) (now : BitVec 64) (i : Fin hpetMaxTimers)
    (oldVal v : BitVec 64) :
    writeTimerCfg s now i oldVal (lowWord v) = writeTimerCfg s now i oldVal v := by
  have hregs : ∀ t, writeCfgRegs t oldVal (lowWord v) = writeCfgRegs t oldVal v := by
    intro t
    rw [writeCfgRegs, writeCfgRegs, hpetFixupReg, hpetFixupReg, lowWord_and v (by decide),
      anyBit_lowWord v (by decide)]
  rw [writeTimerCfg, writeTimerCfg, activatingBit_lowWord _ v (by decide),
    activatingBit_lowWord _ v (by decide), deactivatingBit_lowWord _ v (by decide)]
  simp only [hregs]

/-- Nor has the general configuration. -/
theorem writeCfg_lowWord (s : HPETState) (now oldVal v : BitVec 64) :
    writeCfg s now oldVal (lowWord v) = writeCfg s now oldVal v := by
  rw [writeCfg, writeCfg, activatingBit_lowWord _ v (by decide),
    activatingBit_lowWord _ v (by decide), deactivatingBit_lowWord _ v (by decide),
    deactivatingBit_lowWord _ v (by decide), hpetFixupReg, hpetFixupReg,
    lowWord_and v (by decide)]

/-- And only the low bits of the status register acknowledge a timer. -/
theorem writeStatus_lowWord (s : HPETState) (v : BitVec 64) :
    writeStatus s (lowWord v) = writeStatus s v := by
  have hbit : ∀ i : Fin hpetMaxTimers,
      (lowWord v &&& s.isr).getLsbD i = (v &&& s.isr).getLsbD i := by
    intro i
    have hi : i.val < 32 := lt_trans i.isLt (by decide)
    have hi64 : i.val < 64 := lt_trans i.isLt (by decide)
    simp [lowWord, loHalf, hi, hi64]
  simp only [writeStatus, hbit]

theorem lowWord_and_comm (v m : BitVec 64) : lowWord v &&& m = lowWord (v &&& m) := by
  rw [eq_iff_halves]
  simp [loHalf_and, hiHalf_and]

/-- What a write to the lower half of the comparator stores. -/
theorem writeCmpLow_lowWord_iff (t : HPETTimer) (v : BitVec 64) :
    ((writeCmpLow t v).cmp = (writeCmpLow t (lowWord v)).cmp ∧
      (writeCmpLow t v).period = (writeCmpLow t (lowWord v)).period) ↔ StrayTimer t v 0x008 := by
  have hiff : ∀ (b : Bool) (old x : BitVec 64),
      ((if b then mergeLow old x else old) = if b then mergeLow old (lowWord x) else old) ↔
        (b = true → Covers old x) := by
    intro b old x
    cases b with
    | false => simp
    | true => simpa using mergeLow_lowWord_iff old x
  cases h32 : timerIs32bit t with
  | true =>
    have hsame : writeCmpLow t (lowWord v) = writeCmpLow t v := by
      have hlow : (lowWord v).setWidth 32 = v.setWidth 32 := loHalf_lowWord v
      simp only [writeCmpLow, h32, if_true, hlow]
    rw [hsame]
    exact iff_of_true ⟨rfl, rfl⟩ fun h64 ↦ absurd (h64.symm.trans h32) Bool.false_ne_true
  | false =>
    simp only [writeCmpLow, h32, Bool.false_eq_true, if_false, StrayTimer, true_imp_iff,
      lowWord_and_comm]
    refine and_congr ((hiff _ _ _).trans ?_) (hiff _ _ _)
    rw [Bool.or_eq_true, Bool.not_eq_true']

/-- A new comparator is stored with its timer, whose wrap flag a restart may change. -/
theorem storeCmp_self (s : HPETState) (now : BitVec 64) (i : Fin hpetMaxTimers) (t : HPETTimer) :
    ∃ w, (storeCmp s now i t).timer i = { t with wrapFlag := w } := by
  rw [storeCmp]
  split
  · obtain ⟨w, hw⟩ := hpetSetTimer_timer (s.setTimer i t) i i now
    exact ⟨w, by rw [hw, setTimer_timer, Function.update_self]⟩
  · exact ⟨t.wrapFlag, by rw [setTimer_timer, Function.update_self]⟩

/-- So what was stored can be told from the state. -/
theorem eq_of_storeCmp_eq {s : HPETState} {now : BitVec 64} {i : Fin hpetMaxTimers}
    {t t' : HPETTimer} (h : storeCmp s now i t = storeCmp s now i t') :
    t.cmp = t'.cmp ∧ t.period = t'.period := by
  obtain ⟨w, hw⟩ := storeCmp_self s now i t
  obtain ⟨w', hw'⟩ := storeCmp_self s now i t'
  have htimer : ({ t with wrapFlag := w } : HPETTimer) = { t' with wrapFlag := w' } := by
    rw [← hw, ← hw', h]
  have hcmp := congrArg HPETTimer.cmp htimer
  have hperiod := congrArg HPETTimer.period htimer
  exact ⟨hcmp, hperiod⟩

/-- **When stray bits do not show in a register of a comparator block.** -/
theorem writeTimerReg_lowWord_iff (s : HPETState) (now : BitVec 64) (i : Fin hpetMaxTimers)
    (oldVal v : BitVec 64) (reg : ℕ) :
    writeTimerReg s now i oldVal v reg = writeTimerReg s now i oldVal (lowWord v) reg ↔
      StrayTimer (s.timer i) v reg := by
  rw [writeTimerReg.eq_def, writeTimerReg.eq_def s now i oldVal (lowWord v)]
  split
  · exact iff_of_true (writeTimerCfg_lowWord s now i oldVal v).symm trivial
  · rw [← writeCmpLow_lowWord_iff]
    refine ⟨eq_of_storeCmp_eq, ?_⟩
    rintro ⟨hcmp, hperiod⟩
    have hsame : writeCmpLow (s.timer i) v = writeCmpLow (s.timer i) (lowWord v) := by
      simp only [writeCmpLow] at hcmp hperiod ⊢
      rw [hcmp, hperiod]
    rw [hsame]
  · refine iff_of_true ?_ trivial
    have hsame : writeCmpHigh (s.timer i) (lowWord v) = writeCmpHigh (s.timer i) v := by
      simp only [writeCmpHigh, shiftLeft_lowWord, lowWord_and_comm]
    rw [hsame]
  · refine Iff.trans ⟨fun h ↦ ?_, fun h ↦ ?_⟩ (mergeLow_lowWord_iff (s.timer i).fsb v)
    · have hfsb := congrArg (fun s : HPETState ↦ (s.timer i).fsb) h
      simp only [setTimer_timer, Function.update_self] at hfsb
      exact hfsb
    · rw [mergeLow, mergeLow] at h
      rw [h]
  · refine iff_of_true ?_ trivial
    rw [shiftLeft_lowWord]
  · refine iff_of_true rfl ?_
    rw [StrayTimer.eq_def]
    split <;> first | contradiction | trivial

theorem writeGeneralReg_lowWord_iff (s : HPETState) (now oldVal v : BitVec 64) (offset : ℕ) :
    writeGeneralReg s now oldVal v offset = writeGeneralReg s now oldVal (lowWord v) offset ↔
      (offset = 0x0f0 → Covers s.hpetCounter v) := by
  rw [writeGeneralReg.eq_def, writeGeneralReg.eq_def s now oldVal (lowWord v)]
  split
  · exact iff_of_true (writeCfg_lowWord s now oldVal v).symm fun h ↦ absurd h (by decide)
  · exact iff_of_true (writeStatus_lowWord s v).symm fun h ↦ absurd h (by decide)
  · refine Iff.trans (Iff.trans ⟨fun h ↦ ?_, fun h ↦ ?_⟩ (mergeLow_lowWord_iff s.hpetCounter v))
      ⟨fun h _ ↦ h, fun h ↦ h rfl⟩
    · exact congrArg HPETState.hpetCounter h
    · rw [mergeLow, mergeLow] at h
      rw [h]
  · refine iff_of_true ?_ fun h ↦ absurd h (by decide)
    rw [shiftLeft_lowWord]
  · rename_i h0f0 _
    exact iff_of_true rfl fun h ↦ absurd h h0f0

/-- **When the effect of an access depends only on the low 32 bits** of the data word. -/
theorem write_lowWord_iff (s : HPETState) (now : BitVec 64) (offset : ℕ) (v : BitVec 64) :
    vmHpetMmioWrite s now offset v = vmHpetMmioWrite s now offset (lowWord v) ↔
      StrayHarmless s offset v := by
  rw [vmHpetMmioWrite_eq, vmHpetMmioWrite_eq, StrayHarmless]
  generalize timerReg offset = reg
  cases hr : inTimerRange offset with
  | false =>
    simp only [Bool.false_eq_true, if_false, Option.some_inj, false_imp_iff, implies_true, and_true]
    exact writeGeneralReg_lowWord_iff s now _ v offset
  | true =>
    have hne : offset ≠ 0x0f0 := by
      rintro rfl
      exact absurd hr (by decide)
    simp only [if_true, true_imp_iff, hne, false_imp_iff, true_and]
    cases hsel : selectTimer s offset with
    | none =>
      simp only [Option.elim_none]
      exact iff_of_true trivial fun i hi ↦ absurd hi.symm (Option.some_ne_none _)
    | some k =>
      simp only [Option.elim_some, Option.some_inj]
      cases his : isTimerReg reg with
      | false =>
        simp only [Bool.false_eq_true, if_false]
        refine iff_of_true trivial fun i _ ↦ ?_
        rw [StrayTimer.eq_def]
        split
        · exact absurd his (by decide)
        · exact absurd his (by decide)
        · trivial
      | true =>
        simp only [if_true, timerIndex]
        split
        · rename_i hk
          simp only [Option.map_some, Option.some_inj]
          rw [writeTimerReg_lowWord_iff]
          refine ⟨fun h i hi ↦ ?_, fun h ↦ h ⟨k, hk⟩ rfl⟩
          obtain rfl : (⟨k, hk⟩ : Fin hpetMaxTimers) = i := Fin.ext hi
          exact h
        · rename_i hk
          simp only [Option.map_none]
          exact iff_of_true trivial fun i hi ↦ absurd (lt_of_eq_of_lt hi i.isLt) hk

/-! ## Both together -/

/-- **The width of an access does not matter**: an access of 8 bytes and two of 4 bytes both write
the word, and what is above the lower 32 bits of the data word of an access does not matter. -/
structure WidthIndependent (s : HPETState) : Prop where
  /-- An access of 8 bytes. -/
  whole : ∀ r : WideReg, r.Plain s → ∀ w now, writeWhole s r w now = some w
  /-- Two accesses of 4 bytes. -/
  halves : ∀ r : WideReg, r.Plain s → ∀ w now now', writeHalves s r w now now' = some w
  /-- Stray bits. -/
  stray : ∀ now offset v,
    vmHpetMmioWrite s now offset v = vmHpetMmioWrite s now offset (lowWord v)

/-- **When the width of an access does not matter.**  Two accesses of 4 bytes always write the word.
One of 8 bytes writes it exactly if the word has every bit that the upper half of the register had.
Bits above the lower 32 of a data word do not matter exactly if they go to the counter, to an FSB
route or to a comparator or a period in 64-bit mode which has these bits in its upper half already,
or to no such register. -/
theorem width_iff {s : HPETState} (hs : Reachable s) {r : WideReg} (hr : r.Plain s)
    (w now now' : BitVec 64) (offset : ℕ) (v : BitVec 64) :
    writeHalves s r w now now' = some w ∧
      (writeWhole s r w now = some w ↔ Covers w (r.value s)) ∧
      (vmHpetMmioWrite s now offset v = vmHpetMmioWrite s now offset (lowWord v) ↔
        StrayHarmless s offset v) :=
  ⟨writeHalves_eq hs.numTimers hr w now now', writeWhole_eq_iff hs.numTimers hr w now,
    write_lowWord_iff s now offset v⟩

/-- The theorem for the comparator of timer 0 after the reset, and an access to its FSB route. -/
theorem width_iff_preInit :
    writeHalves (hpetPreInit 9) (.comparator 0) 5 0 0 = some 5 ∧
      (writeWhole (hpetPreInit 9) (.comparator 0) 5 0 = some 5 ↔
        Covers 5 (WideReg.value (hpetPreInit 9) (.comparator 0))) ∧
      (vmHpetMmioWrite (hpetPreInit 9) 0 0x110 7 =
        vmHpetMmioWrite (hpetPreInit 9) 0 0x110 (lowWord 7) ↔
          StrayHarmless (hpetPreInit 9) 0x110 7) :=
  width_iff ⟨9, [], .nil⟩ (r := .comparator 0) ⟨by decide, by decide⟩ 5 0 0 0x110 7

/-- **The first access of 8 bytes to a comparator**, with 5, leaves the upper half it has after the
reset. -/
theorem not_widthIndependent : ¬ ∀ s, Reachable s → WidthIndependent s := by
  intro h
  have hwhole := (h (hpetPreInit 9) ⟨9, [], .nil⟩).whole (.comparator 0) ⟨by decide, by decide⟩ 5 0
  exact absurd hwhole (by decide)

end Hpet
end CamkesVm
