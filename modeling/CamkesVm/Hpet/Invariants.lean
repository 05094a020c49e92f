import CamkesVm.Hpet.Lines

/-!
# What the registers can never be

Whatever a guest writes, the bits of a configuration register that are not writable stay as they
are: those of a timer at their reset value (`fixed_writeRegs`), those of the general configuration
at 0.  The status register says less than it might: a bit in it belongs to a timer that is enabled,
and the HPET is enabled with it (`StatusEnabled`).  It is cleared from many places, so what each
function does to it is said bit by bit.

`run_registerInvariants` has all of this in every run, and what changes the halted counter.

## What is here

* `fixedBits`, `fixed_writeRegs` — the masks of the registers, by the bit: `hpet_fixup_reg` takes
  the bits that are not writable from the old value.
* `GeneralOnly` — facts that neither timers nor status nor lines matter to; most steps keep all of
  them at once (`GeneralOnly.step`).
* `StatusEnabled`, `StatusEnabledBut` — the invariant of the status register, and the same with one
  timer left out, for the moment between a change of its registers and the acknowledgement.
* `RegisterInvariants`, `run_registerInvariants` — all of it, in every state reached from
  `hpet_pre_init`.
-/

set_option autoImplicit false

namespace CamkesVm
namespace Hpet

open Transition

/-! ## Bits that are not writable -/

/-- The bits of a timer's configuration that a guest cannot write. -/
def fixedBits (t : HPETTimer) : BitVec 64 := t.config &&& ~~~hpetTnCfgWriteMask

theorem fixedBits_wrapFlag (t : HPETTimer) (w : Bool) :
    fixedBits { t with wrapFlag := w } = fixedBits t := rfl

/-- A register written through `hpet_fixup_reg` keeps the bits that are not writable. -/
theorem fixup_and_not_mask (config value mask : BitVec 64) :
    ((config &&& highHalf) ||| hpetFixupReg value config mask) &&& ~~~mask =
      config &&& ~~~mask := by
  have hbool : ∀ c h v m : Bool, ((c && h || (v && m || c && !m)) && !m) = (c && !m) := by decide
  ext k hk
  simp only [hpetFixupReg, BitVec.getElem_and, BitVec.getElem_or, BitVec.getElem_not]
  exact hbool _ _ _ _

/-- Only the configuration register itself has its other bits changed by a write: a comparator
takes back `SETVAL`. -/
theorem writeRegs_config_and (t : HPETTimer) (oldVal newVal : BitVec 64) {reg : ℕ}
    (hreg : reg ≠ 0) {bits : BitVec 64} (hbits : ~~~hpetTnSetval &&& bits = bits) :
    (writeRegs t oldVal newVal reg).config &&& bits = t.config &&& bits := by
  rw [writeRegs.eq_def]
  split
  · exact absurd rfl hreg
  · exact Flags.and_and_of_subset _ hbits
  · simp only [writeCmpHigh]
    split <;> exact Flags.and_and_of_subset _ hbits
  all_goals rfl

/-- **A write to a comparator block keeps the fixed bits** of its timer. -/
theorem fixed_writeRegs (t : HPETTimer) (value : BitVec 64) (reg : ℕ) :
    fixedBits (writeRegs t (readTimerReg t reg) value reg) = fixedBits t := by
  by_cases hreg : reg = 0
  · subst hreg
    change (writeCfgRegs t t.config value).config &&& ~~~hpetTnCfgWriteMask = _
    rw [writeCfgRegs_config, fixup_and_not_mask]
    rfl
  · exact writeRegs_config_and t _ value hreg (by decide)

theorem fixed_hpetSetTimer (s : HPETState) (i : Fin hpetMaxTimers) (now : BitVec 64) :
    (fun j ↦ fixedBits ((hpetSetTimer s i now).timer j)) = fun j ↦ fixedBits (s.timer j) := by
  funext j
  obtain ⟨w, hw⟩ := hpetSetTimer_timer s i j now
  rw [hw]
  rfl

/-- **No step changes the fixed bits** of a timer. -/
theorem Step.fixedBits {s s' : HPETState} {a : Label} (h : Step s a s') (i : Fin hpetMaxTimers) :
    fixedBits (s'.timer i) = fixedBits (s.timer i) := by
  cases h with
  | read => rfl
  | @write _ offset value now _ hw =>
    rcases vmHpetMmioWrite_cases hw with ⟨hs', -⟩ | ⟨j, -, -, hs'⟩ | ⟨-, hs'⟩ <;> rw [hs']
    · obtain ⟨w, hw⟩ := (writeTimerReg_frame s now j
        (readTimerReg (s.timer j) (timerReg offset)) value (timerReg offset)).1 i
      rw [hw, fixedBits_wrapFlag]
      by_cases hij : i = j
      · subst hij
        rw [Function.update_self]
        exact fixed_writeRegs (s.timer i) value (timerReg offset)
      · rw [Function.update_of_ne hij]
    · -- the general registers leave all timers' registers alone
      let g : HPETState → Fin hpetMaxTimers → BitVec 64 := fun s j ↦ Hpet.fixedBits (s.timer j)
      refine congrFun (a := i) (show g _ = g s from ?_)
      rw [writeGeneralReg.eq_def]
      split
      · rw [writeCfg_frame g (fun _ _ ↦ rfl) fixed_hpetSetTimer
          (fun s j ↦ by simp only [g, hpetDelTimer_timer])]
        dsimp only
        split
        · rfl
        · split <;> rfl
      · exact writeStatus_frame g (fun s j set ↦ by simp only [g, updateIrq_timer]) s value
      all_goals rfl
  | @expire _ j now _ he =>
    obtain ⟨c, w, ht, -⟩ := hpetTimer_frame he
    rw [ht]
    by_cases hij : i = j
    · subst hij
      rw [Function.update_self]
      rfl
    · rw [Function.update_of_ne hij]

/-! ## The other registers -/

/-- Something about the device that does not depend on the timers, the status register and the
lines. -/
structure GeneralOnly {β : Type} (g : HPETState → β) : Prop where
  /-- It does not depend on what was done to the world outside. -/
  emit : ∀ s e, g (s.emit e) = g s
  /-- It does not depend on the timers. -/
  setTimer : ∀ s i t, g (s.setTimer i t) = g s
  /-- It does not depend on the status register. -/
  isr : ∀ s isr, g { s with isr := isr } = g s

namespace GeneralOnly

variable {β : Type} {g : HPETState → β} (h : GeneralOnly g) (s : HPETState) (i : Fin hpetMaxTimers)
include h

theorem updateIrq (set : Bool) : g (updateIrq s i set) = g s := by
  simp only [Hpet.updateIrq]
  split <;> split
  · exact h.isr s _
  · exact (h.emit _ _).trans (h.isr s _)
  · rfl
  · split
    · exact (h.emit _ _).trans (h.isr s _)
    · exact (h.emit _ _).trans ((h.emit _ _).trans (h.isr s _))

theorem hpetSetTimer (now : BitVec 64) : g (hpetSetTimer s i now) = g s := by
  simp only [Hpet.hpetSetTimer]
  split <;> exact (h.emit _ _).trans (h.setTimer s i _)

theorem hpetDelTimer : g (hpetDelTimer s i) = g s :=
  (h.updateIrq _ i false).trans (h.emit s _)

/-- Only the general registers are apart from the timers. -/
theorem writeTimerReg (now oldVal newVal : BitVec 64) (reg : ℕ) :
    g (writeTimerReg s now i oldVal newVal reg) = g s := by
  have hstore : ∀ t, g (storeCmp s now i t) = g s := by
    intro t
    rw [storeCmp]
    split
    · exact (h.hpetSetTimer _ i now).trans (h.setTimer s i t)
    · exact h.setTimer s i t
  rw [writeTimerReg.eq_def]
  split
  · have hirq : g (if activatingBit oldVal newVal hpetTnFsbEnable then Hpet.updateIrq s i false
        else s) = g s := by
      split
      · exact h.updateIrq s i false
      · rfl
    rw [writeTimerCfg]
    generalize (if activatingBit oldVal newVal hpetTnFsbEnable then Hpet.updateIrq s i false
      else s) = u at hirq ⊢
    split
    · exact (h.hpetSetTimer _ i now).trans ((h.setTimer _ i _).trans hirq)
    · split
      · exact (h.hpetDelTimer _ i).trans ((h.setTimer _ i _).trans hirq)
      · exact (h.setTimer _ i _).trans hirq
  · exact hstore _
  · exact hstore _
  · exact h.setTimer s i _
  · exact h.setTimer s i _
  · rfl

theorem hpetTimer {fuel : ℕ} {now : BitVec 64} {s' : HPETState}
    (he : hpetTimer fuel s i now = some s') : g s' = g s := by
  simp only [Hpet.hpetTimer] at he
  split at he
  · obtain ⟨c, -, rfl⟩ := Option.map_eq_some_iff.mp he
    exact (h.updateIrq _ i true).trans ((h.emit _ _).trans (h.setTimer s i _))
  · split at he
    · cases he
      exact (h.updateIrq _ i true).trans ((h.setTimer _ i _).trans (h.emit s _))
    · cases he
      exact h.updateIrq s i true

/-- **Only a write to a general register** changes such a thing. -/
theorem step {s s' : HPETState} {a : Label} (hs : Step s a s') :
    g s' = g s ∨ ∃ offset value now, a = .write offset value now ∧
      s' = writeGeneralReg s now (readGeneralReg s now offset) value offset := by
  cases hs with
  | read => exact .inl rfl
  | @write _ offset value now _ hw =>
    rcases vmHpetMmioWrite_cases hw with ⟨hs', -⟩ | ⟨j, -, -, hs'⟩ | ⟨-, hs'⟩
    · exact .inl (congrArg g hs')
    · exact .inl ((congrArg g hs').trans (h.writeTimerReg s j now _ value _))
    · exact .inr ⟨offset, value, now, rfl, hs'⟩
  | @expire _ j now _ he => exact .inl (h.hpetTimer s j he)

end GeneralOnly

theorem generalOnly_capability : GeneralOnly HPETState.capability :=
  ⟨fun _ _ ↦ rfl, fun _ _ _ ↦ rfl, fun _ _ ↦ rfl⟩

theorem generalOnly_config : GeneralOnly HPETState.config :=
  ⟨fun _ _ ↦ rfl, fun _ _ _ ↦ rfl, fun _ _ ↦ rfl⟩

theorem generalOnly_hpetCounter : GeneralOnly HPETState.hpetCounter :=
  ⟨fun _ _ ↦ rfl, fun _ _ _ ↦ rfl, fun _ _ ↦ rfl⟩

/-- The capability register is read only. -/
theorem Step.capability {s s' : HPETState} {a : Label} (h : Step s a s') :
    s'.capability = s.capability := by
  rcases generalOnly_capability.step h with hsame | ⟨offset, value, now, -, hs'⟩
  · exact hsame
  · rw [hs', writeGeneralReg.eq_def]
    split
    · rw [writeCfg_frame HPETState.capability generalOnly_capability.emit
        generalOnly_capability.hpetSetTimer generalOnly_capability.hpetDelTimer]
      dsimp only
      split
      · rfl
      · split <;> rfl
    · exact writeStatus_frame HPETState.capability generalOnly_capability.updateIrq s value
    all_goals rfl

/-- **No step changes the bits of the configuration that are not writable.** -/
theorem Step.config {s s' : HPETState} {a : Label} (h : Step s a s') :
    s'.config &&& ~~~hpetCfgWriteMask = s.config &&& ~~~hpetCfgWriteMask := by
  rcases generalOnly_config.step h with hsame | ⟨offset, value, now, -, hs'⟩
  · rw [hsame]
  · rw [hs', writeGeneralReg.eq_def]
    split
    · rw [writeCfg_frame HPETState.config generalOnly_config.emit generalOnly_config.hpetSetTimer
        generalOnly_config.hpetDelTimer]
      refine Eq.trans ?_ (fixup_and_not_mask s.config value hpetCfgWriteMask)
      congr 1
      dsimp only
      split
      · rfl
      · split <;> rfl
    · rw [writeStatus_frame HPETState.config generalOnly_config.updateIrq]
    all_goals rfl

/-- A write to one half of the main counter. -/
def writesCounter : Label → Prop
  | .write offset _ _ => offset = 0x0f0 ∨ offset = 0x0f4
  | _ => False

/-- **The halted counter** changes only when it is written to. -/
theorem Step.hpetCounter {s s' : HPETState} {a : Label} (h : Step s a s')
    (hdisabled : hpetEnabled s = false) (hcounter : ¬writesCounter a) :
    s'.hpetCounter = s.hpetCounter := by
  rcases generalOnly_hpetCounter.step h with hsame | ⟨offset, value, now, rfl, hs'⟩
  · exact hsame
  · rw [hs', writeGeneralReg.eq_def]
    split
    · have hhalt : deactivatingBit s.config value hpetCfgEnable = false := by
        rw [deactivatingBit, show anyBit s.config hpetCfgEnable = false from hdisabled]
        rfl
      rw [writeCfg_frame HPETState.hpetCounter generalOnly_hpetCounter.emit
        generalOnly_hpetCounter.hpetSetTimer generalOnly_hpetCounter.hpetDelTimer]
      simp only [readGeneralReg, hhalt, Bool.false_eq_true, if_false]
      split <;> rfl
    · exact writeStatus_frame HPETState.hpetCounter generalOnly_hpetCounter.updateIrq s value
    · exact absurd (.inl rfl) hcounter
    · exact absurd (.inr rfl) hcounter
    · rfl

/-! ## The status register -/

/-- **A bit in the status register** belongs to a timer that is enabled, and the HPET is enabled. -/
def StatusEnabled (s : HPETState) : Prop :=
  ∀ k, s.isr.getLsbD k = true →
    ∃ i : Fin hpetMaxTimers, i.val = k ∧ hpetEnabled s = true ∧ timerEnabled (s.timer i) = true

theorem getLsbD_shiftLeft_one (i : Fin hpetMaxTimers) (k : ℕ) :
    ((1 : BitVec 64) <<< i.val).getLsbD k = decide (k = i.val) := by
  have hi : i.val < 64 := lt_trans i.isLt (by decide)
  rw [BitVec.ofNat_eq_ofNat, ← BitVec.twoPow_eq, BitVec.getLsbD_twoPow]
  by_cases hk : k = i.val
  · simp [hk, hi]
  · simp [hk, Ne.symm hk]

/-- **What `update_irq` can leave in the status register**: what was there, without the bit of its
timer if the line is lowered; and the bit of its timer if that and the HPET are enabled. -/
theorem updateIrq_isr {s : HPETState} {i : Fin hpetMaxTimers} (htn : (s.timer i).tn = i)
    {set : Bool} {k : ℕ} (hk : (updateIrq s i set).isr.getLsbD k = true) :
    (s.isr.getLsbD k = true ∧ (set = false → k ≠ i.val)) ∨
      (set = true ∧ k = i.val ∧ hpetEnabled s = true ∧ timerEnabled (s.timer i) = true) := by
  have hclear : (s.isr &&& ~~~((1 : BitVec 64) <<< (s.timer i).tn)).getLsbD k = true →
      s.isr.getLsbD k = true ∧ k ≠ i.val := by
    rw [htn, BitVec.getLsbD_and, BitVec.getLsbD_not, getLsbD_shiftLeft_one]
    intro h
    simp only [Bool.and_eq_true, Bool.not_eq_true', decide_eq_false_iff_not, decide_eq_true_eq] at h
    exact ⟨h.1, h.2.2⟩
  have hset : (s.isr ||| ((1 : BitVec 64) <<< (s.timer i).tn)).getLsbD k = true →
      s.isr.getLsbD k = true ∨ k = i.val := by
    rw [htn, BitVec.getLsbD_or, getLsbD_shiftLeft_one, Bool.or_eq_true, decide_eq_true_eq]
    exact id
  simp only [updateIrq] at hk
  split at hk
  · have hkeep : s.isr.getLsbD k = true ∧ k ≠ i.val := by
      split at hk <;> exact hclear hk
    exact .inl ⟨hkeep.1, fun _ ↦ hkeep.2⟩
  · rename_i hon
    obtain ⟨⟨hset', htimer⟩, hhpet⟩ : (set = true ∧ timerEnabled (s.timer i) = true) ∧
        hpetEnabled s = true := by
      simpa only [Bool.or_eq_true, Bool.not_eq_true', not_or, Bool.not_eq_false] using hon
    have hnot : set = false → k ≠ i.val := fun hf ↦ absurd (hf.symm.trans hset') Bool.false_ne_true
    split at hk
    · exact .inl ⟨hk, hnot⟩
    · split at hk
      · rcases hset hk with hold | heq
        · exact .inl ⟨hold, hnot⟩
        · exact .inr ⟨hset', heq, hhpet, htimer⟩
      · exact .inl ⟨(hclear hk).1, hnot⟩

/-- Deleting a timer clears its bit. -/
theorem hpetDelTimer_isr {s : HPETState} {i : Fin hpetMaxTimers} (htn : (s.timer i).tn = i)
    {k : ℕ} (hk : (hpetDelTimer s i).isr.getLsbD k = true) :
    s.isr.getLsbD k = true ∧ k ≠ i.val := by
  rcases updateIrq_isr (s := s.emit (.stop (s.timer i).tid)) htn hk with ⟨hold, hne⟩ | ⟨hset, -⟩
  · exact ⟨hold, hne rfl⟩
  · exact absurd hset Bool.false_ne_true

theorem StatusEnabled.updateIrq {s : HPETState} (h : StatusEnabled s) {i : Fin hpetMaxTimers}
    (htn : (s.timer i).tn = i) (set : Bool) : StatusEnabled (updateIrq s i set) := by
  intro k hk
  have hhpet : hpetEnabled (Hpet.updateIrq s i set) = hpetEnabled s := by
    rw [hpetEnabled, updateIrq_config]
    rfl
  rw [hhpet, updateIrq_timer]
  rcases updateIrq_isr htn hk with ⟨hold, -⟩ | ⟨-, heq, hon, htimer⟩
  · exact h k hold
  · exact ⟨i, heq.symm, hon, htimer⟩

/-- The status register, the timers that are enabled and the HPET being enabled are the same. -/
theorem StatusEnabled.congr {s t : HPETState} (h : StatusEnabled s) (hisr : t.isr = s.isr)
    (hconfig : t.config = s.config)
    (htimer : ∀ i, timerEnabled (t.timer i) = timerEnabled (s.timer i)) : StatusEnabled t := by
  intro k hk
  obtain ⟨i, hi, hon, hi'⟩ := h k (hisr ▸ hk)
  exact ⟨i, hi, by rw [hpetEnabled, hconfig]; exact hon, (htimer i).trans hi'⟩

/-! ### Accesses -/

theorem timerEnabled_hpetSetTimer (s : HPETState) (i j : Fin hpetMaxTimers) (now : BitVec 64) :
    timerEnabled ((hpetSetTimer s i now).timer j) = timerEnabled (s.timer j) := by
  obtain ⟨w, hw⟩ := hpetSetTimer_timer s i j now
  rw [hw]
  rfl

theorem StatusEnabled.hpetSetTimer {s : HPETState} (h : StatusEnabled s) (i : Fin hpetMaxTimers)
    (now : BitVec 64) : StatusEnabled (hpetSetTimer s i now) :=
  h.congr (SameLines.hpetSetTimer s i now).isr (hpetSetTimer_config s i now)
    fun j ↦ timerEnabled_hpetSetTimer s i j now

theorem timerEnabled_writeCfgRegs (t : HPETTimer) (oldVal newVal : BitVec 64) :
    timerEnabled (writeCfgRegs t oldVal newVal) = anyBit newVal hpetTnEnable := by
  rw [timerEnabled, writeCfgRegs_config, anyBit_fixup (by decide) (by decide)]

/-- Other registers do not enable or disable the timer. -/
theorem timerEnabled_writeRegs (t : HPETTimer) (oldVal newVal : BitVec 64) {reg : ℕ}
    (hreg : reg ≠ 0) : timerEnabled (writeRegs t oldVal newVal reg) = timerEnabled t := by
  rw [timerEnabled, timerEnabled, anyBit, anyBit, writeRegs_config_and _ _ _ hreg (by decide)]

theorem timerEnabled_afterCfg (s : HPETState) (i : Fin hpetMaxTimers) (value : BitVec 64) :
    timerEnabled ((afterCfg s i value).timer i) = anyBit value hpetTnEnable := by
  rw [afterCfg, setTimer_timer, Function.update_self, timerEnabled_writeCfgRegs]

theorem hpetEnabled_afterCfg (s : HPETState) (i : Fin hpetMaxTimers) (value : BitVec 64) :
    hpetEnabled (afterCfg s i value) = hpetEnabled s := by
  change anyBit (beforeCfg s i value).config hpetCfgEnable = _
  rw [(beforeCfg_frame s i value).2]
  rfl

/-- The FSB takes over with the bit cleared, if anything. -/
theorem afterCfg_isr {s : HPETState} {i : Fin hpetMaxTimers} (htn : (s.timer i).tn = i)
    {value : BitVec 64} {k : ℕ} (hk : (afterCfg s i value).isr.getLsbD k = true) :
    s.isr.getLsbD k = true := by
  change (beforeCfg s i value).isr.getLsbD k = true at hk
  rw [beforeCfg] at hk
  split at hk
  · rcases updateIrq_isr htn hk with ⟨hold, -⟩ | ⟨hset, -⟩
    · exact hold
    · exact absurd hset Bool.false_ne_true
  · exact hk

/-- The same for all bits but that of one timer. -/
def StatusEnabledBut (s : HPETState) (i : Fin hpetMaxTimers) : Prop :=
  ∀ k ≠ i.val, s.isr.getLsbD k = true → ∃ j : Fin hpetMaxTimers, j.val = k ∧
    hpetEnabled s = true ∧ timerEnabled (s.timer j) = true

theorem StatusEnabled.afterCfg {s : HPETState} (h : StatusEnabled s) {i : Fin hpetMaxTimers}
    (htn : (s.timer i).tn = i) (value : BitVec 64) : StatusEnabledBut (afterCfg s i value) i := by
  intro k hne hk
  obtain ⟨j, hj, hon, htimer⟩ := h k (afterCfg_isr htn hk)
  have hji : j ≠ i := fun heq ↦ hne (by rw [← hj, heq])
  refine ⟨j, hj, (hpetEnabled_afterCfg s i value).trans hon, ?_⟩
  rw [Hpet.afterCfg, setTimer_timer, Function.update_of_ne hji, (beforeCfg_frame s i value).1]
  exact htimer

/-- Deleting the timer clears the bit that was in doubt. -/
theorem StatusEnabledBut.hpetDelTimer {s : HPETState} {i : Fin hpetMaxTimers}
    (h : StatusEnabledBut s i) (htn : (s.timer i).tn = i) :
    StatusEnabled (hpetDelTimer s i) := by
  intro k hk
  obtain ⟨hold, hne⟩ := hpetDelTimer_isr htn hk
  rw [hpetDelTimer_timer, hpetEnabled, hpetDelTimer_config]
  exact h k hne hold

/-- **A new configuration of a timer.**  If the timer is disabled, its bit is cleared. -/
theorem StatusEnabled.writeTimerCfg {s : HPETState} (h : StatusEnabled s) {i : Fin hpetMaxTimers}
    (htn : (s.timer i).tn = i) (now value : BitVec 64) :
    StatusEnabled (writeTimerCfg s now i (s.timer i).config value) := by
  have hbut := h.afterCfg htn value
  cases hoff : deactivatingBit (s.timer i).config value hpetTnEnable with
  | true =>
    have hact : activatingBit (s.timer i).config value hpetTnEnable = false := by
      rw [deactivatingBit, Bool.and_eq_true_iff, Bool.not_eq_true'] at hoff
      rw [activatingBit, hoff.2, Bool.and_false]
    have htn' : ((Hpet.afterCfg s i value).timer i).tn = i := by
      rw [Hpet.afterCfg, setTimer_timer, Function.update_self, writeCfgRegs_tn, htn]
    rw [writeTimerCfg_eq, hact, Bool.false_and, if_neg Bool.false_ne_true, hoff, if_pos rfl]
    exact hbut.hpetDelTimer htn'
  | false =>
    have hafter : StatusEnabled (Hpet.afterCfg s i value) := by
      intro k hk
      by_cases hki : k = i.val
      · subst hki
        -- the bit was set, so the timer was enabled, and it has not been disabled
        obtain ⟨j, hj, hon, htimer⟩ := h _ (afterCfg_isr htn hk)
        obtain rfl : j = i := Fin.ext hj
        rw [deactivatingBit, show anyBit (s.timer j).config hpetTnEnable = true from htimer,
          Bool.true_and, Bool.not_eq_false'] at hoff
        refine ⟨j, rfl, (hpetEnabled_afterCfg s j value).trans hon, ?_⟩
        exact (timerEnabled_afterCfg s j value).trans hoff
      · exact hbut k hki hk
    rw [writeTimerCfg_eq, hoff, if_neg Bool.false_ne_true]
    split
    · exact hafter.hpetSetTimer i now
    · exact hafter

/-- A write to a comparator block. -/
theorem StatusEnabled.writeTimerReg {s : HPETState} (h : StatusEnabled s) {i : Fin hpetMaxTimers}
    (htn : (s.timer i).tn = i) (now value : BitVec 64) (reg : ℕ) :
    StatusEnabled (writeTimerReg s now i (readTimerReg (s.timer i) reg) value reg) := by
  by_cases hreg : reg = 0
  · subst hreg
    exact h.writeTimerCfg htn now value
  · obtain ⟨htimers, hconfig, -⟩ :=
      writeTimerReg_frame s now i (readTimerReg (s.timer i) reg) value reg
    refine h.congr (sameLines_writeTimerReg s now i _ value hreg).isr hconfig fun j ↦ ?_
    obtain ⟨w, hw⟩ := htimers j
    rw [hw]
    change timerEnabled (Function.update s.timer i (writeRegs (s.timer i) _ value reg) j) = _
    by_cases hj : j = i
    · subst hj
      rw [Function.update_self, timerEnabled_writeRegs _ _ _ hreg]
    · rw [Function.update_of_ne hj]

theorem hpetEnabled_configured (s : HPETState) (value : BitVec 64) :
    hpetEnabled (configured s value) = anyBit value hpetCfgEnable := by
  rw [hpetEnabled, configured, anyBit_fixup (by decide) (by decide)]

/-- Deleting several timers clears the bits of all of them. -/
theorem foldl_hpetDelTimer_isr {s : HPETState} (h : Consistent s) {l : List (Fin hpetMaxTimers)}
    {k : ℕ} (hk : (l.foldl hpetDelTimer s).isr.getLsbD k = true) :
    s.isr.getLsbD k = true ∧ ∀ i ∈ l, k ≠ i.val := by
  induction l generalizing s with
  | nil => exact ⟨hk, by simp⟩
  | cons i l ih =>
    obtain ⟨hdel, hl⟩ := ih (h.hpetDelTimer i) hk
    obtain ⟨hold, hne⟩ := hpetDelTimer_isr (h.tn i) hdel
    exact ⟨hold, List.forall_mem_cons.mpr ⟨hne, hl⟩⟩

/-- **The HPET is enabled or disabled.**  If it is disabled, all bits are cleared. -/
theorem StatusEnabled.switched {s : HPETState} (h : StatusEnabled s) (hc : Consistent s)
    (now value : BitVec 64) : StatusEnabled (switched s now value) := by
  cases hoff : deactivatingBit s.config value hpetCfgEnable with
  | true =>
    obtain ⟨t, hsame, -, hswitched⟩ := switched_of_deactivating hc hoff now
    intro k hk
    rw [hswitched] at hk
    obtain ⟨hold, hnone⟩ := foldl_hpetDelTimer_isr (hsame.consistent (hc.configured value)) hk
    rw [hsame.isr] at hold
    obtain ⟨i, hi, -⟩ := h k hold
    exact absurd hi.symm (hnone i (List.mem_finRange i))
  | false =>
    have hconfigured : StatusEnabled (configured s value) := by
      intro k hk
      obtain ⟨i, hi, hon, htimer⟩ := h k hk
      refine ⟨i, hi, ?_, htimer⟩
      rw [hpetEnabled_configured]
      rw [deactivatingBit, show anyBit s.config hpetCfgEnable = true from hon, Bool.true_and,
        Bool.not_eq_false'] at hoff
      exact hoff
    simp only [Hpet.switched, hoff, Bool.false_eq_true, if_false]
    split
    · refine forTimers_induct (P := StatusEnabled) (fun t i ht ↦ ?_) ?_
      · split
        · exact ht.hpetSetTimer i now
        · exact ht
      · exact hconfigured.congr rfl rfl fun _ ↦ rfl
    · exact hconfigured

/-- A write to a general register. -/
theorem StatusEnabled.writeGeneralReg {s : HPETState} (h : StatusEnabled s) (hc : Consistent s)
    (now value : BitVec 64) (offset : ℕ) :
    StatusEnabled (writeGeneralReg s now (readGeneralReg s now offset) value offset) := by
  rw [writeGeneralReg.eq_def]
  split
  · change StatusEnabled (writeCfg s now s.config value)
    rw [writeCfg_eq hc]
    split
    · exact (h.switched hc now value).congr rfl rfl fun _ ↦ rfl
    · exact h.switched hc now value
  · refine (forTimers_induct (P := fun t ↦ Consistent t ∧ StatusEnabled t) ?_ ⟨hc, h⟩).2
    rintro t i ⟨htc, ht⟩
    split
    · exact ⟨htc.updateIrq i false, ht.updateIrq (htc.tn i) false⟩
    · exact ⟨htc, ht⟩
  · exact h.congr rfl rfl fun _ ↦ rfl
  · exact h.congr rfl rfl fun _ ↦ rfl
  · exact h

/-- **Every step** leaves only bits of enabled timers. -/
theorem StatusEnabled.step {s s' : HPETState} {a : Label} (h : StatusEnabled s) (hc : Consistent s)
    (hs : Step s a s') : StatusEnabled s' := by
  cases hs with
  | read => exact h
  | @write _ offset value now _ hw =>
    rcases vmHpetMmioWrite_cases hw with ⟨hs', -⟩ | ⟨i, -, -, hs'⟩ | ⟨-, hs'⟩ <;> rw [hs']
    · exact h
    · exact h.writeTimerReg (hc.tn i) now value _
    · exact h.writeGeneralReg hc now value offset
  | @expire _ i now _ he =>
    obtain ⟨t, hsame, -, ht⟩ := hpetTimer_eq_updateIrq he
    obtain ⟨c, w, htimer, hconfig, -⟩ := hpetTimer_frame he
    rw [ht, updateIrq_timer] at htimer
    rw [ht, updateIrq_config] at hconfig
    have henabled : ∀ j, timerEnabled (t.timer j) = timerEnabled (s.timer j) := by
      intro j
      rw [htimer]
      by_cases hj : j = i
      · subst hj
        rw [Function.update_self]
        rfl
      · rw [Function.update_of_ne hj]
    have hst : StatusEnabled t := h.congr hsame.isr hconfig henabled
    rw [ht]
    exact hst.updateIrq ((hsame.tn i).trans (hc.tn i)) true

/-! ## Runs -/

/-- **What the registers can never be**: the bits that are not writable have their reset values, and
only enabled timers of an enabled HPET have a bit in the status register. -/
structure RegisterInvariants (hpetIdBase : ℕ) (s : HPETState) : Prop where
  /-- The fixed bits of the timers' configurations have their reset values. -/
  timerConfig : ∀ i, fixedBits (s.timer i) = fixedBits ((hpetPreInit hpetIdBase).timer i)
  /-- Those of the general configuration are 0. -/
  config : s.config &&& ~~~hpetCfgWriteMask = 0
  /-- The capability register has its reset value. -/
  capability : s.capability = (hpetPreInit hpetIdBase).capability
  /-- The status register says no more than it may. -/
  status : StatusEnabled s

/-- After the reset the status register is clear. -/
theorem isr_hpetPreInit (hpetIdBase : ℕ) : (hpetPreInit hpetIdBase).isr = 0 := by
  have hloop : (forTimers (hpetRealize zeroState hpetIdBase) hpetResetTimer).isr = 0 := by
    refine forTimers_induct (P := fun t ↦ t.isr = 0) (fun t i ht ↦ ?_) rfl
    change (hpetDelTimer t i).isr = 0
    simp only [hpetDelTimer, updateIrq, Bool.not_false, Bool.true_or, if_true]
    split <;> simp [HPETState.emit, ht]
  exact hloop

theorem registerInvariants_hpetPreInit (hpetIdBase : ℕ) :
    RegisterInvariants hpetIdBase (hpetPreInit hpetIdBase) where
  timerConfig _ := rfl
  config := BitVec.zero_and
  capability := rfl
  status k hk := by
    rw [isr_hpetPreInit] at hk
    exact absurd hk (by simp)

/-- **Register invariants.**  In every state the device comes to, the bits that are not writable
have their reset values, and a status bit belongs to a timer that is enabled, as the HPET is; and
from there, while the HPET is disabled, the counter changes only by a write to it. -/
theorem run_registerInvariants {hpetIdBase : ℕ} {as : List Label} {s : HPETState}
    (h : Run Step (hpetPreInit hpetIdBase) as s) :
    RegisterInvariants hpetIdBase s ∧ ∀ a s', Step s a s' → hpetEnabled s = false →
      ¬writesCounter a → s'.hpetCounter = s.hpetCounter := by
  refine ⟨?_, fun a s' hs hoff hcounter ↦ hs.hpetCounter hoff hcounter⟩
  let I (s : HPETState) : Prop := Consistent s ∧ RegisterInvariants hpetIdBase s
  refine (h.invariant (I := I) ⟨consistent_hpetPreInit hpetIdBase,
    registerInvariants_hpetPreInit hpetIdBase⟩ ?_).2
  rintro s a t ⟨hc, hi⟩ hs
  exact ⟨hc.step hs, fun i ↦ (hs.fixedBits i).trans (hi.timerConfig i), hs.config.trans hi.config,
    hs.capability.trans hi.capability, hi.status.step hc hs⟩

/-- Timer 0 has been put into level mode on line 5. -/
def levelTimer : HPETState :=
  writeTimerReg (writeCfg (hpetPreInit 9) 0 0 1) 0 0
    ((writeCfg (hpetPreInit 9) 0 0 1).timer 0).config 0xa06 0x000

/-- The theorem where that timer has expired: its bit is the only one in the status register. -/
theorem run_registerInvariants_expired :
    RegisterInvariants 9 (updateIrq levelTimer 0 true) ∧
      ∀ a s', Step (updateIrq levelTimer 0 true) a s' →
        hpetEnabled (updateIrq levelTimer 0 true) = false → ¬writesCounter a →
        s'.hpetCounter = (updateIrq levelTimer 0 true).hpetCounter := by
  have h₁ : vmHpetMmioWrite (hpetPreInit 9) 0 0x010 1 = some (writeCfg (hpetPreInit 9) 0 0 1) := rfl
  have h₂ : vmHpetMmioWrite (writeCfg (hpetPreInit 9) 0 0 1) 0 0x100 0xa06 = some levelTimer := rfl
  have h₃ : hpetTimer 0 levelTimer 0 0 = some (updateIrq levelTimer 0 true) := by decide
  have hrun : Run Step (hpetPreInit 9) [.write 0x010 1 0, .write 0x100 0xa06 0, .expire 0 0]
      (updateIrq levelTimer 0 true) :=
    .cons (.write (by decide) h₁) <| .cons (.write (by decide) h₂) <| .cons (.expire h₃) .nil
  exact run_registerInvariants hrun

end Hpet
end CamkesVm
