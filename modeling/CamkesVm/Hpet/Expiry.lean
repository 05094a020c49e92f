import CamkesVm.Hpet.Mmio
import CamkesVm.Lib.Orbit

/-!
# When an expiry is handled in finitely many steps

The expiry handler of a periodic timer adds the period to the comparator until the comparator is no
longer before the main counter.  The sum walks round the 64-bit or the 32-bit words, and such a walk
always comes to a word that is not before a given one — unless the period is zero, which the source
tests for.  The test is on all 64 bits, though, and a timer in 32-bit mode walks with the lower
half: a period that is zero there and not above makes the handler run for ever
(`hpetTimerEnds_iff`).

A guest can assemble such a period, from two writes of one half each.  `KeepsPeriod` says which
writes do it, and `run_ends_iff` that the others never lead there, in whatever order they come.

## What is here

* `Stuck` — a timer that the handler would never finish with, as a condition on its registers.
* `hpetTimerEnds_iff`, `forall_hpetTimerEnds_iff` — one expiry, by the general facts on walks: a
  walk with a step other than zero meets a word that is not behind.
* `stuck_writeRegs_iff` — which writes to a comparator block make a timer stuck, register by
  register.
* `KeepsPeriod`, `run_ends_iff` — the same for runs.

The handler's loop takes its fuel from the outside; that it ends is the existence of enough, so the
results speak of the `while` loops of the source and not of the fuel.
-/

set_option autoImplicit false

namespace CamkesVm
namespace Hpet

open Transition FuelLoop

/-! ## One expiry -/

/-- A timer whose comparator does not move: periodic, in 32-bit mode, with a period that is not zero
but has only zeros in its lower half. -/
def Stuck (t : HPETTimer) : Prop :=
  timerIsPeriodic t = true ∧ timerIs32bit t = true ∧ hiHalf t.period ≠ 0 ∧ loHalf t.period = 0

instance (t : HPETTimer) : Decidable (Stuck t) :=
  inferInstanceAs (Decidable (_ ∧ _ ∧ _ ∧ _))

/-- The 64-bit loop moves the distance by the period. -/
theorem distance64_step (curTick p x : BitVec 64) : x + p - curTick = x - curTick + p := by
  rw [BitVec.sub_eq_add_neg, BitVec.sub_eq_add_neg, BitVec.add_assoc, BitVec.add_comm p,
    ← BitVec.add_assoc]

/-- The 32-bit loop moves the lower half of the distance by the lower half of the period. -/
theorem distance32_step (curTick p x : BitVec 64) :
    (((x + p).setWidth 32).setWidth 64 - curTick).setWidth 32 =
      (x - curTick).setWidth 32 + p.setWidth 32 := by
  rw [BitVec.toNat_eq]
  simp only [BitVec.toNat_add, BitVec.toNat_sub, BitVec.toNat_setWidth]
  omega

/-- The catch-up loop in 32-bit mode goes on for ever only if it stands still. -/
theorem catchUp32_ends_iff (cur p c : BitVec 64) :
    Ends (hpetTimeAfter cur) (fun cmp ↦ ((cmp + p).setWidth 32).setWidth 64) c ↔
      loHalf p ≠ 0 ∨ hpetTimeAfter cur c = false := by
  exact Orbit.ends_iff_step (g := fun x : BitVec 64 ↦ (x - cur).setWidth 32)
    (distance32_step cur p) c

/-- So does the one in 64-bit mode. -/
theorem catchUp64_ends_iff (cur p c : BitVec 64) :
    Ends (hpetTimeAfter64 cur) (fun cmp ↦ cmp + p) c ↔
      p ≠ 0 ∨ hpetTimeAfter64 cur c = false := by
  exact Orbit.ends_iff_step (g := fun x : BitVec 64 ↦ x - cur) (distance64_step cur p) c

/-- **When one expiry is handled**: always, except for a stuck timer whose comparator the main
counter has passed. -/
theorem hpetTimerEnds_iff (s : HPETState) (i : Fin hpetMaxTimers) (now : BitVec 64) :
    HpetTimerEnds s i now ↔
      ¬(Stuck (s.timer i) ∧ hpetTimeAfter (hpetGetTicks s now) (s.timer i).cmp = true) := by
  simp only [HpetTimerEnds, hpetTimer, Stuck]
  cases hp : timerIsPeriodic (s.timer i) with
  | false =>
    -- no loop is entered
    refine iff_of_true ⟨0, ?_⟩ (by simp)
    simp only [Bool.false_and, Bool.false_eq_true, if_false]
    split <;> rfl
  | true =>
    by_cases hz : (s.timer i).period = 0
    · refine iff_of_true ⟨0, ?_⟩ (by simp [hz, hiHalf])
      simp [hz]
    · simp only [bne_iff_ne, ne_eq, hz, not_false_eq_true, Bool.true_and, if_true,
        Option.isSome_map, true_and]
      cases h32 : timerIs32bit (s.timer i) with
      | false =>
        refine iff_of_true ?_ (by simp)
        exact (catchUp64_ends_iff ..).mpr (.inl hz)
      | true =>
        have hiff := catchUp32_ends_iff (hpetGetTicks s now) (s.timer i).period (s.timer i).cmp
        have hhalf : loHalf (s.timer i).period = 0 → hiHalf (s.timer i).period ≠ 0 :=
          fun hlo hhi ↦ hz ((eq_zero_iff_halves _).mpr ⟨hlo, hhi⟩)
        refine hiff.trans ?_
        simp only [true_and]
        cases hpetTimeAfter (hpetGetTicks s now) (s.timer i).cmp <;> grind

/-- **When every expiry of a timer is handled**, at whatever tick it comes: the timer is not
stuck. -/
theorem forall_hpetTimerEnds_iff (s : HPETState) (i : Fin hpetMaxTimers) :
    (∀ now, HpetTimerEnds s i now) ↔ ¬Stuck (s.timer i) := by
  constructor
  · intro h hstuck
    -- a time at which the main counter has just passed the comparator
    let tick : BitVec 64 := (loHalf (s.timer i).cmp + 1).setWidth 64
    have hticks : hpetGetTicks s (10 * tick - s.hpetOffset) = tick := by
      have hlt := (loHalf (s.timer i).cmp + 1).isLt
      rw [hpetGetTicks, BitVec.sub_add_cancel, BitVec.toNat_eq, nsToTicks]
      simp only [tick, hpetClkPeriod, BitVec.toNat_udiv, BitVec.toNat_mul, BitVec.toNat_setWidth,
        BitVec.toNat_ofNat, BitVec.ofNat_eq_ofNat, Nat.reducePow, Nat.reduceMod] at hlt ⊢
      omega
    have hafter : hpetTimeAfter tick (s.timer i).cmp = true := by
      have hm1 : ((s.timer i).cmp - tick).setWidth 32 = BitVec.allOnes 32 := by
        rw [BitVec.toNat_eq]
        simp only [tick, loHalf, BitVec.toNat_sub, BitVec.toNat_setWidth, BitVec.toNat_add,
          BitVec.toNat_allOnes, BitVec.ofNat_eq_ofNat, BitVec.toNat_ofNat]
        omega
      rw [hpetTimeAfter, hm1]
      decide
    exact (hpetTimerEnds_iff s i _).mp (h _) ⟨hstuck, by rw [hticks]; exact hafter⟩
  · exact fun h now ↦ (hpetTimerEnds_iff s i now).mpr fun hs ↦ h hs.1

/-! ## Writes to a comparator block -/

/-- The writes to a register of a comparator block that do not make its timer stuck: in 32-bit
periodic mode the two halves of the period are to stay consistent. -/
def PeriodWriteOk (t : HPETTimer) (value : BitVec 64) : ℕ → Prop
  | 0x008 => timerIsPeriodic t = true → timerIs32bit t = true →
      loHalf (value &&& 0x7fffffff) ≠ 0 ∨ hiHalf t.period = 0
  | 0x00c => timerIsPeriodic t = true → timerIs32bit t = true →
      anyBit t.config hpetTnSetval = false →
      loHalf (value &&& 0x7fffffff) = 0 ∨ loHalf t.period ≠ 0
  | _ => True

/-- A write to the configuration leaves no timer stuck: in 32-bit mode it cuts the period off. -/
theorem not_stuck_writeCfgRegs (t : HPETTimer) (oldVal newVal : BitVec 64) :
    ¬Stuck (writeCfgRegs t oldVal newVal) := by
  rintro ⟨-, h32, hhi, -⟩
  rw [timerIs32bit, writeCfgRegs_config, anyBit_fixup (by decide) (by decide)] at h32
  rw [writeCfgRegs] at hhi
  simp only [h32, if_true, hiHalf_setWidth] at hhi
  exact hhi rfl

/-- Clearing the `SETVAL` bit does not change the mode. -/
theorem mode_clear_setval (t : HPETTimer) (c p : BitVec 64) :
    let t' := { t with cmp := c, period := p, config := t.config &&& ~~~hpetTnSetval }
    timerIsPeriodic t' = timerIsPeriodic t ∧ timerIs32bit t' = timerIs32bit t := by
  simp only [timerIsPeriodic, timerIs32bit, anyBit_periodic, anyBit_32bit, BitVec.getLsbD_and,
    BitVec.getLsbD_not, show hpetTnSetval.getLsbD 3 = false by decide,
    show hpetTnSetval.getLsbD 8 = false by decide]
  simp

theorem stuck_writeCmpLow_iff (t : HPETTimer) (value : BitVec 64) :
    Stuck (writeCmpLow t value) ↔ ¬PeriodWriteOk t value 0x008 := by
  have hp : timerIsPeriodic (writeCmpLow t value) = timerIsPeriodic t :=
    (mode_clear_setval t _ _).1
  have h32 : timerIs32bit (writeCmpLow t value) = timerIs32bit t := (mode_clear_setval t _ _).2
  rw [Stuck, hp, h32, PeriodWriteOk]
  cases hper : timerIsPeriodic t with
  | false => simp
  | true =>
    cases hmode : timerIs32bit t with
    | false => simp
    | true =>
      -- the low half is the one written, the high half stays
      have hlo : loHalf (writeCmpLow t value).period = loHalf (value &&& 0x7fffffff) := by
        rw [loHalf_and]
        simp [writeCmpLow, periodClamp, hper, hmode, loHalf_and _ 2147483647#64]
      have hhi : hiHalf (writeCmpLow t value).period = hiHalf t.period := by
        simp [writeCmpLow, periodClamp, hper, hmode, hiHalf_and _ 2147483647#64]
      rw [hlo, hhi]
      tauto

theorem stuck_writeCmpHigh_iff {t : HPETTimer} (h : ¬Stuck t) (value : BitVec 64) :
    Stuck (writeCmpHigh t value) ↔ ¬PeriodWriteOk t value 0x00c := by
  rw [writeCmpHigh]
  split
  · -- the comparator is written, and the period stays
    rename_i hcmp
    obtain ⟨hp, h32⟩ := mode_clear_setval t ((t.cmp &&& lowHalf) ||| (value <<< 32)) t.period
    refine iff_of_false ?_ ?_
    · rw [Stuck, hp, h32]
      exact h
    · simp only [PeriodWriteOk, not_not]
      intro hper _ hset
      simp [hper, hset] at hcmp
  · rename_i hcmp
    obtain ⟨hper, hset⟩ : timerIsPeriodic t = true ∧ anyBit t.config hpetTnSetval = false := by
      simpa using hcmp
    obtain ⟨hp, h32⟩ := mode_clear_setval t t.cmp
      ((t.period &&& lowHalf) ||| ((value &&& periodClamp t) <<< 32))
    rw [Stuck, hp, h32, PeriodWriteOk]
    cases hmode : timerIs32bit t with
    | false => simp
    | true =>
      -- the high half is the one written, the low half stays
      have hclamp : periodClamp t = 0x7fffffff := by simp [periodClamp, hmode]
      simp only [hiHalf_or, hiHalf_and_lowHalf, hiHalf_shiftLeft, loHalf_or, loHalf_and_lowHalf,
        loHalf_shiftLeft, hclamp, hper, hset, BitVec.ofNat_eq_ofNat, BitVec.zero_or,
        BitVec.or_zero]
      tauto

/-- **Which writes make a timer stuck** that was not. -/
theorem stuck_writeRegs_iff {t : HPETTimer} (h : ¬Stuck t) (oldVal value : BitVec 64) (reg : ℕ) :
    Stuck (writeRegs t oldVal value reg) ↔ ¬PeriodWriteOk t value reg := by
  rw [writeRegs.eq_def]
  split
  · exact iff_of_false (not_stuck_writeCfgRegs t oldVal value) (by simp [PeriodWriteOk])
  · exact stuck_writeCmpLow_iff t value
  · exact stuck_writeCmpHigh_iff h value
  · exact iff_of_false h (by simp [PeriodWriteOk])
  · exact iff_of_false h (by simp [PeriodWriteOk])
  · exact iff_of_false h (by simp [PeriodWriteOk.eq_def, *])

/-! ## Runs -/

/-- The steps that leave no timer stuck. -/
def KeepsPeriod (s : HPETState) : Label → Prop
  | .write offset value _ => inTimerRange offset = true → ∀ i : Fin hpetMaxTimers,
      selectTimer s offset = some i.val → PeriodWriteOk (s.timer i) value (timerReg offset)
  | _ => True

theorem keepsPeriod_write (s : HPETState) (offset : ℕ) (value now : BitVec 64) :
    KeepsPeriod s (.write offset value now) ↔ (inTimerRange offset = true →
      ∀ i : Fin hpetMaxTimers, selectTimer s offset = some i.val →
        PeriodWriteOk (s.timer i) value (timerReg offset)) := Iff.rfl

/-- Nothing but a write to its own comparator block makes a timer stuck. -/
theorem stuck_writeGeneralReg (s : HPETState) (now oldVal newVal : BitVec 64) (index : ℕ) :
    (fun i ↦ Stuck ((writeGeneralReg s now oldVal newVal index).timer i))
      = fun i ↦ Stuck (s.timer i) := by
  have hset : ∀ (s : HPETState) i now,
      (fun j ↦ Stuck ((hpetSetTimer s i now).timer j)) = fun j ↦ Stuck (s.timer j) := by
    intro s i now
    funext j
    obtain ⟨w, hw⟩ := hpetSetTimer_timer s i j now
    rw [hw]
    rfl
  rw [writeGeneralReg.eq_def]
  split
  · rw [writeCfg_frame (fun s j ↦ Stuck (s.timer j)) (by simp) hset (by simp)]
    dsimp only
    split
    · rfl
    · split <;> rfl
  · exact writeStatus_frame (fun s j ↦ Stuck (s.timer j)) (by simp) s newVal
  all_goals rfl

/-- Nor does an access to a register that is none of a comparator block. -/
theorem periodWriteOk_of_not_isTimerReg (t : HPETTimer) (value : BitVec 64) {reg : ℕ}
    (h : isTimerReg reg = false) : PeriodWriteOk t value reg := by
  rw [PeriodWriteOk.eq_def]
  split
  · simp [isTimerReg] at h
  · simp [isTimerReg] at h
  · trivial

/-- A write to one comparator block leaves no timer stuck exactly when it does not make its own
timer stuck. -/
theorem not_stuck_writeTimerReg_iff {s : HPETState} (hs : ∀ i, ¬Stuck (s.timer i)) (now : BitVec 64)
    (k : Fin hpetMaxTimers) (oldVal value : BitVec 64) (reg : ℕ) :
    (∀ j, ¬Stuck ((writeTimerReg s now k oldVal value reg).timer j)) ↔
      PeriodWriteOk (s.timer k) value reg := by
  have hstuck : ∀ j, Stuck ((writeTimerReg s now k oldVal value reg).timer j) ↔
      Stuck (Function.update s.timer k (writeRegs (s.timer k) oldVal value reg) j) := by
    intro j
    obtain ⟨w, hw⟩ := (writeTimerReg_frame s now k oldVal value reg).1 j
    rw [hw]
    rfl
  have hk := stuck_writeRegs_iff (hs k) oldVal value reg
  simp only [hstuck]
  refine ⟨fun hall ↦ ?_, fun hok j ↦ ?_⟩
  · have hkk := hall k
    rwa [Function.update_self, hk, not_not] at hkk
  · by_cases hj : j = k
    · rw [hj, Function.update_self, hk, not_not]
      exact hok
    · rw [Function.update_of_ne hj]
      exact hs j

/-- **One step from a state without stuck timers** leads to another such state exactly when it is
one of those of `KeepsPeriod`. -/
theorem Step.keepsPeriod_iff {s s' : HPETState} {a : Label} (h : Step s a s')
    (hs : ∀ i, ¬Stuck (s.timer i)) : KeepsPeriod s a ↔ ∀ i, ¬Stuck (s'.timer i) := by
  cases h with
  | read => exact iff_of_true trivial hs
  | @write _ offset value now _ hw =>
    rw [keepsPeriod_write]
    have hcases := vmHpetMmioWrite_cases hw
    generalize timerReg offset = reg at hcases ⊢
    rcases hcases with ⟨h', hr, hno⟩ | ⟨k, hr, hsel, h'⟩ | ⟨hr, h'⟩
    · -- the access is ignored
      subst h'
      refine iff_of_true ?_ hs
      intro _ i hi
      rcases hno with hno | hno
      · rw [hno] at hi
        contradiction
      · exact periodWriteOk_of_not_isTimerReg _ _ hno
    · rw [h', not_stuck_writeTimerReg_iff hs]
      constructor
      · exact fun hkeep ↦ hkeep hr k hsel
      · intro hok _ i hi
        obtain rfl : i = k := Fin.ext (Option.some_inj.mp (hi.symm.trans hsel))
        exact hok
    · refine iff_of_true (fun hr' ↦ by rw [hr] at hr'; contradiction) fun i ↦ ?_
      have heq := congrFun
        (stuck_writeGeneralReg s now (readGeneralReg s now offset) value offset) i
      rw [h', heq]
      exact hs i
  | @expire _ i now _ he =>
    obtain ⟨c, w, ht, -⟩ := hpetTimer_frame he
    refine iff_of_true trivial fun j ↦ ?_
    rw [ht]
    by_cases hj : j = i
    · rw [hj, Function.update_self]
      exact hs i
    · rw [Function.update_of_ne hj]
      exact hs j

theorem not_stuck_preInit (hpetIdBase : ℕ) (i : Fin hpetMaxTimers) :
    ¬Stuck ((hpetPreInit hpetIdBase).timer i) := by
  have hzero : ∀ i, ((hpetPreInit hpetIdBase).timer i).period = 0 := by
    change ∀ i, ((forTimers (hpetRealize zeroState hpetIdBase) hpetResetTimer).timer i).period = 0
    refine forTimers_induct (P := fun s ↦ ∀ i, (s.timer i).period = 0) ?_ fun _ ↦ rfl
    intro s k h i
    by_cases hi : i = k
    · simp [hpetResetTimer, hi]
    · simp [hpetResetTimer, hi, h i]
  rintro ⟨-, -, hhi, -⟩
  rw [hzero] at hhi
  exact hhi (by decide)

/-- **Expiry handling always ends in the runs whose writes keep the periods consistent**, and in no
others: the steps of a run are those of `KeepsPeriod` if and only if in every state it visits every
timer handles an expiry, at whatever tick, in finitely many steps. -/
theorem run_ends_iff (hpetIdBase : ℕ) (as : List Label) (s : HPETState) :
    Run (Guarded KeepsPeriod Step) (hpetPreInit hpetIdBase) as s ↔
      Run (Guarded (fun s _ ↦ ∀ i now, HpetTimerEnds s i now) Step) (hpetPreInit hpetIdBase) as s ∧
        ∀ i now, HpetTimerEnds s i now := by
  simp only [forall_hpetTimerEnds_iff]
  exact Run.guarded_iff (not_stuck_preInit hpetIdBase) fun s a t hs hstep ↦ hstep.keepsPeriod_iff hs

/-- **A guest can make the expiry handler run for ever**: it puts timer 0 into 32-bit periodic mode
and writes 1 to the upper half of the comparator register. -/
theorem not_ends_of_high_half :
    ¬ ∀ hpetIdBase as s, Run Step (hpetPreInit hpetIdBase) as s →
      ∀ i now, HpetTimerEnds s i now := by
  intro h
  let s₁ := writeTimerReg (hpetPreInit 9) 0 0 ((hpetPreInit 9).timer 0).config 0x108 0x000
  let s₂ := writeTimerReg s₁ 0 0 ((s₁.timer 0).cmp >>> 32) 1 0x00c
  have h₁ : vmHpetMmioWrite (hpetPreInit 9) 0 0x100 0x108 = some s₁ := rfl
  have h₂ : vmHpetMmioWrite s₁ 0 0x10c 1 = some s₂ := rfl
  have hstuck : Stuck (s₂.timer 0) := by decide
  have hrun : Run Step (hpetPreInit 9) [.write 0x100 0x108 0, .write 0x10c 1 0] s₂ :=
    .cons (.write (by decide) h₁) (.cons (.write (by decide) h₂) .nil)
  exact (forall_hpetTimerEnds_iff s₂ 0).mp (h 9 _ s₂ hrun 0) hstuck

end Hpet
end CamkesVm
