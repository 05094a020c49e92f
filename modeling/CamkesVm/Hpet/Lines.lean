import CamkesVm.Hpet.Mmio
import CamkesVm.Lib.Flags
import CamkesVm.Lib.Log

/-!
# The interrupt lines of the HPET

A timer in level mode raises its line when it expires and sets its bit in the status register; the
guest acknowledges it by writing that bit, and the line goes low again.  All the HPET does to the
lines it does in `update_irq`, for one timer, or where legacy mode begins and ends; `updateIrq_spec`
says what `update_irq` does, and most other code does nothing to lines, routes and pending timers
(`SameLines`).  What is left are two kinds of writes, to the configuration of a timer and to that of
the HPET, which are taken apart here into the change of the registers and the calls around it
(`writeTimerCfg_eq`, `writeCfg_eq`).

Three facts about the registers hold throughout (`Consistent`, `run_consistent`).

The proofs about the interrupt lines of the HPET all start from here: `CamkesVm.Hpet.Calls` asks on
whose behalf a line is set, `CamkesVm.Hpet.Owner` who can lower it again, and
`CamkesVm.Platform.Legacy` what the PIT and the RTC do to the same lines.
-/

set_option autoImplicit false

namespace CamkesVm
namespace Hpet

open Transition EffectLog

/-! ## Lines, routes and pending timers -/

/-- The level an effect sets line `r` to, if it does. -/
def Effect.level (r : ℕ) : Effect → Option ℕ
  | .setIrqLevel route level => if route = r then some level else none
  | _ => none

/-- The level line `r` was last set to. -/
def lineLevel (s : HPETState) (r : ℕ) : ℕ := latest (Effect.level r) 0 s.log

/-- Timer `i` has its bit set in the interrupt status register. -/
def pending (s : HPETState) (i : Fin hpetMaxTimers) : Bool := s.isr.getLsbD i

theorem lineLevel_emit (s : HPETState) (e : Effect) (r : ℕ) :
    lineLevel (s.emit e) r = (e.level r).getD (lineLevel s r) := latest_concat _ _

theorem lineLevel_setIrqLevel (s : HPETState) (route level r : ℕ) :
    lineLevel (s.emit (.setIrqLevel route level)) r =
      if route = r then level else lineLevel s r := by
  rw [lineLevel_emit, Effect.level]
  split <;> rfl

/-- What holds in every state: the timers carry their own numbers, a timer that is routed to the FSB
is not pending, and the RTC is not thought to be high. -/
structure Consistent (s : HPETState) : Prop where
  /-- All timers exist. -/
  numTimers : s.numTimers = hpetMaxTimers
  /-- The timers are numbered. -/
  tn : ∀ i, (s.timer i).tn = i
  /-- A timer routed to the FSB has no interrupt to acknowledge. -/
  fsb : ∀ i, timerFsbRoute (s.timer i) = true → pending s i = false
  /-- Nothing sets `rtc_irq_level`. -/
  rtcIrqLevel : s.rtcIrqLevel = 0

/-- Two states with the same interrupt lines, sources and routes. -/
structure SameLines (s t : HPETState) : Prop where
  /-- The number of timers. -/
  numTimers : t.numTimers = s.numTimers
  /-- The timers' numbers. -/
  tn : ∀ i, (t.timer i).tn = (s.timer i).tn
  /-- The timers' routes. -/
  intRoute : ∀ i, timerIntRoute (t.timer i) = timerIntRoute (s.timer i)
  /-- The timers that are routed to the FSB. -/
  fsbRoute : ∀ i, timerFsbRoute (t.timer i) = timerFsbRoute (s.timer i)
  /-- Legacy mode. -/
  legacy : hpetInLegacyMode t = hpetInLegacyMode s
  /-- The status register. -/
  isr : t.isr = s.isr
  /-- The lines. -/
  level : lineLevel t = lineLevel s
  /-- The RTC's line. -/
  rtcIrqLevel : t.rtcIrqLevel = s.rtcIrqLevel

section

variable {s t u : HPETState}

theorem SameLines.refl (s : HPETState) : SameLines s s where
  numTimers := rfl
  tn _ := rfl
  intRoute _ := rfl
  fsbRoute _ := rfl
  legacy := rfl
  isr := rfl
  level := rfl
  rtcIrqLevel := rfl

theorem SameLines.trans (h : SameLines s t) (h' : SameLines t u) : SameLines s u where
  numTimers := h'.numTimers.trans h.numTimers
  tn i := (h'.tn i).trans (h.tn i)
  intRoute i := (h'.intRoute i).trans (h.intRoute i)
  fsbRoute i := (h'.fsbRoute i).trans (h.fsbRoute i)
  legacy := h'.legacy.trans h.legacy
  isr := h'.isr.trans h.isr
  level := h'.level.trans h.level
  rtcIrqLevel := h'.rtcIrqLevel.trans h.rtcIrqLevel

theorem SameLines.irqRoute (h : SameLines s t) (i : Fin hpetMaxTimers) :
    irqRoute t (t.timer i) = irqRoute s (s.timer i) := by
  simp only [Hpet.irqRoute, h.tn, h.legacy, h.intRoute]

theorem SameLines.consistent (h : SameLines s t) (hs : Consistent s) : Consistent t where
  numTimers := h.numTimers.trans hs.numTimers
  tn i := (h.tn i).trans (hs.tn i)
  fsb i hi := by
    rw [pending, h.isr]
    exact hs.fsb i ((h.fsbRoute i).symm.trans hi)
  rtcIrqLevel := h.rtcIrqLevel.trans hs.rtcIrqLevel

/-- An effect that is not about an interrupt line. -/
theorem SameLines.emit {e : Effect} (he : ∀ r, e.level r = none) : SameLines s (s.emit e) :=
  { SameLines.refl s with level := funext fun r ↦ by rw [lineLevel_emit, he]; rfl }

/-- New registers for a timer, with the same route. -/
theorem SameLines.setTimer {i : Fin hpetMaxTimers} {x : HPETTimer} (htn : x.tn = (s.timer i).tn)
    (hint : timerIntRoute x = timerIntRoute (s.timer i))
    (hfsb : timerFsbRoute x = timerFsbRoute (s.timer i)) : SameLines s (s.setTimer i x) := by
  have hupdate : ∀ {β : Type} (g : HPETTimer → β), g x = g (s.timer i) → ∀ j,
      g ((s.setTimer i x).timer j) = g (s.timer j) := by
    intro β g hg j
    by_cases hj : j = i
    · subst hj
      rw [setTimer_timer, Function.update_self, hg]
    · rw [setTimer_timer, Function.update_of_ne hj]
  exact { SameLines.refl s with
    tn := hupdate HPETTimer.tn htn
    intRoute := hupdate timerIntRoute hint
    fsbRoute := hupdate timerFsbRoute hfsb
    legacy := rfl, isr := rfl, level := rfl, rtcIrqLevel := rfl, numTimers := rfl }

theorem SameLines.hpetSetTimer (s : HPETState) (i : Fin hpetMaxTimers) (now : BitVec 64) :
    SameLines s (hpetSetTimer s i now) := by
  have hwrap : ∀ w, SameLines s (s.setTimer i { s.timer i with wrapFlag := w }) := fun w ↦
    SameLines.setTimer rfl rfl rfl
  simp only [Hpet.hpetSetTimer]
  split
  · exact (hwrap true).trans (.emit fun _ ↦ rfl)
  · exact (hwrap false).trans (.emit fun _ ↦ rfl)

end

/-! ## `update_irq` -/

/-- Whether `update_irq` leaves a timer pending, and its line high. -/
def raises (s : HPETState) (i : Fin hpetMaxTimers) (set : Bool) : Bool :=
  set && timerEnabled (s.timer i) && hpetEnabled s && anyBit (s.timer i).config hpetTnTypeLevel

/-- The bit of a timer in the status register. -/
def timerMask (tn : ℕ) : BitVec 64 := 1 <<< tn

theorem getLsbD_timerMask : ∀ i j : Fin hpetMaxTimers,
    (timerMask i).getLsbD j = decide (j = i) := by decide

theorem getLsbD_set (x : BitVec 64) (i j : Fin hpetMaxTimers) :
    (x ||| timerMask i).getLsbD j = if j = i then true else x.getLsbD j := by
  rw [BitVec.getLsbD_or, getLsbD_timerMask]
  split <;> simp [*]

theorem getLsbD_clear (x : BitVec 64) (i j : Fin hpetMaxTimers) :
    (x &&& ~~~timerMask i).getLsbD j = if j = i then false else x.getLsbD j := by
  have hj : j.val < 64 := lt_trans j.isLt (by decide)
  rw [BitVec.getLsbD_and, BitVec.getLsbD_not, getLsbD_timerMask, decide_eq_true hj]
  split <;> simp [*]

section

variable {s : HPETState} (h : Consistent s) (i : Fin hpetMaxTimers) (set : Bool)
include h

/-- **What `update_irq` does to the status register and the lines**, for a timer that is not routed
to the FSB. -/
theorem updateIrq_spec (hfsb : timerFsbRoute (s.timer i) = false) :
    (∀ j, pending (updateIrq s i set) j = if j = i then raises s i set else pending s j) ∧
      ∀ r, lineLevel (updateIrq s i set) r =
        if irqRoute s (s.timer i) = r then (raises s i set).toNat else lineLevel s r := by
  have hclear : ∀ j : Fin hpetMaxTimers, (s.isr &&& ~~~timerMask (s.timer i).tn).getLsbD j =
      if j = i then false else s.isr.getLsbD j := by
    rw [h.tn]
    exact getLsbD_clear s.isr i
  have hset : ∀ j : Fin hpetMaxTimers, (s.isr ||| timerMask (s.timer i).tn).getLsbD j =
      if j = i then true else s.isr.getLsbD j := by
    rw [h.tn]
    exact getLsbD_set s.isr i
  simp only [updateIrq, hfsb, Bool.false_eq_true, if_false]
  split
  next hoff =>
    have hraises : raises s i set = false := by
      rw [raises]
      revert hoff
      cases set <;> cases timerEnabled (s.timer i) <;> cases hpetEnabled s <;> simp
    rw [hraises]
    exact ⟨hclear, fun r ↦ lineLevel_setIrqLevel _ _ _ r⟩
  next hon =>
    have hraises : raises s i set = anyBit (s.timer i).config hpetTnTypeLevel := by
      rw [raises]
      revert hon
      cases set <;> cases timerEnabled (s.timer i) <;> cases hpetEnabled s <;> simp
    split
    next hlevel =>
      rw [hraises, hlevel]
      exact ⟨hset, fun r ↦ lineLevel_setIrqLevel _ _ _ r⟩
    next hedge =>
      rw [hraises, Bool.eq_false_of_not_eq_true hedge]
      refine ⟨hclear, fun r ↦ ?_⟩
      rw [lineLevel_setIrqLevel, lineLevel_setIrqLevel]
      split <;> rfl

/-- Routed to the FSB, it does nothing. -/
theorem updateIrq_of_fsb (hfsb : timerFsbRoute (s.timer i) = true) :
    (∀ j, pending (updateIrq s i set) j = pending s j) ∧
      lineLevel (updateIrq s i set) = lineLevel s := by
  have hclear : ∀ j : Fin hpetMaxTimers, (s.isr &&& ~~~timerMask (s.timer i).tn).getLsbD j =
      s.isr.getLsbD j := by
    intro j
    rw [h.tn, getLsbD_clear]
    split
    next hj => exact hj ▸ (h.fsb i hfsb).symm
    next => rfl
  simp only [updateIrq, hfsb, if_true]
  split
  · exact ⟨hclear, rfl⟩
  · exact ⟨fun _ ↦ rfl, rfl⟩

theorem Consistent.updateIrq : Consistent (updateIrq s i set) where
  numTimers := (updateIrq_numTimers s i set).trans h.numTimers
  tn j := by rw [updateIrq_timer, h.tn]
  fsb j hj := by
    rw [updateIrq_timer] at hj
    cases hfsb : timerFsbRoute (s.timer i) with
    | true => rw [(updateIrq_of_fsb h i set hfsb).1, h.fsb j hj]
    | false =>
      have hji : j ≠ i := by
        rintro rfl
        exact absurd (hj.symm.trans hfsb) (by decide)
      rw [(updateIrq_spec h i set hfsb).1, if_neg hji, h.fsb j hj]
  rtcIrqLevel := by
    obtain ⟨_, _, hframe⟩ := updateIrq_frame s i set
    rw [hframe]
    exact h.rtcIrqLevel

end

section

variable {s : HPETState}

theorem sameLines_stop (s : HPETState) (tid : ℕ) : SameLines s (s.emit (.stop tid)) :=
  .emit fun _ ↦ rfl

theorem Consistent.hpetDelTimer (h : Consistent s) (i : Fin hpetMaxTimers) :
    Consistent (hpetDelTimer s i) :=
  ((sameLines_stop s _).consistent h).updateIrq i false

theorem hpetDelTimer_spec (h : Consistent s) (i : Fin hpetMaxTimers) :
    (∀ j, pending (hpetDelTimer s i) j = if j = i then false else pending s j) ∧
      ∀ r, lineLevel (hpetDelTimer s i) r =
        if timerFsbRoute (s.timer i) = false ∧ irqRoute s (s.timer i) = r then 0
        else lineLevel s r := by
  have hstop := sameLines_stop s (s.timer i).tid
  have hlevel : ∀ r, lineLevel (s.emit (.stop (s.timer i).tid)) r = lineLevel s r := fun r ↦
    congrFun hstop.level r
  cases hfsb : timerFsbRoute (s.timer i) with
  | true =>
    obtain ⟨hpending, hlines⟩ := updateIrq_of_fsb (hstop.consistent h) i false hfsb
    refine ⟨fun j ↦ (hpending j).trans ?_, fun r ↦ ?_⟩
    · split
      next hj => exact hj ▸ h.fsb i hfsb
      next => rfl
    · rw [hpetDelTimer, hlines, hlevel, if_neg (by simp)]
  | false =>
    obtain ⟨hpending, hlines⟩ := updateIrq_spec (hstop.consistent h) i false hfsb
    refine ⟨hpending, fun r ↦ ?_⟩
    rw [hpetDelTimer, hlines, hlevel]
    simp only [true_and]
    rfl

theorem Consistent.foldl_hpetDelTimer (h : Consistent s) (l : List (Fin hpetMaxTimers)) :
    Consistent (l.foldl Hpet.hpetDelTimer s) := by
  induction l generalizing s with
  | nil => exact h
  | cons i l ih => exact ih (h.hpetDelTimer i)

end

/-! ## Expiries and acknowledgements -/

theorem sameLines_armToComparator (s : HPETState) (i : Fin hpetMaxTimers) (curTick : BitVec 64) :
    SameLines s (armToComparator s i curTick) := .emit fun _ ↦ rfl

/-- The expiry of a timer is `update_irq`, as far as the lines are concerned; before that its
one-shot may be started again. -/
theorem hpetTimer_eq_updateIrq {s s' : HPETState} {fuel : ℕ} {i : Fin hpetMaxTimers}
    {now : BitVec 64} (h : hpetTimer fuel s i now = some s') :
    ∃ t, SameLines s t ∧ (t.log = s.log ∨ ∃ tid ns, t.log = s.log ++ [.oneshot tid ns]) ∧
      s' = updateIrq t i true := by
  simp only [hpetTimer] at h
  generalize hpetGetTicks s now = curTick at h
  split at h
  · obtain ⟨c, -, rfl⟩ := Option.map_eq_some_iff.mp h
    have hset : SameLines s (s.setTimer i { s.timer i with cmp := c }) := .setTimer rfl rfl rfl
    exact ⟨_, hset.trans (sameLines_armToComparator _ i curTick), .inr ⟨_, _, rfl⟩, rfl⟩
  · split at h
    · cases h
      have hset : SameLines (armToComparator s i curTick)
          ((armToComparator s i curTick).setTimer i { s.timer i with wrapFlag := false }) :=
        .setTimer rfl rfl rfl
      exact ⟨_, (sameLines_armToComparator s i curTick).trans hset, .inr ⟨_, _, rfl⟩, rfl⟩
    · cases h
      exact ⟨s, .refl s, .inl rfl, rfl⟩

theorem Consistent.writeStatus {s : HPETState} (h : Consistent s) (newVal : BitVec 64) :
    Consistent (writeStatus s newVal) := by
  refine forTimers_induct (fun s i h ↦ ?_) h
  split
  · exact h.updateIrq i false
  · exact h

/-! ## Writes to a comparator block -/

section

variable (s : HPETState) (now : BitVec 64) (i : Fin hpetMaxTimers) (t : HPETTimer)
  (oldVal newVal : BitVec 64)

theorem sameLines_storeCmp (htn : t.tn = (s.timer i).tn)
    (hint : timerIntRoute t = timerIntRoute (s.timer i))
    (hfsb : timerFsbRoute t = timerFsbRoute (s.timer i)) :
    SameLines s (storeCmp s now i t) := by
  have hset : SameLines s (s.setTimer i t) := .setTimer htn hint hfsb
  rw [storeCmp]
  split
  · exact hset.trans (.hpetSetTimer _ i now)
  · exact hset

/-- A comparator write clears `HPET_TN_SETVAL`, which is not part of the route. -/
theorem route_of_config {t t' : HPETTimer} (h : t'.config = t.config &&& ~~~hpetTnSetval) :
    timerIntRoute t' = timerIntRoute t ∧ timerFsbRoute t' = timerFsbRoute t := by
  rw [timerIntRoute, timerIntRoute, timerFsbRoute, timerFsbRoute, anyBit, anyBit, h,
    Flags.and_and_of_subset _ (by decide), Flags.and_and_of_subset _ (by decide)]
  exact ⟨rfl, rfl⟩

/-- **Only the configuration of a timer says where it is routed.** -/
theorem sameLines_writeTimerReg {reg : ℕ} (hreg : reg ≠ 0) :
    SameLines s (writeTimerReg s now i oldVal newVal reg) := by
  rw [writeTimerReg.eq_def]
  split
  · exact absurd rfl hreg
  · have hconfig : (writeCmpLow (s.timer i) newVal).config =
        (s.timer i).config &&& ~~~hpetTnSetval := rfl
    obtain ⟨hint, hfsb⟩ := route_of_config hconfig
    exact sameLines_storeCmp s now i _ rfl hint hfsb
  · have hconfig : (writeCmpHigh (s.timer i) newVal).config =
        (s.timer i).config &&& ~~~hpetTnSetval := by
      simp only [writeCmpHigh]
      split <;> rfl
    have htn : (writeCmpHigh (s.timer i) newVal).tn = (s.timer i).tn := by
      simp only [writeCmpHigh]
      split <;> rfl
    obtain ⟨hint, hfsb⟩ := route_of_config hconfig
    exact sameLines_storeCmp s now i _ htn hint hfsb
  · exact .setTimer rfl rfl rfl
  · exact .setTimer rfl rfl rfl
  · exact .refl s

end

section

variable {s : HPETState} {i : Fin hpetMaxTimers}

theorem Consistent.setTimer (h : Consistent s) {t : HPETTimer} (htn : t.tn = i)
    (hfsb : timerFsbRoute t = true → pending s i = false) : Consistent (s.setTimer i t) where
  numTimers := h.numTimers
  tn j := by
    by_cases hj : j = i
    · subst hj
      rw [setTimer_timer, Function.update_self, htn]
    · rw [setTimer_timer, Function.update_of_ne hj, h.tn]
  fsb j hj := by
    rw [setTimer_timer] at hj
    by_cases hji : j = i
    · subst hji
      rw [Function.update_self] at hj
      exact hfsb hj
    · rw [Function.update_of_ne hji] at hj
      exact h.fsb j hj
  rtcIrqLevel := h.rtcIrqLevel

theorem writeCfgRegs_tn (t : HPETTimer) (oldVal newVal : BitVec 64) :
    (writeCfgRegs t oldVal newVal).tn = t.tn := by
  simp only [writeCfgRegs]
  split <;> rfl

theorem timerFsbRoute_writeCfgRegs (t : HPETTimer) (oldVal newVal : BitVec 64) :
    timerFsbRoute (writeCfgRegs t oldVal newVal) = anyBit newVal hpetTnFsbEnable := by
  rw [timerFsbRoute, writeCfgRegs_config, anyBit_fixup (by decide) (by decide)]

/-- The state in which a new configuration takes effect: if the FSB is about to take over, the
timer's line has been lowered. -/
def beforeCfg (s : HPETState) (i : Fin hpetMaxTimers) (value : BitVec 64) : HPETState :=
  if activatingBit (s.timer i).config value hpetTnFsbEnable then updateIrq s i false else s

theorem fsb_of_activatingBit {value : BitVec 64}
    (hfsb : activatingBit (s.timer i).config value hpetTnFsbEnable = true) :
    timerFsbRoute (s.timer i) = false := by
  rw [activatingBit, Bool.and_eq_true_iff, Bool.not_eq_true'] at hfsb
  exact hfsb.1

theorem beforeCfg_frame (s : HPETState) (i : Fin hpetMaxTimers) (value : BitVec 64) :
    (beforeCfg s i value).timer = s.timer ∧ (beforeCfg s i value).config = s.config := by
  rw [beforeCfg]
  split
  · exact ⟨updateIrq_timer s i false, updateIrq_config s i false⟩
  · exact ⟨rfl, rfl⟩

theorem Consistent.beforeCfg (h : Consistent s) (i : Fin hpetMaxTimers) (value : BitVec 64) :
    Consistent (beforeCfg s i value) := by
  rw [Hpet.beforeCfg]
  split
  · exact h.updateIrq i false
  · exact h

/-- A timer that is to be routed to the FSB is not pending. -/
theorem pending_beforeCfg (h : Consistent s) {value : BitVec 64}
    (hfsb : anyBit value hpetTnFsbEnable = true) : pending (beforeCfg s i value) i = false := by
  rw [beforeCfg]
  split
  next hact =>
    rw [(updateIrq_spec h i false (fsb_of_activatingBit hact)).1, if_pos rfl]
    rfl
  next hact =>
    refine h.fsb i ?_
    rw [activatingBit, hfsb, Bool.and_true, Bool.not_eq_true', Bool.not_eq_false] at hact
    exact hact

/-- The registers of the timer have changed. -/
def afterCfg (s : HPETState) (i : Fin hpetMaxTimers) (value : BitVec 64) : HPETState :=
  (beforeCfg s i value).setTimer i (writeCfgRegs (s.timer i) (s.timer i).config value)

theorem Consistent.afterCfg (h : Consistent s) (i : Fin hpetMaxTimers) (value : BitVec 64) :
    Consistent (afterCfg s i value) := by
  refine (h.beforeCfg i value).setTimer ((writeCfgRegs_tn ..).trans (h.tn i)) fun hf ↦ ?_
  rw [timerFsbRoute_writeCfgRegs] at hf
  exact pending_beforeCfg h hf

/-- Then the timer may be started or stopped. -/
theorem writeTimerCfg_eq (s : HPETState) (now : BitVec 64) (i : Fin hpetMaxTimers)
    (value : BitVec 64) :
    writeTimerCfg s now i (s.timer i).config value =
      if activatingBit (s.timer i).config value hpetTnEnable && hpetEnabled (afterCfg s i value)
      then hpetSetTimer (afterCfg s i value) i now
      else if deactivatingBit (s.timer i).config value hpetTnEnable
      then hpetDelTimer (afterCfg s i value) i else afterCfg s i value := by
  have hafter : afterCfg s i value = (beforeCfg s i value).setTimer i
      (writeCfgRegs ((beforeCfg s i value).timer i) (s.timer i).config value) := by
    rw [(beforeCfg_frame s i value).1]
    rfl
  simp only [writeTimerCfg, ← beforeCfg.eq_def, ← hafter]

theorem Consistent.writeTimerReg (h : Consistent s) (now value : BitVec 64)
    (i : Fin hpetMaxTimers) (reg : ℕ) :
    Consistent (writeTimerReg s now i (readTimerReg (s.timer i) reg) value reg) := by
  by_cases hreg : reg = 0
  · subst hreg
    change Consistent (writeTimerCfg s now i (s.timer i).config value)
    have hafter := h.afterCfg i value
    rw [writeTimerCfg_eq]
    split
    · exact (SameLines.hpetSetTimer _ i now).consistent hafter
    · split
      · exact hafter.hpetDelTimer i
      · exact hafter
  · exact (sameLines_writeTimerReg s now i _ value hreg).consistent h

end

/-! ## Writes to the general configuration -/

section

variable {s : HPETState}

/-- The new value of the configuration register. -/
def configured (s : HPETState) (value : BitVec 64) : HPETState :=
  { s with config := (s.config &&& highHalf) ||| hpetFixupReg value s.config hpetCfgWriteMask }

/-- Then the main counter may be started or halted. -/
def switched (s : HPETState) (now value : BitVec 64) : HPETState :=
  let t := configured s value
  if activatingBit s.config value hpetCfgEnable then
    forTimers { t with hpetOffset := startOffset t now } fun t i ↦
      if (t.timer i).cmp != BitVec.allOnes 64 then hpetSetTimer t i now else t
  else if deactivatingBit s.config value hpetCfgEnable then
    forTimers { t with hpetCounter := hpetGetTicks t now } hpetDelTimer
  else t

theorem Consistent.configured (h : Consistent s) (value : BitVec 64) :
    Consistent (configured s value) where
  numTimers := h.numTimers
  tn := h.tn
  fsb := h.fsb
  rtcIrqLevel := h.rtcIrqLevel

theorem hpetInLegacyMode_configured (s : HPETState) (value : BitVec 64) :
    hpetInLegacyMode (configured s value) = anyBit value hpetCfgLegacy := by
  rw [hpetInLegacyMode, configured, anyBit_fixup (by decide) (by decide)]

/-- Unless the counter is halted, the lines and the routes stay as they are. -/
theorem sameLines_switched {value : BitVec 64}
    (hoff : deactivatingBit s.config value hpetCfgEnable = false) (now : BitVec 64) :
    SameLines (configured s value) (switched s now value) := by
  simp only [switched, hoff, Bool.false_eq_true, if_false]
  split
  · have hstart : SameLines (configured s value) { configured s value with
        hpetOffset := startOffset (configured s value) now } := { SameLines.refl _ with }
    refine forTimers_induct (P := SameLines (configured s value)) (fun t i ht ↦ ?_) hstart
    split
    · exact ht.trans (.hpetSetTimer t i now)
    · exact ht
  · exact .refl _

theorem forTimers_eq_foldl (h : s.numTimers = hpetMaxTimers)
    (f : HPETState → Fin hpetMaxTimers → HPETState) :
    forTimers s f = (List.finRange hpetMaxTimers).foldl f s := by
  rw [forTimers]
  congr 1
  refine List.filter_eq_self.mpr fun i _ ↦ decide_eq_true ?_
  rw [h]
  exact i.isLt

/-- Halting the counter stops all timers. -/
theorem switched_of_deactivating (h : Consistent s) {value : BitVec 64}
    (hoff : deactivatingBit s.config value hpetCfgEnable = true) (now : BitVec 64) :
    ∃ t, SameLines (configured s value) t ∧ t.log = s.log ∧
      switched s now value = (List.finRange hpetMaxTimers).foldl hpetDelTimer t := by
  have hact : activatingBit s.config value hpetCfgEnable = false := by
    rw [deactivatingBit, Bool.and_eq_true_iff, Bool.not_eq_true'] at hoff
    rw [activatingBit, hoff.2, Bool.and_false]
  refine ⟨{ configured s value with hpetCounter := hpetGetTicks (configured s value) now },
    { SameLines.refl _ with }, rfl, ?_⟩
  simp only [switched, hact, hoff, Bool.false_eq_true, if_false, if_true]
  exact forTimers_eq_foldl (s := { configured s value with hpetCounter := _ }) h.numTimers _

theorem Consistent.switched (h : Consistent s) (now value : BitVec 64) :
    Consistent (switched s now value) := by
  have hc := h.configured value
  cases hoff : deactivatingBit s.config value hpetCfgEnable with
  | false => exact (sameLines_switched hoff now).consistent hc
  | true =>
    obtain ⟨t, hsame, -, hswitched⟩ := switched_of_deactivating h hoff now
    rw [hswitched]
    exact (hsame.consistent hc).foldl_hpetDelTimer _

/-- Lines 0 and 8, which legacy mode gives to timers 0 and 1. -/
def LegacyLine (r : ℕ) : Prop := r = 0 ∨ r = rtcIsaIrq

instance : DecidablePred LegacyLine := fun r ↦ inferInstanceAs (Decidable (r = 0 ∨ r = rtcIsaIrq))

/-- Lines 0 and 8 are lowered where legacy mode begins or ends. -/
def lowerLegacy (s : HPETState) : HPETState :=
  (s.emit (.setIrqLevel 0 0)).emit (.setIrqLevel rtcIsaIrq 0)

theorem Consistent.lowerLegacy (h : Consistent s) : Consistent (lowerLegacy s) where
  numTimers := h.numTimers
  tn := h.tn
  fsb := h.fsb
  rtcIrqLevel := h.rtcIrqLevel

theorem writeCfg_eq (h : Consistent s) (now value : BitVec 64) :
    writeCfg s now s.config value =
      if activatingBit s.config value hpetCfgLegacy || deactivatingBit s.config value hpetCfgLegacy
      then lowerLegacy (switched s now value) else switched s now value := by
  rw [writeCfg, ← configured.eq_def, ← switched.eq_def, (h.switched now value).rtcIrqLevel]
  cases activatingBit s.config value hpetCfgLegacy <;>
    cases deactivatingBit s.config value hpetCfgLegacy <;> rfl

theorem Consistent.writeGeneralReg (h : Consistent s) (now value : BitVec 64) (offset : ℕ) :
    Consistent (writeGeneralReg s now (readGeneralReg s now offset) value offset) := by
  rw [writeGeneralReg.eq_def]
  split
  · change Consistent (writeCfg s now s.config value)
    rw [writeCfg_eq h]
    split
    · exact (h.switched now value).lowerLegacy
    · exact h.switched now value
  · exact h.writeStatus value
  · exact SameLines.consistent { SameLines.refl s with } h
  · exact SameLines.consistent { SameLines.refl s with } h
  · exact h

end

/-! ## Runs -/

theorem Consistent.step {s s' : HPETState} {a : Label} (h : Consistent s) (hs : Step s a s') :
    Consistent s' := by
  cases hs with
  | read => exact h
  | write _ hw =>
    rcases vmHpetMmioWrite_cases hw with ⟨hw', -⟩ | ⟨i, -, -, hw'⟩ | ⟨-, hw'⟩ <;> rw [hw']
    · exact h
    · exact h.writeTimerReg _ _ i _
    · exact h.writeGeneralReg _ _ _
  | expire he =>
    obtain ⟨t, hsame, -, rfl⟩ := hpetTimer_eq_updateIrq he
    exact (hsame.consistent h).updateIrq _ true

theorem consistent_hpetRealize (hpetIdBase : ℕ) :
    Consistent (hpetRealize zeroState hpetIdBase) :=
  ⟨rfl, fun _ ↦ rfl, fun _ _ ↦ BitVec.getLsbD_zero, rfl⟩

theorem Consistent.hpetResetTimer {s : HPETState} (h : Consistent s) (i : Fin hpetMaxTimers) :
    Consistent (hpetResetTimer s i) := by
  have hdel := h.hpetDelTimer i
  refine hdel.setTimer (hdel.tn i) fun _ ↦ ?_
  rw [(hpetDelTimer_spec h i).1, if_pos rfl]

/-- Nothing changes the routes at the end of the reset. -/
theorem sameLines_hpetReset {s : HPETState} (h : Consistent s) (hconfig : s.config = 0) :
    SameLines (forTimers s hpetResetTimer) (hpetReset s) := by
  have hloop : Consistent (forTimers s hpetResetTimer) ∧
      (forTimers s hpetResetTimer).config = 0 := by
    refine forTimers_induct (P := fun s ↦ Consistent s ∧ s.config = 0) ?_ ⟨h, hconfig⟩
    rintro s i ⟨h, hconfig⟩
    exact ⟨h.hpetResetTimer i, (hpetDelTimer_config s i).trans hconfig⟩
  exact { SameLines.refl _ with
    legacy := by rw [hpetInLegacyMode, hpetInLegacyMode, hloop.2]; rfl
    rtcIrqLevel := hloop.1.rtcIrqLevel.symm }

theorem consistent_hpetPreInit (hpetIdBase : ℕ) : Consistent (hpetPreInit hpetIdBase) := by
  have h := consistent_hpetRealize hpetIdBase
  exact (sameLines_hpetReset h rfl).consistent
    (forTimers_induct (fun _ i h ↦ h.hpetResetTimer i) h)

/-- **The registers are consistent in every run.** -/
theorem run_consistent {hpetIdBase : ℕ} {as : List Label} {s : HPETState}
    (h : Run Step (hpetPreInit hpetIdBase) as s) : Consistent s :=
  h.invariant (consistent_hpetPreInit hpetIdBase) fun _ _ _ hc hs ↦ hc.step hs

end Hpet
end CamkesVm
