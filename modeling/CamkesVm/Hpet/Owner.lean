import CamkesVm.Hpet.Lines
import CamkesVm.Lib.Wires
import Mathlib.Tactic.FinCases

/-!
# Who can lower the interrupt lines

`update_irq` works out which line to raise or lower from the registers as they are when it is
called, so a line is only lowered if the timer is still routed to it.  `LinesOwned` says that
somebody can lower the line: each high line has a pending timer that is routed to it.

`update_irq` itself keeps this (`board_updateIrq` and `Wires.Board.OwnedBut.drive`).  Two writes may
not.  One is a new route for a pending timer: the line it was on stays high.  The other is entering
legacy mode, which moves timers 0 and 1 to lines 0 and 8.  The source lowers the line beforehand
when the timer is about to be routed to the FSB, and the lines 0 and 8 when legacy mode begins and
ends, but in these two places it lowers nothing.  `run_linesOwned_iff` says exactly when that is
harmless.

## What is here

* `board` — the timers as sources of a board of lines, so that the general rules apply: a call of
  `update_irq` is `Wires.Board.drive`, a new configuration also moves the timer.
* `LeavesNoLine`, `LegacyLeavesNoLine` — the two conditions, on the state before the write;
  `writeTimerCfg_owned_iff` and `writeCfg_owned_iff` say that they are exact.
* `KeepsOwners`, `run_linesOwned_iff` — one event, and runs.
-/

set_option autoImplicit false

namespace CamkesVm
namespace Hpet

open Transition EffectLog Wires

/-! ## The timers as sources -/

/-- The timers as sources that share the interrupt lines. -/
def board (s : HPETState) : Board (Fin hpetMaxTimers) ℕ where
  level r := decide (lineLevel s r = 1)
  pending := pending s
  route i := irqRoute s (s.timer i)

/-- **Every line that is high has an owner**: a pending timer that is routed to it. -/
def LinesOwned (s : HPETState) : Prop :=
  ∀ r, lineLevel s r = 1 → ∃ i, pending s i = true ∧ irqRoute s (s.timer i) = r

theorem board_owned_iff (s : HPETState) : (board s).Owned ↔ LinesOwned s :=
  forall_congr' fun _ ↦ imp_congr_left decide_eq_true_iff

theorem SameLines.board {s t : HPETState} (h : SameLines s t) : board t = board s := by
  refine Board.ext ?_ ?_ (funext h.irqRoute)
  · simp only [Hpet.board, h.level]
  · exact funext fun i ↦ congrArg (fun x : BitVec 64 ↦ x.getLsbD i) h.isr

theorem SameLines.linesOwned {s t : HPETState} (h : SameLines s t) (ho : LinesOwned s) :
    LinesOwned t := by
  rw [← board_owned_iff, h.board]
  exact (board_owned_iff s).mpr ho

section

variable {s : HPETState} (h : Consistent s) (i : Fin hpetMaxTimers) (set : Bool)
include h

theorem board_updateIrq (hfsb : timerFsbRoute (s.timer i) = false) :
    board (updateIrq s i set) = (board s).drive i (raises s i set) := by
  obtain ⟨hpending, hlevel⟩ := updateIrq_spec h i set hfsb
  refine Board.ext (funext fun r ↦ ?_) (funext fun j ↦ ?_) (funext fun j ↦ ?_)
  · change decide (lineLevel (updateIrq s i set) r = 1) =
      Function.update (board s).level (irqRoute s (s.timer i)) (raises s i set) r
    rw [hlevel, Function.update_apply]
    by_cases hr : r = irqRoute s (s.timer i)
    · rw [if_pos hr, if_pos hr.symm]
      cases raises s i set <;> rfl
    · rw [if_neg hr, if_neg (Ne.symm hr)]
      rfl
  · exact (hpending j).trans (Function.update_apply ..).symm
  · simp [board, irqRoute, hpetInLegacyMode]

theorem board_updateIrq_of_fsb (hfsb : timerFsbRoute (s.timer i) = true) :
    board (updateIrq s i set) = board s := by
  obtain ⟨hpending, hlevel⟩ := updateIrq_of_fsb h i set hfsb
  refine Board.ext (funext fun r ↦ ?_) (funext hpending) (funext fun j ↦ ?_)
  · simp only [board, hlevel]
  · simp [board, irqRoute, hpetInLegacyMode]

/-- **`update_irq` leaves nobody's line high** but for those that were not owned before. -/
theorem ownedBut_updateIrq {p : ℕ → Prop} (hs : (board s).OwnedBut p) :
    (board (updateIrq s i set)).OwnedBut p := by
  cases hfsb : timerFsbRoute (s.timer i) with
  | true =>
    rw [board_updateIrq_of_fsb h i set hfsb]
    exact hs
  | false =>
    rw [board_updateIrq h i set hfsb]
    exact hs.drive i _

end

section

variable {s : HPETState} {p : ℕ → Prop}

theorem ownedBut_hpetDelTimer (h : Consistent s) (hs : (board s).OwnedBut p)
    (i : Fin hpetMaxTimers) : (board (hpetDelTimer s i)).OwnedBut p := by
  have hstop := sameLines_stop s (s.timer i).tid
  exact ownedBut_updateIrq (hstop.consistent h) i false (hstop.board ▸ hs)

theorem ownedBut_foldl_hpetDelTimer (h : Consistent s) (hs : (board s).OwnedBut p)
    (l : List (Fin hpetMaxTimers)) : (board (l.foldl hpetDelTimer s)).OwnedBut p := by
  induction l generalizing s with
  | nil => exact hs
  | cons i l ih => exact ih (h.hpetDelTimer i) (ownedBut_hpetDelTimer h hs i)

theorem ownedBut_writeStatus (h : Consistent s) (hs : (board s).OwnedBut p) (newVal : BitVec 64) :
    (board (writeStatus s newVal)).OwnedBut p := by
  suffices hboth : Consistent (writeStatus s newVal) ∧
      (board (writeStatus s newVal)).OwnedBut p from hboth.2
  refine forTimers_induct (P := fun s ↦ Consistent s ∧ (board s).OwnedBut p) ?_ ⟨h, hs⟩
  rintro s i ⟨h, hs⟩
  split
  · exact ⟨h.updateIrq i false, ownedBut_updateIrq h i false hs⟩
  · exact ⟨h, hs⟩

end

/-! ## A new configuration for a timer -/

section

variable {s : HPETState} {i : Fin hpetMaxTimers}

theorem board_setTimer (s : HPETState) (i : Fin hpetMaxTimers) (t : HPETTimer) :
    board (s.setTimer i t) = (board s).move i (irqRoute s t) := by
  refine Board.ext rfl rfl (funext fun j ↦ ?_)
  by_cases hj : j = i
  · subst hj
    rw [Board.route_move_self]
    exact congrArg (irqRoute s) (Function.update_self ..)
  · rw [Board.route_move_of_ne _ _ _ hj]
    exact congrArg (irqRoute s) (Function.update_of_ne hj ..)

/-- The line timer `i` is routed to once `value` has been written to its configuration. -/
def newRoute (s : HPETState) (i : Fin hpetMaxTimers) (value : BitVec 64) : ℕ :=
  irqRoute s (writeCfgRegs (s.timer i) (s.timer i).config value)

/-- **What a new configuration must not do**: take a pending timer away from a line that is high and
that no other pending timer is routed to.  Routing the timer to the FSB is no harm, as the line is
lowered first. -/
def LeavesNoLine (s : HPETState) (i : Fin hpetMaxTimers) (value : BitVec 64) : Prop :=
  activatingBit (s.timer i).config value hpetTnFsbEnable = false → pending s i = true →
    newRoute s i value ≠ irqRoute s (s.timer i) → lineLevel s (irqRoute s (s.timer i)) = 1 →
    ∃ j ≠ i, pending s j = true ∧ irqRoute s (s.timer j) = irqRoute s (s.timer i)

theorem owned_beforeCfg (h : Consistent s) (ho : (board s).Owned) (i : Fin hpetMaxTimers)
    (value : BitVec 64) : (board (beforeCfg s i value)).Owned := by
  rw [beforeCfg]
  split
  · exact Board.ownedBut_false_iff.mp (ownedBut_updateIrq h i false (ho.but _))
  · exact ho

theorem owned_move_beforeCfg_iff (h : Consistent s) (ho : (board s).Owned)
    (i : Fin hpetMaxTimers) (value : BitVec 64) :
    ((board (beforeCfg s i value)).move i (newRoute s i value)).Owned ↔
      LeavesNoLine s i value := by
  rw [Board.owned_move_iff (owned_beforeCfg h ho i value)]
  cases hact : activatingBit (s.timer i).config value hpetTnFsbEnable with
  | false =>
    rw [beforeCfg, hact, LeavesNoLine, hact]
    simp only [board, decide_eq_true_eq, forall_true_left, Bool.false_eq_true, if_false]
  | true =>
    have hvalue : anyBit value hpetTnFsbEnable = true :=
      (Bool.and_eq_true_iff.mp hact).2
    refine iff_of_true (fun hp ↦ ?_) fun hact' ↦ ?_
    · exact absurd ((pending_beforeCfg h hvalue).symm.trans hp) (by decide)
    · exact absurd (hact'.symm.trans hact) (by decide)

theorem board_afterCfg (s : HPETState) (i : Fin hpetMaxTimers) (value : BitVec 64) :
    board (afterCfg s i value) = (board (beforeCfg s i value)).move i (newRoute s i value) := by
  rw [afterCfg, board_setTimer, newRoute, irqRoute, irqRoute, hpetInLegacyMode, hpetInLegacyMode,
    (beforeCfg_frame s i value).2]

/-- **A new configuration keeps the lines owned** exactly if it leaves none behind. -/
theorem writeTimerCfg_owned_iff (h : Consistent s) (ho : (board s).Owned) (i : Fin hpetMaxTimers)
    (now value : BitVec 64) :
    (board (writeTimerCfg s now i (s.timer i).config value)).Owned ↔ LeavesNoLine s i value := by
  have hafter := h.afterCfg i value
  rw [← owned_move_beforeCfg_iff h ho, ← board_afterCfg, writeTimerCfg_eq]
  split
  · rw [(SameLines.hpetSetTimer (afterCfg s i value) i now).board]
  · split
    · have hstop := sameLines_stop (afterCfg s i value) ((afterCfg s i value).timer i).tid
      rw [hpetDelTimer]
      cases hfsb : timerFsbRoute ((afterCfg s i value).timer i) with
      | true => rw [board_updateIrq_of_fsb (hstop.consistent hafter) i false hfsb, hstop.board]
      | false =>
        -- lowering the new line does not make up for the old one
        rw [board_updateIrq (hstop.consistent hafter) i false hfsb, hstop.board, board_afterCfg]
        exact Board.owned_move_drive_iff (owned_beforeCfg h ho i value) i _
    · rfl

end

/-! ## A new general configuration -/

section

variable {s : HPETState} {p : ℕ → Prop}

/-- **Stopping timers** acknowledges them and lowers their lines. -/
theorem foldl_hpetDelTimer_spec (h : Consistent s) (l : List (Fin hpetMaxTimers)) :
    (∀ j, pending (l.foldl hpetDelTimer s) j = true ↔ j ∉ l ∧ pending s j = true) ∧
      ∀ r, lineLevel (l.foldl hpetDelTimer s) r = 1 ↔ lineLevel s r = 1 ∧
        ∀ i ∈ l, timerFsbRoute (s.timer i) = false → irqRoute s (s.timer i) ≠ r := by
  induction l generalizing s with
  | nil => simp
  | cons i l ih =>
    obtain ⟨hpending, hlevel⟩ := hpetDelTimer_spec h i
    obtain ⟨hpending', hlevel'⟩ := ih (h.hpetDelTimer i)
    have hroute : ∀ t, irqRoute (hpetDelTimer s i) t = irqRoute s t := fun t ↦ by
      rw [irqRoute, irqRoute, hpetInLegacyMode, hpetInLegacyMode, hpetDelTimer_config]
    refine ⟨fun j ↦ ?_, fun r ↦ ?_⟩
    · rw [List.foldl_cons, hpending', hpending, List.mem_cons, not_or]
      split <;> simp [*]
    · rw [List.foldl_cons, hlevel', hlevel]
      simp only [hpetDelTimer_timer, hroute, List.mem_cons, forall_eq_or_imp]
      split <;> simp_all

theorem ownedBut_switched (h : Consistent s) {value : BitVec 64}
    (hs : (board (configured s value)).OwnedBut p) (now : BitVec 64) :
    (board (switched s now value)).OwnedBut p := by
  have hc := h.configured value
  cases hoff : deactivatingBit s.config value hpetCfgEnable with
  | false =>
    rw [(sameLines_switched hoff now).board]
    exact hs
  | true =>
    obtain ⟨t, hsame, -, hswitched⟩ := switched_of_deactivating h hoff now
    rw [hswitched]
    exact ownedBut_foldl_hpetDelTimer (hsame.consistent hc) (hsame.board ▸ hs) _

theorem board_lowerLegacy (s : HPETState) : board (lowerLegacy s) = (board s).lower LegacyLine := by
  refine Board.ext (funext fun r ↦ ?_) rfl rfl
  change decide (lineLevel (lowerLegacy s) r = 1) =
    (decide (lineLevel s r = 1) && !decide (LegacyLine r))
  rw [lowerLegacy, lineLevel_setIrqLevel, lineLevel_setIrqLevel]
  by_cases hr : LegacyLine r
  · rw [decide_eq_true hr, Bool.not_true, Bool.and_false]
    rcases hr with rfl | rfl <;> rfl
  · rw [decide_eq_false hr, Bool.not_false, Bool.and_true, if_neg fun h ↦ hr (.inr h.symm),
      if_neg fun h ↦ hr (.inl h.symm)]

/-- In legacy mode only timer 2 is routed to the other lines. -/
theorem irqRoute_eq_iff (h : Consistent s) (hlegacy : hpetInLegacyMode s = true)
    {r : ℕ} (hr : ¬LegacyLine r) (i : Fin hpetMaxTimers) :
    irqRoute s (s.timer i) = r ↔ i = 2 ∧ timerIntRoute (s.timer 2) = r := by
  rw [irqRoute, h.tn, hlegacy, Bool.and_true]
  obtain rfl | rfl | rfl : i = 0 ∨ i = 1 ∨ i = 2 := by
    fin_cases i <;> decide
  · simpa using fun h0 : 0 = r ↦ hr (.inl h0.symm)
  · simpa using fun h8 : rtcIsaIrq = r ↦ hr (.inr h8.symm)
  · simp

/-- **What entering legacy mode must not do**: leave a line high that timer 2 is not routed to, or
that timer 2 does not get round to lowering. -/
def LegacyLeavesNoLine (s : HPETState) (value : BitVec 64) : Prop :=
  activatingBit s.config value hpetCfgLegacy = true → ∀ r, r ≠ 0 → r ≠ rtcIsaIrq →
    lineLevel s r = 1 → timerIntRoute (s.timer 2) = r ∧
      if deactivatingBit s.config value hpetCfgEnable then timerFsbRoute (s.timer 2) = false
      else pending s 2 = true

theorem irqRoute_two (h : Consistent s) : irqRoute s (s.timer 2) = timerIntRoute (s.timer 2) := by
  rw [irqRoute, h.tn]
  rfl

/-- Leaving legacy mode: the other lines were timer 2's, and it keeps them. -/
theorem ownedBut_of_leaving (h : Consistent s) (ho : (board s).Owned)
    (hlegacy : hpetInLegacyMode s = true) (value : BitVec 64) :
    (board (configured s value)).OwnedBut LegacyLine := by
  intro r hr hlevel
  obtain ⟨i, hi, hroute⟩ := ho r hlevel
  obtain ⟨rfl, hint⟩ := (irqRoute_eq_iff h hlegacy hr i).mp hroute
  exact ⟨2, hi, (irqRoute_two (h.configured value)).trans hint⟩

/-- Entering legacy mode: what is left for timer 2. -/
theorem ownedBut_switched_iff (h : Consistent s) {value : BitVec 64}
    (hact : activatingBit s.config value hpetCfgLegacy = true) (now : BitVec 64) :
    (board (switched s now value)).OwnedBut LegacyLine ↔ LegacyLeavesNoLine s value := by
  have hvalue : hpetInLegacyMode (configured s value) = true :=
    (hpetInLegacyMode_configured s value).trans (Bool.and_eq_true_iff.mp hact).2
  have hroute := fun {r} hr ↦ irqRoute_eq_iff (h.configured value) hvalue (r := r) hr
  rw [LegacyLeavesNoLine, forall_prop_of_true hact]
  refine forall_congr' fun r ↦ ?_
  by_cases hr : LegacyLine r
  · rcases hr with rfl | rfl
    · exact iff_of_true (fun hnot ↦ absurd (.inl rfl) hnot) fun hne ↦ absurd rfl hne
    · exact iff_of_true (fun hnot ↦ absurd (.inr rfl) hnot) fun _ hne ↦ absurd rfl hne
  · rw [forall_prop_of_true hr, forall_prop_of_true fun h0 ↦ hr (.inl h0),
      forall_prop_of_true fun h8 ↦ hr (.inr h8)]
    cases hoff : deactivatingBit s.config value hpetCfgEnable with
    | false =>
      rw [(sameLines_switched hoff now).board]
      refine imp_congr decide_eq_true_iff ⟨?_, ?_⟩
      · rintro ⟨i, hi, hi'⟩
        obtain ⟨rfl, hint⟩ := (hroute hr i).mp hi'
        exact ⟨hint, hi⟩
      · rintro ⟨hint, hi⟩
        exact ⟨2, hi, (hroute hr 2).mpr ⟨rfl, hint⟩⟩
    | true =>
      obtain ⟨t, hsame, -, hswitched⟩ := switched_of_deactivating h hoff now
      obtain ⟨hpending, hlevel⟩ :=
        foldl_hpetDelTimer_spec (hsame.consistent (h.configured value))
          (List.finRange hpetMaxTimers)
      have hlow : lineLevel t r = lineLevel s r := congrFun hsame.level r
      have htroute : ∀ i, irqRoute t (t.timer i) = r ↔ i = 2 ∧ timerIntRoute (s.timer 2) = r := by
        intro i
        have hi : (board t).route i = (board (configured s value)).route i := by rw [hsame.board]
        exact (Eq.congr_left hi).trans (hroute hr i)
      rw [hswitched]
      refine ⟨fun howned hhigh ↦ ?_, fun hfree hhigh ↦ ?_⟩
      · -- nobody is pending any more, so the line has been lowered, and by timer 2
        by_contra hnot
        have hhigh' : lineLevel ((List.finRange hpetMaxTimers).foldl hpetDelTimer t) r = 1 := by
          refine (hlevel r).mpr ⟨hlow.trans hhigh, fun i _ hf hi ↦ hnot ?_⟩
          obtain ⟨rfl, hint⟩ := (htroute i).mp hi
          exact ⟨hint, (hsame.fsbRoute 2).symm.trans hf⟩
        obtain ⟨j, hj, -⟩ := howned (decide_eq_true hhigh')
        exact ((hpending j).mp hj).1 (List.mem_finRange j)
      · obtain ⟨hhigh, hleft⟩ := (hlevel r).mp (of_decide_eq_true hhigh)
        obtain ⟨hint, hf⟩ := hfree (hlow.symm.trans hhigh)
        exact absurd ((htroute 2).mpr ⟨rfl, hint⟩)
          (hleft 2 (List.mem_finRange 2) ((hsame.fsbRoute 2).trans hf))

/-- **A new general configuration keeps the lines owned** exactly if entering legacy mode leaves
none behind. -/
theorem writeCfg_owned_iff (h : Consistent s) (ho : (board s).Owned) (now value : BitVec 64) :
    (board (writeCfg s now s.config value)).Owned ↔ LegacyLeavesNoLine s value := by
  rw [writeCfg_eq h]
  cases hact : activatingBit s.config value hpetCfgLegacy with
  | true =>
    rw [Bool.true_or, if_pos rfl, board_lowerLegacy, Board.owned_lower_iff]
    exact ownedBut_switched_iff h hact now
  | false =>
    refine iff_of_true ?_ fun hact' ↦ absurd (hact'.symm.trans hact) (by decide)
    cases hleave : deactivatingBit s.config value hpetCfgLegacy with
    | true =>
      have hlegacy : hpetInLegacyMode s = true := (Bool.and_eq_true_iff.mp hleave).1
      rw [Bool.or_true, if_pos rfl, board_lowerLegacy]
      exact Board.owned_lower_iff.mpr
        (ownedBut_switched h (ownedBut_of_leaving h ho hlegacy value) now)
    | false =>
      have hsame : SameLines s (configured s value) := { SameLines.refl s with
        legacy := by
          rw [hpetInLegacyMode_configured, hpetInLegacyMode]
          rw [activatingBit] at hact
          rw [deactivatingBit] at hleave
          revert hact hleave
          cases anyBit s.config hpetCfgLegacy <;> cases anyBit value hpetCfgLegacy <;> simp }
      refine Board.ownedBut_false_iff.mp (ownedBut_switched h ?_ now)
      rw [hsame.board]
      exact ho.but _

end

/-! ## Runs -/

/-- **What an event must not do**: leave a line high behind it. -/
def KeepsOwners (s : HPETState) : Label → Prop
  | .write offset value _ =>
    (inTimerRange offset = true → timerReg offset = 0x000 →
      ∀ i : Fin hpetMaxTimers, selectTimer s offset = some i.val → LeavesNoLine s i value) ∧
    (offset = 0x010 → LegacyLeavesNoLine s value)
  | _ => True

theorem writeGeneralReg_owned_iff {s : HPETState} (h : Consistent s) (ho : LinesOwned s)
    (now value : BitVec 64) (offset : ℕ) :
    LinesOwned (writeGeneralReg s now (readGeneralReg s now offset) value offset) ↔
      (offset = 0x010 → LegacyLeavesNoLine s value) := by
  have hboard := (board_owned_iff s).mpr ho
  rw [writeGeneralReg.eq_def]
  split
  · rw [forall_prop_of_true rfl, ← board_owned_iff]
    exact writeCfg_owned_iff h hboard now value
  · refine iff_of_true ?_ fun hne ↦ absurd hne (by decide)
    exact (board_owned_iff _).mp (Board.ownedBut_false_iff.mp
      (ownedBut_writeStatus h (hboard.but fun _ ↦ False) value))
  · exact iff_of_true (SameLines.linesOwned { SameLines.refl s with } ho) fun hne ↦
      absurd hne (by decide)
  · exact iff_of_true (SameLines.linesOwned { SameLines.refl s with } ho) fun hne ↦
      absurd hne (by decide)
  · rename_i hcfg _ _ _
    exact iff_of_true ho fun hoff ↦ absurd hoff hcfg

theorem writeTimerReg_owned_iff {s : HPETState} (h : Consistent s) (ho : LinesOwned s)
    (now value : BitVec 64) (i : Fin hpetMaxTimers) (reg : ℕ) :
    LinesOwned (writeTimerReg s now i (readTimerReg (s.timer i) reg) value reg) ↔
      (reg = 0x000 → LeavesNoLine s i value) := by
  by_cases hreg : reg = 0
  · subst hreg
    rw [forall_prop_of_true rfl, ← board_owned_iff]
    exact writeTimerCfg_owned_iff h ((board_owned_iff s).mpr ho) i now value
  · exact iff_of_true ((sameLines_writeTimerReg s now i _ value hreg).linesOwned ho) fun h0 ↦
      absurd h0 hreg

/-- **One event** keeps the lines owned exactly if it leaves none behind. -/
theorem step_owned_iff {s s' : HPETState} {a : Label} (h : Consistent s) (ho : LinesOwned s)
    (hs : Step s a s') : KeepsOwners s a ↔ LinesOwned s' := by
  cases hs with
  | read => exact iff_of_true trivial ho
  | @write _ offset value now _ hw =>
    rw [KeepsOwners]
    rcases vmHpetMmioWrite_cases hw with ⟨hw', hr, hnone⟩ | ⟨i, hr, hsel, hw'⟩ | ⟨hr, hw'⟩
    · rw [hw']
      refine iff_of_true ⟨fun _ hreg i hsel ↦ ?_, ?_⟩ ho
      · rcases hnone with hnone | hnone
        · exact absurd (hnone.symm.trans hsel) (by simp)
        · rw [hreg] at hnone
          exact absurd hnone (by decide)
      · rintro rfl
        exact absurd hr (by decide)
    · rw [hw', writeTimerReg_owned_iff h ho]
      refine ⟨fun hkeeps hreg ↦ hkeeps.1 hr hreg i hsel, fun hleft ↦ ⟨fun _ hreg j hj ↦ ?_, ?_⟩⟩
      · have hij : i = j := Fin.ext (Option.some_inj.mp (hsel.symm.trans hj))
        exact hij ▸ hleft hreg
      · rintro rfl
        exact absurd hr (by decide)
    · rw [hw', writeGeneralReg_owned_iff h ho]
      refine and_iff_right fun hr' ↦ ?_
      exact absurd (hr'.symm.trans hr) (by decide)
  | expire he =>
    obtain ⟨t, hsame, -, rfl⟩ := hpetTimer_eq_updateIrq he
    have ht := (board_owned_iff t).mpr (hsame.linesOwned ho)
    refine iff_of_true trivial ((board_owned_iff _).mp ?_)
    exact Board.ownedBut_false_iff.mp
      (ownedBut_updateIrq (hsame.consistent h) _ true (ht.but _))

/-- Resetting a timer lowers its line before the route is reset. -/
theorem owned_hpetResetTimer {s : HPETState} (h : Consistent s) (ho : (board s).Owned)
    (i : Fin hpetMaxTimers) : (board (hpetResetTimer s i)).Owned := by
  have hodel := Board.ownedBut_false_iff.mp (ownedBut_hpetDelTimer h (ho.but _) i)
  have hpending : pending (hpetDelTimer s i) i = false := by
    rw [(hpetDelTimer_spec h i).1, if_pos rfl]
  rw [hpetResetTimer, board_setTimer]
  exact (Board.owned_move_iff hodel i _).mpr fun hp ↦ absurd (hp.symm.trans hpending) (by decide)

theorem linesOwned_hpetPreInit (hpetIdBase : ℕ) : LinesOwned (hpetPreInit hpetIdBase) := by
  have h := consistent_hpetRealize hpetIdBase
  have hloop : Consistent (forTimers (hpetRealize zeroState hpetIdBase) hpetResetTimer) ∧
      (board (forTimers (hpetRealize zeroState hpetIdBase) hpetResetTimer)).Owned := by
    refine forTimers_induct (P := fun s ↦ Consistent s ∧ (board s).Owned) ?_ ⟨h, fun r hr ↦ ?_⟩
    · rintro s i ⟨h, ho⟩
      exact ⟨h.hpetResetTimer i, owned_hpetResetTimer h ho i⟩
    · exact absurd (of_decide_eq_true hr : (0 : ℕ) = 1) (by decide)
  exact (sameLines_hpetReset h rfl).linesOwned ((board_owned_iff _).mp hloop.2)

/-- **Interrupt lines have owners** in every state of a run exactly if none of its events leaves a
line behind: no pending timer is given another route while it alone can lower its line, unless that
line is lowered first because the FSB takes over; and legacy mode is not entered while a line other
than 0 and 8 is high that timer 2 does not go on to own, or to lower. -/
theorem run_linesOwned_iff (hpetIdBase : ℕ) (as : List Label) (s : HPETState) :
    Run (Guarded KeepsOwners Step) (hpetPreInit hpetIdBase) as s ↔
      Run (Guarded (fun s _ ↦ LinesOwned s) Step) (hpetPreInit hpetIdBase) as s ∧
        LinesOwned s :=
  Run.guarded_iff_of_invariant (linesOwned_hpetPreInit hpetIdBase)
    (consistent_hpetPreInit hpetIdBase) (fun _ _ _ h _ hs ↦ h.step hs)
    (fun _ _ _ h ho hs ↦ step_owned_iff h ho hs)

/-- Timer 0 is put into level mode on line 5 and expires; then it is routed to line 6.  Line 5 stays
high. -/
theorem not_linesOwned_rerouted :
    ¬ ∀ hpetIdBase as s, Run Step (hpetPreInit hpetIdBase) as s → LinesOwned s := by
  intro h
  let s₁ := writeCfg (hpetPreInit 9) 0 0 1
  let s₂ := writeTimerReg s₁ 0 0 (s₁.timer 0).config 0xa06 0x000
  let s₃ := updateIrq s₂ 0 true
  let s₄ := writeTimerReg s₃ 0 0 (s₃.timer 0).config 0xc06 0x000
  have h₁ : vmHpetMmioWrite (hpetPreInit 9) 0 0x010 1 = some s₁ := rfl
  have h₂ : vmHpetMmioWrite s₁ 0 0x100 0xa06 = some s₂ := rfl
  have h₃ : hpetTimer 0 s₂ 0 0 = some s₃ := by decide
  have h₄ : vmHpetMmioWrite s₃ 0 0x100 0xc06 = some s₄ := rfl
  have hrun : Run Step (hpetPreInit 9)
      [.write 0x010 1 0, .write 0x100 0xa06 0, .expire 0 0, .write 0x100 0xc06 0] s₄ :=
    .cons (.write (by decide) h₁) <| .cons (.write (by decide) h₂) <| .cons (.expire h₃) <|
      .cons (.write (by decide) h₄) .nil
  obtain ⟨i, hi, hroute⟩ := h 9 _ s₄ hrun 5 (by decide)
  revert i
  decide

end Hpet
end CamkesVm
