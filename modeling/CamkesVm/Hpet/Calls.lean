import CamkesVm.Hpet.Lines

/-!
# On whose behalf the HPET sets a line

All the HPET does to the interrupt lines it does in `update_irq`, for one timer, or where legacy
mode begins and ends.  `irqCalls` lists for each event the timers that `update_irq` is called for
and the lines it sets for them; for a timer that is routed to the FSB it sets none.  The list is
worked out from the registers, and `sets_irqCalls` says that it is right.

## What is here

* `irqCall`, `cfgCalls`, `irqCalls` — the table, by the kind of event; it looks at the registers
  before the event only.
* `SetsFor` — a call sets exactly the lines of these timers. It composes, so each function of the
  device gets one lemma, in the order of its body, and loops over the timers are concatenations
  (`setsFor_foldl`).
* `sets_irqCalls` — the table is right, for every event.
* `OwnLinesOnly`, `timerTwoApart_iff` — an application: what must not happen to timer 2 if lines 0
  and 8 are to be set for timers 0 and 1 alone in legacy mode.
-/

set_option autoImplicit false

namespace CamkesVm
namespace Hpet

open EffectLog

/-- The line an effect sets, if it sets one. -/
def Effect.line : Effect → Option ℕ
  | .setIrqLevel route _ => some route
  | _ => none

/-- A call of `update_irq` for timer `i`: the timer and the line that is set. -/
def irqCall (s : HPETState) (i : Fin hpetMaxTimers) : List (Fin hpetMaxTimers × ℕ) :=
  if timerFsbRoute (s.timer i) then [] else [(i, irqRoute s (s.timer i))]

/-- The calls of `update_irq` in a write to the configuration of timer `i`. -/
def cfgCalls (s : HPETState) (i : Fin hpetMaxTimers) (value : BitVec 64) :
    List (Fin hpetMaxTimers × ℕ) :=
  (if activatingBit (s.timer i).config value hpetTnFsbEnable then irqCall s i else []) ++
    if deactivatingBit (s.timer i).config value hpetTnEnable then irqCall (afterCfg s i value) i
    else []

/-- The calls of `update_irq` in an event. -/
def irqCalls (s : HPETState) : Label → List (Fin hpetMaxTimers × ℕ)
  | .read _ _ => []
  | .write offset value _ =>
    if inTimerRange offset then
      match (selectTimer s offset).bind timerIndex with
      | none => []
      | some i => if timerReg offset = 0x000 then cfgCalls s i value else []
    else if offset = 0x010 then
      if deactivatingBit s.config value hpetCfgEnable
      then (List.finRange hpetMaxTimers).flatMap (irqCall (configured s value)) else []
    else if offset = 0x020 then
      (List.finRange hpetMaxTimers).flatMap fun i : Fin hpetMaxTimers ↦
        if (value &&& s.isr).getLsbD i then irqCall s i else []
    else []
  | .expire i _ => irqCall s i

/-- Legacy mode, while `update_irq` is called. -/
def legacyDuring (s : HPETState) : Label → Bool
  | .write offset value _ =>
    if offset = 0x010 then anyBit value hpetCfgLegacy else hpetInLegacyMode s
  | _ => hpetInLegacyMode s

/-! ## The calls -/

/-- A call sets the lines of these timers. -/
def SetsFor (calls : List (Fin hpetMaxTimers × ℕ)) (s t : HPETState) : Prop :=
  Sets Effect.line s.log t.log fun r ↦ ∃ i, (i, r) ∈ calls

namespace SetsFor

variable {l l' : List (Fin hpetMaxTimers × ℕ)} {s t u : HPETState}

theorem refl (s : HPETState) : SetsFor [] s s :=
  (Sets.refl _).congr fun _ ↦ iff_of_false id fun ⟨_, hi⟩ ↦ List.not_mem_nil hi

theorem trans (h : SetsFor l s t) (h' : SetsFor l' t u) : SetsFor (l ++ l') s u :=
  (Sets.trans h h').congr fun r ↦ by simp only [List.mem_append, exists_or]

theorem emit (h : SetsFor l s t) {e : Effect} (he : e.line = none) : SetsFor l s (t.emit e) :=
  Sets.concat_of_none h he

theorem of_log (h : SetsFor l s t) (hlog : u.log = t.log) : SetsFor l s u := by
  rw [SetsFor, hlog]
  exact h

end SetsFor

section

variable (s : HPETState) (i : Fin hpetMaxTimers)

theorem setsFor_updateIrq (set : Bool) : SetsFor (irqCall s i) s (updateIrq s i set) := by
  cases hfsb : timerFsbRoute (s.timer i) with
  | true =>
    rw [irqCall, if_pos hfsb]
    simp only [updateIrq, hfsb, if_true]
    split
    · exact (SetsFor.refl s).of_log rfl
    · exact .refl s
  | false =>
    have hcall : ∀ level, SetsFor (irqCall s i) s
        (s.emit (.setIrqLevel (irqRoute s (s.timer i)) level)) := by
      intro level
      refine (Sets.concat s.log (Effect.setIrqLevel (irqRoute s (s.timer i)) level)).congr
        fun r ↦ ?_
      simp [irqCall, hfsb, Effect.line, eq_comm]
    simp only [updateIrq, hfsb, Bool.false_eq_true, if_false]
    split
    · exact (hcall 0).of_log rfl
    · split
      · exact (hcall 1).of_log rfl
      · refine Sets.congr (Sets.trans (hcall 1) (Sets.concat _ (Effect.setIrqLevel
          (irqRoute s (s.timer i)) 0))) fun r ↦ ?_
        simp [irqCall, hfsb, Effect.line, eq_comm]

theorem setsFor_hpetSetTimer (now : BitVec 64) : SetsFor [] s (hpetSetTimer s i now) := by
  simp only [hpetSetTimer]
  split
  · exact ((SetsFor.refl s).of_log rfl).emit rfl
  · exact ((SetsFor.refl s).of_log rfl).emit rfl

theorem setsFor_hpetDelTimer : SetsFor (irqCall s i) s (hpetDelTimer s i) :=
  ((SetsFor.refl s).emit rfl).trans (setsFor_updateIrq _ i false)

end

section

variable {s s' : HPETState}

theorem SameLines.irqCall (h : SameLines s s') (i : Fin hpetMaxTimers) :
    irqCall s' i = irqCall s i := by
  rw [Hpet.irqCall, Hpet.irqCall, h.fsbRoute, h.irqRoute]

/-! ## The events -/

theorem setsFor_hpetTimer {fuel : ℕ} {i : Fin hpetMaxTimers} {now : BitVec 64}
    (h : hpetTimer fuel s i now = some s') : SetsFor (irqCall s i) s s' := by
  obtain ⟨t, hsame, hlog, rfl⟩ := hpetTimer_eq_updateIrq h
  have harm : SetsFor [] s t := by
    rcases hlog with hlog | ⟨tid, ns, hlog⟩
    · exact (SetsFor.refl s).of_log hlog
    · exact ((SetsFor.refl s).emit (e := .oneshot tid ns) rfl).of_log hlog
  rw [← hsame.irqCall]
  exact harm.trans (setsFor_updateIrq t i true)

theorem setsFor_storeCmp (s : HPETState) (now : BitVec 64) (i : Fin hpetMaxTimers)
    (t : HPETTimer) : SetsFor [] s (storeCmp s now i t) := by
  have hset : SetsFor [] s (s.setTimer i t) := (SetsFor.refl s).of_log rfl
  rw [storeCmp]
  split
  · exact hset.trans (setsFor_hpetSetTimer _ i now)
  · exact hset

theorem setsFor_writeTimerCfg (s : HPETState) (now : BitVec 64) (i : Fin hpetMaxTimers)
    (value : BitVec 64) : SetsFor (cfgCalls s i value) s
      (writeTimerCfg s now i (s.timer i).config value) := by
  have hbefore : SetsFor (if activatingBit (s.timer i).config value hpetTnFsbEnable
      then irqCall s i else []) s (afterCfg s i value) := by
    refine SetsFor.of_log (t := beforeCfg s i value) ?_ rfl
    rw [beforeCfg]
    split
    · exact setsFor_updateIrq s i false
    · exact .refl s
  rw [writeTimerCfg_eq]
  split
  next hact =>
    have hnot : deactivatingBit (s.timer i).config value hpetTnEnable = false := by
      rw [Bool.and_eq_true_iff, activatingBit, Bool.and_eq_true_iff, Bool.not_eq_true'] at hact
      rw [deactivatingBit, hact.1.1, Bool.false_and]
    rw [cfgCalls, hnot]
    exact hbefore.trans (setsFor_hpetSetTimer _ i now)
  next =>
    refine hbefore.trans ?_
    split
    · exact setsFor_hpetDelTimer _ i
    · exact .refl _

/-- A loop over timers, whose rounds leave the routes as they are. -/
theorem setsFor_foldl {f : HPETState → Fin hpetMaxTimers → HPETState}
    {calls : Fin hpetMaxTimers → List (Fin hpetMaxTimers × ℕ)}
    (hf : ∀ t i, irqCall t = irqCall s →
      irqCall (f t i) = irqCall s ∧ SetsFor (calls i) t (f t i))
    (l : List (Fin hpetMaxTimers)) : SetsFor (l.flatMap calls) s (l.foldl f s) := by
  have hloop : ∀ t, irqCall t = irqCall s → SetsFor (l.flatMap calls) t (l.foldl f t) := by
    induction l with
    | nil => exact fun t _ ↦ .refl t
    | cons i l ih =>
      intro t ht
      obtain ⟨hcall, hround⟩ := hf t i ht
      exact hround.trans (ih (f t i) hcall)
  exact hloop s rfl

theorem irqCall_updateIrq (s : HPETState) (i : Fin hpetMaxTimers) (set : Bool) :
    irqCall (updateIrq s i set) = irqCall s := by
  funext j
  rw [irqCall, irqCall, updateIrq_timer, irqRoute, irqRoute, hpetInLegacyMode, hpetInLegacyMode,
    updateIrq_config]

theorem setsFor_writeStatus (h : Consistent s) (value : BitVec 64) :
    SetsFor ((List.finRange hpetMaxTimers).flatMap fun i : Fin hpetMaxTimers ↦
      if (value &&& s.isr).getLsbD i then irqCall s i else []) s (writeStatus s value) := by
  rw [writeStatus, forTimers_eq_foldl h.numTimers]
  refine setsFor_foldl (fun t i ht ↦ ?_) _
  split
  · exact ⟨(irqCall_updateIrq t i false).trans ht, ht ▸ setsFor_updateIrq t i false⟩
  · exact ⟨ht, .refl t⟩

/-- Legacy mode begins or ends. -/
def switchesLegacy (s : HPETState) (a : Label) : Prop := legacyDuring s a ≠ hpetInLegacyMode s

theorem setsFor_switched (h : Consistent s) (now value : BitVec 64) :
    SetsFor (if deactivatingBit s.config value hpetCfgEnable
      then (List.finRange hpetMaxTimers).flatMap (irqCall (configured s value)) else [])
      s (switched s now value) := by
  have hconfigured : SetsFor [] s (configured s value) := (SetsFor.refl s).of_log rfl
  cases hoff : deactivatingBit s.config value hpetCfgEnable with
  | true =>
    obtain ⟨t, hsame, hlog, hswitched⟩ := switched_of_deactivating h hoff now
    have hcall : irqCall t = irqCall (configured s value) := funext hsame.irqCall
    rw [hswitched, if_pos rfl, ← hcall]
    refine SetsFor.trans (l := []) ((SetsFor.refl s).of_log hlog)
      (setsFor_foldl (fun u i hu ↦ ?_) _)
    have hstop : irqCall (u.emit (.stop (u.timer i).tid)) = irqCall u := rfl
    exact ⟨(irqCall_updateIrq _ i false).trans (hstop.trans hu), hu ▸ setsFor_hpetDelTimer u i⟩
  | false =>
    rw [if_neg Bool.false_ne_true]
    simp only [switched, hoff, Bool.false_eq_true, if_false]
    split
    · refine forTimers_induct (P := SetsFor [] s) (fun t i ht ↦ ?_) (hconfigured.of_log rfl)
      split
      · exact ht.trans (setsFor_hpetSetTimer t i now)
      · exact ht
    · exact hconfigured

theorem sets_lowerLegacy (s : HPETState) :
    Sets Effect.line s.log (lowerLegacy s).log LegacyLine := by
  refine ((Sets.concat s.log (Effect.setIrqLevel 0 0)).trans
    (Sets.concat _ (Effect.setIrqLevel rtcIsaIrq 0))).congr fun r ↦ ?_
  simp [Effect.line, LegacyLine, eq_comm]

theorem switchesLegacy_iff (s : HPETState) (value now : BitVec 64) :
    switchesLegacy s (.write 0x010 value now) ↔
      (activatingBit s.config value hpetCfgLegacy ||
        deactivatingBit s.config value hpetCfgLegacy) = true := by
  rw [switchesLegacy, legacyDuring, if_pos rfl, hpetInLegacyMode, activatingBit, deactivatingBit]
  cases anyBit s.config hpetCfgLegacy <;> cases anyBit value hpetCfgLegacy <;> decide

theorem setsFor_writeTimerReg (s : HPETState) (now value : BitVec 64) (i : Fin hpetMaxTimers)
    (reg : ℕ) : SetsFor (if reg = 0x000 then cfgCalls s i value else []) s
      (writeTimerReg s now i (readTimerReg (s.timer i) reg) value reg) := by
  by_cases hreg : reg = 0x000
  · subst hreg
    exact setsFor_writeTimerCfg s now i value
  · rw [if_neg hreg, writeTimerReg.eq_def]
    split
    · exact absurd rfl hreg
    · exact setsFor_storeCmp s now i _
    · exact setsFor_storeCmp s now i _
    · exact (SetsFor.refl s).of_log rfl
    · exact (SetsFor.refl s).of_log rfl
    · exact .refl s

/-- Only a write to the general configuration begins or ends legacy mode. -/
theorem switchesLegacy_offset {s : HPETState} {offset : ℕ} {value now : BitVec 64}
    (h : switchesLegacy s (.write offset value now)) : offset = 0x010 := by
  by_contra hne
  rw [switchesLegacy, legacyDuring, if_neg hne] at h
  exact h rfl

theorem irqCalls_timer {s : HPETState} {offset : ℕ} (value now : BitVec 64)
    (hr : inTimerRange offset = true) {i : Fin hpetMaxTimers}
    (hsel : selectTimer s offset = some i.val) :
    irqCalls s (.write offset value now) =
      if timerReg offset = 0x000 then cfgCalls s i value else [] := by
  have hindex : timerIndex i.val = some i := dif_pos i.isLt
  rw [irqCalls, if_pos hr, hsel, Option.bind_some, hindex]

theorem irqCalls_none {s : HPETState} {offset : ℕ} (value now : BitVec 64)
    (hr : inTimerRange offset = true)
    (hnone : selectTimer s offset = none ∨ isTimerReg (timerReg offset) = false) :
    irqCalls s (.write offset value now) = [] := by
  rw [irqCalls, if_pos hr]
  split
  · rfl
  · rename_i hsel
    refine if_neg fun hreg ↦ ?_
    rcases hnone with hnone | hnone
    · rw [hnone] at hsel
      exact absurd hsel nofun
    · rw [hreg] at hnone
      exact absurd hnone (by decide)

theorem sets_writeGeneralReg (h : Consistent s) {offset : ℕ} (hr : inTimerRange offset = false)
    (now value : BitVec 64) :
    Sets Effect.line s.log
      (writeGeneralReg s now (readGeneralReg s now offset) value offset).log fun r ↦
        (∃ i, (i, r) ∈ irqCalls s (.write offset value now)) ∨
          (switchesLegacy s (.write offset value now) ∧ LegacyLine r) := by
  have hrange : ¬(inTimerRange offset = true) := by
    rw [hr]
    exact Bool.false_ne_true
  have hother : ∀ l : List Effect, l = s.log → offset ≠ 0x010 → offset ≠ 0x020 →
      Sets Effect.line s.log l fun r ↦
        (∃ i, (i, r) ∈ irqCalls s (.write offset value now)) ∨
          (switchesLegacy s (.write offset value now) ∧ LegacyLine r) := by
    rintro l rfl hcfg hstatus
    refine (Sets.refl _).congr fun r ↦ iff_of_false id ?_
    rw [irqCalls, if_neg hrange, if_neg hcfg, if_neg hstatus]
    rintro (⟨i, hi⟩ | hboth)
    · exact List.not_mem_nil hi
    · exact hcfg (switchesLegacy_offset hboth.1)
  rw [writeGeneralReg.eq_def]
  split
  · -- the configuration
    rw [irqCalls, if_neg hrange, if_pos rfl, switchesLegacy_iff]
    have hswitched := setsFor_switched h now value
    change Sets _ _ (writeCfg s now s.config value).log _
    rw [writeCfg_eq h]
    split
    next hswitch =>
      refine (Sets.trans hswitched (sets_lowerLegacy _)).congr fun r ↦ ?_
      rw [and_iff_right hswitch]
    next hswitch => exact hswitched.congr fun r ↦ (or_iff_left fun hboth ↦ hswitch hboth.1).symm
  · rw [irqCalls, if_neg hrange, if_neg (by decide), if_pos rfl]
    exact (setsFor_writeStatus h value).congr fun r ↦
      (or_iff_left fun hboth ↦ absurd (switchesLegacy_offset hboth.1) (by decide)).symm
  · exact hother _ rfl (by decide) (by decide)
  · exact hother _ rfl (by decide) (by decide)
  · rename_i hcfg hstatus _ _
    exact hother _ rfl hcfg hstatus

/-- **The lines an event sets** are those of the calls of `update_irq`, and lines 0 and 8 where
legacy mode begins or ends. -/
theorem sets_irqCalls {a : Label} (h : Consistent s) (hs : Step s a s') :
    Sets Effect.line s.log s'.log fun r ↦
      (∃ i, (i, r) ∈ irqCalls s a) ∨ (switchesLegacy s a ∧ LegacyLine r) := by
  have hplain : ∀ {calls}, SetsFor calls s s' → irqCalls s a = calls → ¬switchesLegacy s a →
      Sets Effect.line s.log s'.log fun r ↦
        (∃ i, (i, r) ∈ irqCalls s a) ∨ (switchesLegacy s a ∧ LegacyLine r) := by
    rintro calls hsets rfl hswitch
    exact hsets.congr fun r ↦ (or_iff_left fun hboth ↦ hswitch hboth.1).symm
  have hrange : inTimerRange 0x010 = false := rfl
  cases hs with
  | read => exact hplain (.refl s) rfl (not_not_intro rfl)
  | expire he => exact hplain (setsFor_hpetTimer he) rfl (not_not_intro rfl)
  | @write _ offset value now _ hw =>
    have hswitch : inTimerRange offset = true → ¬switchesLegacy s (.write offset value now) := by
      intro hr hswitch
      rw [switchesLegacy_offset hswitch] at hr
      exact absurd hr (by decide)
    rcases vmHpetMmioWrite_cases hw with ⟨hw', hr, hnone⟩ | ⟨i, hr, hsel, hw'⟩ | ⟨hr, hw'⟩
    · refine hplain (hw' ▸ .refl s) (irqCalls_none value now hr hnone) (hswitch hr)
    · rw [hw'] at hplain ⊢
      exact hplain (setsFor_writeTimerReg s now value i _) (irqCalls_timer value now hr hsel)
        (hswitch hr)
    · rw [hw']
      exact sets_writeGeneralReg h hr now value

end

/-! ## Lines 0 and 8 -/

/-- A list of calls in which lines 0 and 8 are for timers 0 and 1. -/
def Apart (calls : List (Fin hpetMaxTimers × ℕ)) : Prop :=
  ∀ c ∈ calls, LegacyLine c.2 → c.1 = 0 ∨ c.1 = 1

/-- **In legacy mode lines 0 and 8 are for timers 0 and 1**: `update_irq` sets them for no other
timer in this event. -/
def OwnLinesOnly (s : HPETState) (a : Label) : Prop :=
  legacyDuring s a = true → Apart (irqCalls s a)

/-- A timer that its own registers route to line 0 or 8. -/
def OnLegacyLine (t : HPETTimer) : Prop := timerFsbRoute t = false ∧ LegacyLine (timerIntRoute t)

/-- **What becomes of timer 2 in legacy mode**: it does not expire, is not stopped, acknowledged or
routed to the FSB, while it is routed to line 0 or 8. -/
def TimerTwoApart (s : HPETState) : Label → Prop
  | .read _ _ => True
  | .expire i _ => hpetInLegacyMode s = true → i = 2 → ¬OnLegacyLine (s.timer 2)
  | .write offset value _ =>
    (hpetInLegacyMode s = true → inTimerRange offset = true → timerReg offset = 0x000 →
      selectTimer s offset = some 2 →
      (activatingBit (s.timer 2).config value hpetTnFsbEnable = true →
        ¬OnLegacyLine (s.timer 2)) ∧
      (deactivatingBit (s.timer 2).config value hpetTnEnable = true →
        ¬OnLegacyLine (writeCfgRegs (s.timer 2) (s.timer 2).config value))) ∧
    (offset = 0x010 → anyBit value hpetCfgLegacy = true →
      deactivatingBit s.config value hpetCfgEnable = true → ¬OnLegacyLine (s.timer 2)) ∧
    (hpetInLegacyMode s = true → offset = 0x020 → value.getLsbD 2 = true → pending s 2 = true →
      ¬OnLegacyLine (s.timer 2))

section

variable {s : HPETState}

theorem apart_append {l l' : List (Fin hpetMaxTimers × ℕ)} :
    Apart (l ++ l') ↔ Apart l ∧ Apart l' := by
  simp only [Apart, List.mem_append, or_imp, forall_and]

theorem apart_ite {b : Bool} {l : List (Fin hpetMaxTimers × ℕ)} :
    Apart (if b then l else []) ↔ (b = true → Apart l) := by
  cases b <;> simp [Apart]

theorem apart_flatMap {l : List (Fin hpetMaxTimers)}
    {f : Fin hpetMaxTimers → List (Fin hpetMaxTimers × ℕ)} :
    Apart (l.flatMap f) ↔ ∀ i ∈ l, Apart (f i) := by
  simp only [Apart, List.mem_flatMap]
  exact ⟨fun h i hi c hc ↦ h c ⟨i, hi, hc⟩, fun h c ⟨i, hi, hc⟩ ↦ h i hi c hc⟩

/-- A call is for timer 0 or 1, or for timer 2 on the line of its own registers. -/
theorem apart_irqCall_iff (h : Consistent s) (i : Fin hpetMaxTimers) :
    Apart (irqCall s i) ↔ (i = 2 → ¬OnLegacyLine (s.timer 2)) := by
  match i with
  | 0 =>
    rw [irqCall, Apart]
    split <;> simp
  | 1 =>
    rw [irqCall, Apart]
    split <;> simp
  | 2 =>
    have hroute : irqRoute s (s.timer 2) = timerIntRoute (s.timer 2) := by
      rw [irqRoute, h.tn]
      rfl
    rw [irqCall, Apart, OnLegacyLine, hroute]
    cases timerFsbRoute (s.timer 2) <;> simp

theorem apart_cfgCalls_iff (h : Consistent s) (i : Fin hpetMaxTimers) (value : BitVec 64) :
    Apart (cfgCalls s i value) ↔ (i = 2 →
      (activatingBit (s.timer 2).config value hpetTnFsbEnable = true →
        ¬OnLegacyLine (s.timer 2)) ∧
      (deactivatingBit (s.timer 2).config value hpetTnEnable = true →
        ¬OnLegacyLine (writeCfgRegs (s.timer 2) (s.timer 2).config value))) := by
  rw [cfgCalls, apart_append, apart_ite, apart_ite, apart_irqCall_iff h,
    apart_irqCall_iff (h.afterCfg i value)]
  by_cases hi : i = 2
  · subst hi
    have hregs : (afterCfg s 2 value).timer 2 =
        writeCfgRegs (s.timer 2) (s.timer 2).config value := by
      rw [afterCfg, setTimer_timer, Function.update_self]
    rw [hregs]
    simp only [true_imp_iff]
  · simp [hi]

theorem apart_nil : Apart [] := fun _ hc ↦ absurd hc List.not_mem_nil

/-- The accesses to timer registers. -/
theorem timerTwoApart_timer_iff (h : Consistent s) {offset : ℕ} (hr : inTimerRange offset = true)
    (value now : BitVec 64) :
    TimerTwoApart s (.write offset value now) ↔ OwnLinesOnly s (.write offset value now) := by
  have hcfg : offset ≠ 0x010 := by
    rintro rfl
    exact absurd hr (by decide)
  have hstatus : offset ≠ 0x020 := by
    rintro rfl
    exact absurd hr (by decide)
  simp only [TimerTwoApart, OwnLinesOnly, legacyDuring, irqCalls, hr, hcfg, hstatus, if_true,
    if_false, false_imp_iff, imp_true_iff, true_imp_iff, and_true]
  refine forall_congr' fun _ ↦ ?_
  cases hsel : selectTimer s offset with
  | none => exact iff_of_true (fun _ hno ↦ absurd hno nofun) apart_nil
  | some k =>
    rw [Option.bind_some, timerIndex]
    by_cases hk : k < hpetMaxTimers
    · rw [dif_pos hk]
      by_cases hreg : timerReg offset = 0x000
      · simp only [if_pos hreg, apart_cfgCalls_iff h, forall_prop_of_true hreg]
        refine imp_congr_left ?_
        rw [Option.some_inj, Fin.ext_iff]
        rfl
      · simp only [if_neg hreg]
        exact iff_of_true (fun hreg' ↦ absurd hreg' hreg) apart_nil
    · rw [dif_neg hk]
      refine iff_of_true (fun _ hk2 ↦ ?_) apart_nil
      exact absurd (Option.some_inj.mp hk2 ▸ hk) (by decide)

/-- The accesses to general registers. -/
theorem timerTwoApart_general_iff (h : Consistent s) {offset : ℕ}
    (hr : inTimerRange offset = false) (value now : BitVec 64) :
    TimerTwoApart s (.write offset value now) ↔ OwnLinesOnly s (.write offset value now) := by
  simp only [TimerTwoApart, OwnLinesOnly, legacyDuring, irqCalls, hr, Bool.false_eq_true, if_false,
    false_imp_iff, imp_true_iff, true_and]
  by_cases hcfg : offset = 0x010
  · subst hcfg
    simp only [if_true, apart_ite, apart_flatMap, apart_irqCall_iff (h.configured value)]
    refine ⟨fun hapart hvalue hoff i _ _ ↦ hapart.1 trivial hvalue hoff,
      fun hapart ↦ ⟨fun _ hvalue hoff ↦ hapart hvalue hoff 2 (List.mem_finRange 2) rfl,
        fun _ hne ↦ absurd hne (by decide)⟩⟩
  · by_cases hstatus : offset = 0x020
    · subst hstatus
      simp only [if_true, if_neg hcfg, apart_flatMap, apart_ite, apart_irqCall_iff h]
      refine ⟨fun hapart hlegacy i _ hbit hi ↦ ?_, fun hapart ↦
        ⟨fun hne ↦ absurd hne (by decide), fun hlegacy _ hvalue hpending ↦ ?_⟩⟩
      · subst hi
        rw [BitVec.getLsbD_and, Bool.and_eq_true_iff] at hbit
        exact hapart.2 hlegacy trivial hbit.1 hbit.2
      · refine hapart hlegacy 2 (List.mem_finRange 2) ?_ rfl
        rw [BitVec.getLsbD_and, Bool.and_eq_true_iff]
        exact ⟨hvalue, hpending⟩
    · simp [hcfg, hstatus, apart_nil]

/-- **Exactly then** lines 0 and 8 are set for timers 0 and 1 only. -/
theorem timerTwoApart_iff (h : Consistent s) (a : Label) :
    TimerTwoApart s a ↔ OwnLinesOnly s a := by
  cases a with
  | read => exact iff_of_true trivial fun _ ↦ apart_nil
  | expire i =>
    rw [OwnLinesOnly, irqCalls, apart_irqCall_iff h]
    rfl
  | write offset value now =>
    cases hr : inTimerRange offset with
    | true => exact timerTwoApart_timer_iff h hr value now
    | false => exact timerTwoApart_general_iff h hr value now

end

end Hpet
end CamkesVm
