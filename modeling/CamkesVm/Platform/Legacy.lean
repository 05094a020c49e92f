import CamkesVm.Hpet.Calls
import CamkesVm.Pit.Output
import CamkesVm.Platform.Machine
import CamkesVm.Rtc.Output

/-!
# Legacy replacement mode

While the guest has set LEGACY in the configuration of the HPET, timers 0 and 1 take the place of
the PIT and the RTC: lines 0 and 8 are theirs, and the output pins of the two other devices should
be disabled.  `hpet_handle_legacy_irq` is there to filter what they do to the lines, and keeps the
level of the RTC for when legacy mode ends, but nothing calls it; and nothing but the initialisation
calls `pit_irq_control`, which would stop the PIT.  All the HPET does is to lower both lines once,
when the mode begins.

So whether they stay silent depends on what the guest asks of them.  `run_silent_iff` says exactly
which events break the silence: those of the PIT and the RTC that set their line to another level
than it has, and those for which the HPET sets one of the two lines for timer 2, which its own
registers may route there.

* `Silent` — what legacy mode asks of an event, in terms of the lines and of the calls that the HPET
  makes.
* `Muted` — the condition, in terms of the tables of `CamkesVm.Hpet.Calls`, `CamkesVm.Pit.Output`
  and `CamkesVm.Rtc.Output`, which look at the state before the event only.
* `Silent.level_step` — why this is the right notion: lines 0 and 8 stay as they are through a
  silent event of the two other devices.

For the PIT and the RTC both conditions speak of levels, since a call that sets a line to the level
it has cannot be heard.
-/

set_option autoImplicit false

namespace CamkesVm
namespace Platform

open Transition EffectLog
open Hpet (hpetInLegacyMode LegacyLine)

namespace Machine

variable (T : Rtc.FieldTypes)

/-- Settings that change neither line 0 nor line 8. -/
def Unheard (y : Machine) (l : List Setting) : Prop :=
  ∀ c ∈ l, LegacyLine c.line → c.level = y.level c.line

/-- **In legacy mode the PIT and the RTC are silent** on lines 0 and 8, and the HPET sets them for
timers 0 and 1 only. -/
def Silent (y : Machine) : Event → Prop
  | .pit a => hpetInLegacyMode y.hpet = true → y.Unheard (y.pitSettings a)
  | .rtc e => hpetInLegacyMode y.hpet = true → y.Unheard (y.rtcSettings T e)
  | .hpet a => Hpet.OwnLinesOnly y.hpet a

/-- **What keeps them silent**: in legacy mode the PIT and the RTC set their lines only to the
levels these have, and timer 2 is left alone while it is routed to one of them. -/
def Muted (y : Machine) : Event → Prop
  | .pit a => hpetInLegacyMode y.hpet = true →
      ∀ level, Pit.sets y.pit a = some level → level = y.level timerIrq
  | .rtc e => hpetInLegacyMode y.hpet = true →
      ∀ level, Rtc.sets y.rtc.rtc e = some level → level = y.level rtcIrq
  | .hpet a => Hpet.TimerTwoApart y.hpet a

section

variable {T} {y : Machine}

/-- A device that sets one line. -/
theorem unheard_iff {ε : Type} {value : ε → Option ℕ} {l l' : List ε} {S : ℕ → Prop}
    (h : Sets value l l' S) {line : ℕ} (hline : LegacyLine line) :
    y.Unheard ((news l l').filterMap fun e ↦ (value e).map fun level ↦ ⟨line, level⟩) ↔
      ∀ level, S level → level = y.level line := by
  refine ⟨fun hunheard level hS ↦ ?_, fun hall c hc _ ↦ ?_⟩
  · obtain ⟨e, he, hvalue⟩ := List.mem_filterMap.mp ((h.mem_news level).mpr hS)
    have hmem : (⟨line, level⟩ : Setting) ∈
        (news l l').filterMap fun e ↦ (value e).map fun level ↦ ⟨line, level⟩ :=
      List.mem_filterMap.mpr ⟨e, he, by rw [hvalue]; rfl⟩
    exact hunheard _ hmem hline
  · obtain ⟨e, he, hc'⟩ := List.mem_filterMap.mp hc
    obtain ⟨level, hvalue, rfl⟩ := Option.map_eq_some_iff.mp hc'
    exact hall level ((h.mem_news level).mp (List.mem_filterMap.mpr ⟨e, he, hvalue⟩))

/-- What is unheard changes no level. -/
theorem Unheard.level {l : List Setting} (h : y.Unheard l) {line : ℕ} (hline : LegacyLine line) :
    level { y with settings := y.settings ++ l } line = y.level line := by
  refine latest_append_of_same fun c hc level hlevel ↦ ?_
  split at hlevel
  next heq =>
    subst heq
    exact (Option.some.inj hlevel).symm.trans (h c hc hline)
  next => exact absurd hlevel nofun

/-- In legacy mode, **a silent event of the PIT or the RTC leaves lines 0 and 8 as they are**. -/
theorem Silent.level_step {e : Event} {z : Machine} (h : y.Silent T e) (hs : Step T y e z)
    (hlegacy : hpetInLegacyMode y.hpet = true) (he : ∀ a, e ≠ .hpet a) {line : ℕ}
    (hline : LegacyLine line) : z.level line = y.level line := by
  cases hs with
  | pit => exact Unheard.level (h hlegacy) hline
  | rtc => exact Unheard.level (h hlegacy) hline
  | @hpet a => exact absurd rfl (he a)

/-- Which events are silent. -/
theorem muted_iff (hwired : Pit.Wired y.pit) (hnone : y.rtc.rtc.irqCoalesced = 0)
    (hconsistent : Hpet.Consistent y.hpet) (e : Event) : y.Muted e ↔ y.Silent T e := by
  cases e with
  | pit a =>
    exact imp_congr_right fun _ ↦ (unheard_iff (Pit.sets_next hwired a) (.inl rfl)).symm
  | rtc e =>
    exact imp_congr_right fun _ ↦ (unheard_iff (Rtc.sets_next T hnone e) (.inr rfl)).symm
  | hpet a => exact Hpet.timerTwoApart_iff hconsistent a

end

/-- **Legacy mode**: in the runs all of whose events meet the condition, and in no others, every
event is silent. -/
theorem run_silent_iff (u : Setup) (es : List Event) (y : Machine) :
    Run (Guarded Muted (Step T)) (init T u) es y ↔
      Run (Guarded (Silent T) (Step T)) (init T u) es y :=
  Run.guarded_congr fun _ _ e _ h _ ↦
    muted_iff (Pit.run_wired (run_pit h)) (Rtc.Machine.run_irqCoalesced T (run_rtc h))
      (Hpet.run_consistent (run_hpet h)) e

/-- **The PIT in legacy mode.**  The guest sets LEGACY, and then loads a count into the first
channel of the PIT, which is in mode 3 from its reset: line 0 goes high. -/
theorem not_silent_pit :
    ¬∀ T u es y e z, Run (Step T) (init T u) es y → Step T y e z → y.Silent T e := by
  intro h
  let u : Setup :=
    { pitNow := 0, pitClock := 0, date := Rtc.exampleDate, rtcNow := 0, hpetIdBase := 9 }
  let s := Hpet.writeCfg (Hpet.hpetPreInit 9) 0 0 2
  have hlegacy : Hpet.vmHpetMmioWrite (Hpet.hpetPreInit 9) 0 0x010 2 = some s := rfl
  have hnews : (news (init Rtc.intFields u).hpet.log s.log).filterMap hpetSetting =
      [⟨timerIrq, 0⟩, ⟨rtcIrq, 0⟩] := by decide
  have hrun : Run (Step Rtc.intFields) (init Rtc.intFields u) [.hpet (.write 0x010 2 0)] _ :=
    .single (.hpet (.write (by decide) hlegacy))
  have hsilent := h Rtc.intFields u _ _ (.pit (.portOut 0x40 100 0 0)) _ hrun .pit
  have hmuted := (muted_iff (Pit.run_wired (run_pit hrun))
    (Rtc.Machine.run_irqCoalesced Rtc.intFields (run_rtc hrun))
    (Hpet.run_consistent (run_hpet hrun)) _).mpr hsilent
  have hlevel := hmuted (by decide) 1 (by decide)
  rw [level, hnews, latest_append] at hlevel
  exact absurd hlevel (by decide)

end Machine

end Platform
end CamkesVm
