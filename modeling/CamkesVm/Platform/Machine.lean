import CamkesVm.Hpet.Mmio
import CamkesVm.Pit.Runs
import CamkesVm.Rtc.Line

/-!
# The three timers of the platform on their interrupt lines

The PIT, the RTC and the HPET share interrupt lines: the PIT has line 0 and the RTC line 8, and the
timers of the HPET may be routed to any, these two included.  `Machine` has the three devices, as
`main` sets them up when HPET support is configured, and what they have done to the lines, in the
order it happened.  An event is a guest access to one of them, or a completion of one of its timers.

None of the devices looks at another or at the lines, so a run is for each of them a run of its own
(`run_hpet`, `run_pit`, `run_rtc`).

## What is here

* `Setting`, `hpetSetting`, `pitSetting`, `rtcSetting` — the effects of the devices on the lines,
  all others left out.
* `Machine`, `Event`, `Step` — the three devices side by side.
* `pitSettings`, `rtcSettings` — what an event of the PIT or the RTC does to the lines, from the
  tables of these devices.
* `Setup`, `init` — what `main` sets the devices up with.

Levels are those last set. The lines themselves, and the interrupt controller behind them, belong to
the library for virtual machines and are not in the repository.
-/

set_option autoImplicit false

namespace CamkesVm
namespace Platform

open Transition EffectLog

/-- `TIMER_IRQ` -/
def timerIrq : ℕ := 0

/-- `RTC_IRQ` -/
def rtcIrq : ℕ := 8

/-! ## The lines -/

/-- A call of `vm_set_irq_level`. -/
structure Setting where
  /-- The line. -/
  line : ℕ
  /-- The level it is set to. -/
  level : ℕ
  deriving DecidableEq

/-- What an effect of the HPET does to the lines. -/
def hpetSetting : Hpet.Effect → Option Setting
  | .setIrqLevel route level => some ⟨route, level⟩
  | _ => none

/-- What an effect of the PIT does to the lines. -/
def pitSetting (e : Pit.Effect) : Option Setting := e.level.map fun level ↦ ⟨timerIrq, level⟩

/-- What an effect of the RTC does to the lines. -/
def rtcSetting (e : Rtc.Effect) : Option Setting := e.level.map fun level ↦ ⟨rtcIrq, level⟩

/-! ## The machine -/

/-- The three devices and their lines. -/
structure Machine where
  /-- The PIT. -/
  pit : Pit.PITCommonState
  /-- The RTC and its timers. -/
  rtc : Rtc.Machine
  /-- The HPET. -/
  hpet : Hpet.HPETState
  /-- What has been done to the lines, oldest first. -/
  settings : List Setting

/-- What can happen. -/
inductive Event
  /-- An access to the PIT or a completion of its timer. -/
  | pit (a : Pit.Label)
  /-- An access to the RTC or something about its timers. -/
  | rtc (e : Rtc.Event)
  /-- An access to the HPET or a completion of one of its timers. -/
  | hpet (a : Hpet.Label)

namespace Machine

variable (T : Rtc.FieldTypes)

/-- The level of a line. -/
def level (y : Machine) (line : ℕ) : ℕ :=
  latest (fun c : Setting ↦ if c.line = line then some c.level else none) 0 y.settings

/-- What an event of the PIT does to the lines. -/
def pitSettings (y : Machine) (a : Pit.Label) : List Setting :=
  (news y.pit.log (y.pit.next a).log).filterMap pitSetting

/-- What an event of the RTC does to the lines. -/
def rtcSettings (y : Machine) (e : Rtc.Event) : List Setting :=
  (news y.rtc.rtc.log (y.rtc.next T e).rtc.log).filterMap rtcSetting

/-- One event. -/
inductive Step : Machine → Event → Machine → Prop
  | pit {y : Machine} {a : Pit.Label} : Step y (.pit a)
      { y with pit := y.pit.next a, settings := y.settings ++ y.pitSettings a }
  | rtc {y : Machine} {e : Rtc.Event} (h : y.rtc.Enabled e) : Step y (.rtc e)
      { y with rtc := y.rtc.next T e, settings := y.settings ++ y.rtcSettings T e }
  | hpet {y : Machine} {a : Hpet.Label} {s : Hpet.HPETState} (h : Hpet.Step y.hpet a s) :
      Step y (.hpet a)
        { y with
          hpet := s
          settings := y.settings ++ (news y.hpet.log s.log).filterMap hpetSetting }

/-- What the devices are set up with. -/
structure Setup where
  /-- The time when the PIT is initialised. -/
  pitNow : BitVec 64
  /-- The times when its channels are reset. -/
  pitClock : Fin 3 → BitVec 64
  /-- The date of the host. -/
  date : Rtc.RtcTimeDate
  /-- The time when the RTC is initialised. -/
  rtcNow : ℤ
  /-- The first of the HPET's timers at the time server, `TIMER_HPET0`. -/
  hpetIdBase : ℕ

/-- The machine after `pit_pre_init`, `rtc_pre_init` and `hpet_pre_init`. -/
def init (u : Setup) : Machine :=
  let pit := Pit.pitPreInit u.pitNow u.pitClock
  let rtc := Rtc.Machine.init T u.date u.rtcNow
  let hpet := Hpet.hpetPreInit u.hpetIdBase
  { pit := pit
    rtc := rtc
    hpet := hpet
    settings := pit.log.filterMap pitSetting ++ rtc.rtc.log.filterMap rtcSetting ++
      hpet.log.filterMap hpetSetting }

/-! ## The devices on their own -/

section

variable {T} {u : Setup} {es : List Event} {y : Machine}

theorem run_pit (h : Run (Step T) (init T u) es y) :
    Run Pit.Step (Pit.pitPreInit u.pitNow u.pitClock)
      (es.filterMap fun | .pit a => some a | _ => none) y.pit := by
  refine h.project (f := Machine.pit) fun y e z hs ↦ ?_
  cases hs with
  | @pit a => exact .inl ⟨a, rfl, trivial, rfl⟩
  | rtc => exact .inr ⟨rfl, rfl⟩
  | hpet => exact .inr ⟨rfl, rfl⟩

theorem run_rtc (h : Run (Step T) (init T u) es y) :
    Run (Rtc.Machine.Step T) (Rtc.Machine.init T u.date u.rtcNow)
      (es.filterMap fun | .rtc e => some e | _ => none) y.rtc := by
  refine h.project (f := Machine.rtc) fun y e z hs ↦ ?_
  cases hs with
  | pit => exact .inr ⟨rfl, rfl⟩
  | @rtc e he => exact .inl ⟨e, rfl, he, rfl⟩
  | hpet => exact .inr ⟨rfl, rfl⟩

theorem run_hpet (h : Run (Step T) (init T u) es y) :
    Run Hpet.Step (Hpet.hpetPreInit u.hpetIdBase)
      (es.filterMap fun | .hpet a => some a | _ => none) y.hpet := by
  refine h.project (f := Machine.hpet) fun y e z hs ↦ ?_
  cases hs with
  | pit => exact .inr ⟨rfl, rfl⟩
  | rtc => exact .inr ⟨rfl, rfl⟩
  | @hpet a s hs => exact .inl ⟨a, rfl, hs⟩

end

end Machine

end Platform
end CamkesVm
