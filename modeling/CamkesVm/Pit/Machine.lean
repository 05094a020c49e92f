import CamkesVm.Lib.TimerService
import CamkesVm.Pit.Runs

/-!
# The PIT and its timer

The runs of `CamkesVm.Pit.Runs` let a completion of `TIMER_PIT` be handled at any moment, so what is
proved of them needs nothing of the time server.  `Machine` puts the time server next to the device.
The effects of the device that start or stop the timer are commands to it (`timerCommand`), its
deadline can pass only while the timer is armed, and `pit_timer_interrupt` is called only for a
completion that is recorded, which it clears.

Every run of the machine is a run of the device (`Machine.run_device`), so nothing has to be proved
again here.  The VMM has this machine, and not only the device, in it: see `CamkesVm.Platform.Vmm`.
-/

set_option autoImplicit false

namespace CamkesVm
namespace Pit

open Transition TimerService EffectLog

/-- What an effect asks of the time server. -/
def timerCommand : Effect → Option (Command Unit)
  | .oneshotAbsolute _ => some (.arm ())
  | .stop => some (.stop ())
  | .setIrqLevel _ => none

/-- The device and what is around it. -/
structure Machine where
  /-- The device. -/
  pit : PITCommonState
  /-- What the time server knows of its timer. -/
  timers : Timers Unit

namespace Machine

/-- What can happen. -/
inductive Event
  /-- The guest reads a byte from a port. -/
  | portIn (addr : ℕ) (now : BitVec 64)
  /-- The guest writes a byte to a port. -/
  | portOut (addr : ℕ) (val : BitVec 8) (clock clock' : Fin 3 → BitVec 64)
  /-- The deadline of the timer passes. -/
  | expire
  /-- The completion is collected and handled. -/
  | timer

/-- What the device sees of it. -/
def Event.label : Event → Option Label
  | .portIn addr now => some (.portIn addr now)
  | .portOut addr val clock clock' => some (.portOut addr val clock clock')
  | .expire => none
  | .timer => some .timer

/-- The device has done something: what it asked of the time server takes effect. -/
def withPit (y : Machine) (pit : PITCommonState) : Machine where
  pit := pit
  timers := y.timers.obeyAll timerCommand (news y.pit.log pit.log)

/-- One event. -/
def next (y : Machine) : Event → Machine
  | .portIn addr now => y.withPit (pitIoportRead y.pit now addr).2
  | .portOut addr val clock clock' => y.withPit (pitIoportWrite y.pit clock clock' addr val)
  | .expire => { y with timers := y.timers.expire () }
  | .timer => { y with timers := y.timers.collect fun _ ↦ true }.withPit (pitTimerInterrupt y.pit)

/-- When an event can happen. -/
def Enabled (y : Machine) : Event → Prop
  | .expire => y.timers.armed () = true
  | .timer => y.timers.recorded () = true
  | _ => True

/-- The step relation of the machine. -/
abbrev Step : Machine → Event → Machine → Prop := Does Enabled next

/-- **The device in the machine** goes through a run of its own. -/
theorem run_device {y z : Machine} {es : List Event} (h : Run Step y es z) :
    Run Pit.Step y.pit (es.filterMap Event.label) z.pit := by
  refine h.project (f := Machine.pit) ?_
  rintro y e z ⟨-, rfl⟩
  cases e with
  | portIn | portOut | timer => exact .inl ⟨_, rfl, trivial, rfl⟩
  | expire => exact .inr ⟨rfl, rfl⟩

end Machine

end Pit
end CamkesVm
