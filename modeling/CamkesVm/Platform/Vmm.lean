import CamkesVm.Events.Callbacks
import CamkesVm.Hpet.Machine
import CamkesVm.Pit.Machine
import CamkesVm.Rtc.Chain
import CamkesVm.Serial.Machine

/-!
# The VMM around its devices

The models of the PIT, the RTC, the UART and the HPET leave open who calls their interrupt
functions: a completion may be handled any time after it was recorded, and the signal of the serial
server any time after it was sent.  Here is who does.  The time server and the serial server signal
a notification, whose word the VMM takes together with the signals of everything else, and
`handle_async_event` finds out from the word, and from what `init_timer_completed` returns, which
devices to call.  In between, the guest accesses the devices.

`run_composed` says that this is indeed an environment as the devices expect: each of them goes
through a run of its own.  And no completion and no character is forgotten: whatever has been
recorded or stored, there is a signal to come or to be taken that leads to it.

## What is here

* `TimerId`, `TimerId.number`, `TimerId.device` — the timers that the devices share, by the numbers
  of the source.
* `Vmm`, `VmmEvent`, `Enabled`, `next` — the state, and one event of it: a guest access, a deadline,
  a signal, or the VMM taking the word. A step in which a handler does not return is no step.
* `pitTimerInterrupt`, `rtcTimerInterrupt`, `call` — what the calls of `handle_async_event` do to
  the devices.
* `pitMachine`, `hpetMachine`, `Runs` — each device with its own timers, and a run of each.
* `Handles`, `dueOf` — the work of a handler: the completions that it takes, and nothing else. There
  is one lemma for each device, and `handles_timerCalls` goes through the calls in their order.
* `Sound`, `TimersHandled`, `Sound.step`, `run_composed` — the invariant, with the state half way
  through `handle_async_event` that it passes, and the runs.

The word may have the bits of other sources in it, merged in any way; which handlers then run is the
law of `CamkesVm.Events.Dispatch`.
-/

set_option autoImplicit false

namespace CamkesVm
namespace Platform

open Transition TimerService EffectLog Events Coalesced

/-! ## Timers -/

/-- The timers that the devices use, `TIMER_MODEM_STATUS_TIMER` excepted. -/
inductive TimerId
  /-- `TIMER_PIT` -/
  | pit
  /-- A timer of the RTC. -/
  | rtc (timer : Rtc.Timer)
  /-- A timer of the UART. -/
  | serial (timer : Serial.Timer)
  /-- A timer of the HPET. -/
  | hpet (i : Fin Hpet.hpetMaxTimers)
  deriving DecidableEq

/-- The number of a timer of the RTC. -/
def rtcTimer : Rtc.Timer → ℕ
  | .periodic => timerPeriodicTimer
  | .coalesced => timerCoalescedTimer
  | .second => timerSecondTimer
  | .second2 => timerSecondTimer2

/-- The number of a timer of the UART. -/
def serialTimer : Serial.Timer → ℕ
  | .fifoTimeout => timerFifoTimeout
  | .transmit => timerTransmitTimer
  | .moreChars => timerMoreChars

/-- Its number at the time server. -/
def TimerId.number : TimerId → ℕ
  | .pit => timerPit
  | .rtc timer => rtcTimer timer
  | .serial timer => serialTimer timer
  | .hpet i => timerHpet0 + i

/-- The device it belongs to. -/
def TimerId.device : TimerId → TimerModule
  | .pit => .pit
  | .rtc _ => .rtc
  | .serial _ => .serial
  | .hpet _ => .hpet

/-- All of them. -/
def TimerId.all : List TimerId :=
  [.pit, .rtc .periodic, .rtc .coalesced, .rtc .second, .rtc .second2, .serial .fifoTimeout,
    .serial .transmit, .serial .moreChars, .hpet 0, .hpet 1, .hpet 2]

/-! ## The VMM -/

/-- The devices, the time server and the notification of a VMM with `n` connections. -/
structure Vmm (w n : ℕ) (φ : Type) where
  /-- The PIT. -/
  pit : Pit.PITCommonState
  /-- What the time server knows of its timer. -/
  pitTimers : Timers Unit
  /-- The RTC and its timers. -/
  rtc : Rtc.Machine
  /-- The UART, its timers and the serial server. -/
  serial : Serial.Machine
  /-- The HPET. -/
  hpet : Hpet.HPETState
  /-- What the time server knows of its timers, by their numbers. -/
  hpetTimers : Timers ℕ
  /-- The time server has recorded a completion and is going to signal. -/
  timerOwed : Bool
  /-- The word of the notification. -/
  word : BitVec w
  /-- What `handle_async_event` has called. -/
  called : List (Call n φ)

/-- What can happen.  A function of the VMM runs to its end before a timer expires or another
component signals: what happens meanwhile counts as happening afterwards. -/
inductive VmmEvent (n : ℕ)
  /-- The guest reads from a port of the PIT. -/
  | pitIn (addr : ℕ) (now : BitVec 64)
  /-- The guest writes to one. -/
  | pitOut (addr : ℕ) (val : BitVec 8) (clock clock' : Fin 3 → BitVec 64)
  /-- The guest reads from a port of the RTC. -/
  | rtcIn (addr : ℕ)
  /-- The guest writes to one. -/
  | rtcOut (addr : ℕ) (data : BitVec 8) (now : BitVec 64)
  /-- The guest reads from a port of the UART. -/
  | serialIn (addr : ℕ) (now : BitVec 64)
  /-- The guest writes to one. -/
  | serialOut (addr : ℕ) (val : BitVec 8) (t : Serial.Times)
  /-- The guest reads from the HPET. -/
  | hpetRead (offset : ℕ) (now : BitVec 64)
  /-- The guest writes to it. -/
  | hpetWrite (offset : ℕ) (value now : BitVec 64)
  /-- The deadline of a timer passes. -/
  | expire (t : TimerId)
  /-- The time server signals. -/
  | signalTimer
  /-- The serial server stores a character. -/
  | enqueue (c : BitVec 8)
  /-- The serial server signals. -/
  | signalSerial
  /-- Another source signals. -/
  | signal (s : Source n)
  /-- The VMM takes the word and calls `handle_async_event`. -/
  | asyncEvent (rtcNow characterNow : BitVec 64) (serialTimes : Serial.Times)
      (hpetNow : Fin Hpet.hpetMaxTimers → BitVec 64) (fuel : ℕ)

namespace Vmm

section

variable {w n : ℕ} {φ : Type} (T : Rtc.FieldTypes)

/-- A timer waits for its deadline. -/
def armed (y : Vmm w n φ) : TimerId → Bool
  | .pit => y.pitTimers.armed ()
  | .rtc timer => y.rtc.timers.armed timer
  | .serial timer => y.serial.timers.armed timer
  | .hpet i => y.hpetTimers.armed (timerHpet0 + i)

/-- A timer has completed, and that has not been handled. -/
def recorded (y : Vmm w n φ) : TimerId → Bool
  | .pit => y.pitTimers.recorded ()
  | .rtc timer => y.rtc.timers.recorded timer
  | .serial timer => y.serial.timers.recorded timer
  | .hpet i => y.hpetTimers.recorded (timerHpet0 + i)

/-- The deadline of a timer passes. -/
def expire (y : Vmm w n φ) : TimerId → Vmm w n φ
  | .pit => { y with pitTimers := y.pitTimers.expire () }
  | .rtc timer => { y with rtc := y.rtc.next T (.expire timer) }
  | .serial timer => { y with serial := y.serial.next (.expire timer) }
  | .hpet i => { y with hpetTimers := y.hpetTimers.expire (timerHpet0 + i) }

/-- What `init_timer_completed` returns.  That it clears what was recorded is left to the functions
that handle it, which are called right afterwards. -/
def initTimerCompleted (y : Vmm w n φ) : BitVec 32 :=
  merged (fun t ↦ bit t.number) (TimerId.all.filter y.recorded)

/-- The PIT has done something. -/
def withPit (y : Vmm w n φ) (s : Pit.PITCommonState) : Vmm w n φ :=
  { y with
    pit := s
    pitTimers := y.pitTimers.obeyAll Pit.timerCommand (news y.pit.log s.log) }

/-- The HPET has done something. -/
def withHpet (y : Vmm w n φ) (s : Hpet.HPETState) : Vmm w n φ :=
  { y with
    hpet := s
    hpetTimers := y.hpetTimers.obeyAll Hpet.timerCommand (news y.hpet.log s.log) }

/-- The bit of a timer is set: a C condition `completed & BIT(t)`. -/
def has (completed : BitVec 32) (t : ℕ) : Bool := completed &&& bit t ≠ 0

/-- `pit_timer_interrupt` -/
def pitTimerInterrupt (y : Vmm w n φ) : Vmm w n φ :=
  { y with pitTimers := y.pitTimers.collect fun _ ↦ true }.withPit (Pit.pitTimerInterrupt y.pit)

/-- `rtc_timer_interrupt`: one completion after the other. -/
def rtcTimerInterrupt (y : Vmm w n φ) (completed : BitVec 32) (now : BitVec 64) : Vmm w n φ :=
  { y with
    rtc := ([.periodic, .coalesced, .second, .second2].filter fun timer ↦
      has completed (rtcTimer timer)).foldl (fun rtc timer ↦ rtc.next T (.timer timer now)) y.rtc }

/-- The completions for `serial_timer_interrupt`. -/
def serialCompleted (completed : BitVec 32) : Serial.Completed where
  fifoTimeout := has completed timerFifoTimeout
  transmit := has completed timerTransmitTimer
  modemStatus := has completed timerModemStatusTimer
  moreChars := has completed timerMoreChars

/-- A call of `handle_async_event`.  What lies behind `vm_inject_irq` and the functions of the
connections does not concern the devices here. -/
def call (rtcNow characterNow : BitVec 64) (serialTimes : Serial.Times)
    (hpetNow : Fin Hpet.hpetMaxTimers → BitVec 64) (fuel : ℕ) (y : Vmm w n φ) :
    Call n φ → Option (Vmm w n φ)
  | .initTimerCompleted | .vmInjectIrq _ | .notify _ _ => some y
  | .pitTimerInterrupt => some y.pitTimerInterrupt
  | .rtcTimerInterrupt completed => some (y.rtcTimerInterrupt T completed rtcNow)
  | .serialTimerInterrupt completed =>
    some { y with serial := y.serial.next (.timer (serialCompleted completed) serialTimes) }
  | .serialCharacterInterrupt =>
    some { y with serial := y.serial.next (.character characterNow) }
  | .hpetTimerInterrupt completed =>
    (Hpet.hpetTimerInterrupt y.hpet (has completed) hpetNow fuel).map fun s ↦
      { y with hpetTimers := y.hpetTimers.collect (Hpet.handled y.hpet (has completed)) }.withHpet s

end

variable {w : ℕ} {φ : Type} (T : Rtc.FieldTypes) (c : Notifications w φ)

/-- When something can happen.  The HPET is there only if it is configured. -/
def Enabled (y : Vmm w c.devices.length φ) : VmmEvent c.devices.length → Prop
  | .hpetRead offset _ | .hpetWrite offset _ _ => c.useHpet = true ∧ offset < Hpet.hpetLen
  | .expire t => y.armed t = true
  | .signalTimer => y.timerOwed = true
  | .enqueue _ => ¬y.serial.buffer.Full
  | .signalSerial => y.serial.owed = true
  | .signal s => s ≠ .timer ∧ s ≠ .serial
  | .asyncEvent _ _ _ _ _ => y.word ≠ 0
  | _ => True

instance : ∀ (y : Vmm w c.devices.length φ) (e : VmmEvent c.devices.length),
    Decidable (y.Enabled c e)
  | _, .hpetRead _ _ | _, .hpetWrite _ _ _ => inferInstanceAs (Decidable (_ ∧ _))
  | _, .expire _ | _, .signalTimer | _, .signalSerial => inferInstanceAs (Decidable (_ = true))
  | y, .enqueue _ => inferInstanceAs (Decidable (¬y.serial.buffer.Full))
  | _, .signal _ => inferInstanceAs (Decidable (_ ∧ _))
  | _, .asyncEvent _ _ _ _ _ => inferInstanceAs (Decidable (_ ≠ _))
  | _, .pitIn _ _ | _, .pitOut _ _ _ _ | _, .rtcIn _ | _, .rtcOut _ _ _ | _, .serialIn _ _
  | _, .serialOut _ _ _ => inferInstanceAs (Decidable True)

/-- What happens then; `none` if that does not end, or not in the model: for an access of the HPET
behind its timers, a handler that does not return, and a connection without a function. -/
def next (y : Vmm w c.devices.length φ) :
    VmmEvent c.devices.length → Option (Vmm w c.devices.length φ)
  | .pitIn addr now => some (y.withPit (Pit.pitIoportRead y.pit now addr).2)
  | .pitOut addr val clock clock' =>
    some (y.withPit (Pit.pitIoportWrite y.pit clock clock' addr val))
  | .rtcIn addr => some { y with rtc := y.rtc.next T (.portIn addr) }
  | .rtcOut addr data now => some { y with rtc := y.rtc.next T (.portOut addr data now) }
  | .serialIn addr now => some { y with serial := y.serial.next (.portIn addr now) }
  | .serialOut addr val t => some { y with serial := y.serial.next (.portOut addr val t) }
  | .hpetRead offset now => (Hpet.vmHpetMmioRead y.hpet now offset).map fun _ ↦ y
  | .hpetWrite offset value now =>
    (Hpet.vmHpetMmioWrite y.hpet now offset value).map y.withHpet
  | .expire t => some { y.expire T t with timerOwed := true }
  | .signalTimer => some { y with timerOwed := false, word := y.word ||| c.badge .timer }
  | .enqueue ch => some { y with serial := y.serial.next (.enqueue ch) }
  | .signalSerial => some { y with
      serial := y.serial.next .signal
      word := y.word ||| c.badge .serial }
  | .signal s => some { y with word := y.word ||| c.badge s }
  | .asyncEvent rtcNow characterNow serialTimes hpetNow fuel => do
    let calls ← handleAsyncEvent c y.word y.initTimerCompleted
    calls.foldlM (call T rtcNow characterNow serialTimes hpetNow fuel)
      { y with word := 0, called := y.called ++ calls }

/-- One event. -/
def Step (y : Vmm w c.devices.length φ) (e : VmmEvent c.devices.length)
    (z : Vmm w c.devices.length φ) : Prop :=
  y.Enabled c e ∧ y.next T c e = some z

/-- What a list of events comes to; `none` if one of them cannot happen. -/
def play (y : Vmm w c.devices.length φ) (es : List (VmmEvent c.devices.length)) :
    Option (Vmm w c.devices.length φ) :=
  es.foldlM (fun y e ↦ if y.Enabled c e then y.next T c e else none) y

/-- After the initialisation of the devices. -/
def init (pitNow : BitVec 64) (pitClock : Fin 3 → BitVec 64) (date : Rtc.RtcTimeDate) (rtcNow : ℤ)
    (serialNow : BitVec 64) : Vmm w c.devices.length φ where
  pit := Pit.pitPreInit pitNow pitClock
  pitTimers := Timers.idle.obeyAll Pit.timerCommand (Pit.pitPreInit pitNow pitClock).log
  rtc := .init T date rtcNow
  serial := .init serialNow
  hpet := Hpet.hpetPreInit timerHpet0
  hpetTimers := .idle
  timerOwed := false
  word := 0
  called := []

/-! ## The devices on their own -/

section

variable {w n : ℕ} {φ : Type} {T : Rtc.FieldTypes} {y z v : Vmm w n φ}

/-- The PIT with its timer. -/
def pitMachine (y : Vmm w n φ) : Pit.Machine := ⟨y.pit, y.pitTimers⟩

/-- The HPET with its timers. -/
def hpetMachine (y : Vmm w n φ) : Hpet.Machine := ⟨y.hpet, y.hpetTimers⟩

/-- Each device comes from one state to the other by a run of its own, with its timers. -/
structure Runs (T : Rtc.FieldTypes) (y z : Vmm w n φ) : Prop where
  pit : ∃ es, Run Pit.Machine.Step y.pitMachine es z.pitMachine
  rtc : ∃ es, Run (Rtc.Machine.Step T) y.rtc es z.rtc
  serial : ∃ es, Run Serial.Machine.Step y.serial es z.serial
  hpet : ∃ es, Run Hpet.Machine.Step y.hpetMachine es z.hpetMachine

/-- No device does anything. -/
theorem Runs.of_same (hpit : z.pitMachine = y.pitMachine) (hrtc : z.rtc = y.rtc)
    (hserial : z.serial = y.serial) (hhpet : z.hpetMachine = y.hpetMachine) : Runs T y z := by
  refine ⟨⟨[], ?_⟩, ⟨[], ?_⟩, ⟨[], ?_⟩, ⟨[], ?_⟩⟩
  exacts [hpit ▸ .nil, hrtc ▸ .nil, hserial ▸ .nil, hhpet ▸ .nil]

theorem Runs.refl (y : Vmm w n φ) : Runs T y y := .of_same rfl rfl rfl rfl

theorem Runs.trans (h : Runs T y z) (h' : Runs T z v) : Runs T y v := by
  obtain ⟨⟨_, hpit⟩, ⟨_, hrtc⟩, ⟨_, hserial⟩, ⟨_, hhpet⟩⟩ := h
  obtain ⟨⟨_, hpit'⟩, ⟨_, hrtc'⟩, ⟨_, hserial'⟩, ⟨_, hhpet'⟩⟩ := h'
  exact ⟨⟨_, hpit.append hpit'⟩, ⟨_, hrtc.append hrtc'⟩, ⟨_, hserial.append hserial'⟩,
    ⟨_, hhpet.append hhpet'⟩⟩

/-- Only the PIT does something. -/
theorem Runs.of_pit {e : Pit.Machine.Event} (h : y.pitMachine.Enabled e)
    (hpit : z.pitMachine = y.pitMachine.next e) (hrtc : z.rtc = y.rtc)
    (hserial : z.serial = y.serial) (hhpet : z.hpetMachine = y.hpetMachine) : Runs T y z := by
  refine ⟨⟨_, .single (a := e) ⟨h, hpit⟩⟩, ⟨[], ?_⟩, ⟨[], ?_⟩, ⟨[], ?_⟩⟩
  exacts [hrtc ▸ .nil, hserial ▸ .nil, hhpet ▸ .nil]

/-- Only the RTC does something. -/
theorem Runs.of_rtc {e : Rtc.Event} (h : y.rtc.Enabled e) (hrtc : z.rtc = y.rtc.next T e)
    (hpit : z.pitMachine = y.pitMachine) (hserial : z.serial = y.serial)
    (hhpet : z.hpetMachine = y.hpetMachine) : Runs T y z := by
  refine ⟨⟨[], ?_⟩, ⟨_, .single (a := e) ⟨h, hrtc⟩⟩, ⟨[], ?_⟩, ⟨[], ?_⟩⟩
  exacts [hpit ▸ .nil, hserial ▸ .nil, hhpet ▸ .nil]

/-- Only the UART does something. -/
theorem Runs.of_serial {e : Serial.Event} (h : y.serial.Enabled e)
    (hserial : z.serial = y.serial.next e) (hpit : z.pitMachine = y.pitMachine)
    (hrtc : z.rtc = y.rtc) (hhpet : z.hpetMachine = y.hpetMachine) : Runs T y z := by
  refine ⟨⟨[], ?_⟩, ⟨[], ?_⟩, ⟨_, .single (a := e) ⟨h, hserial⟩⟩, ⟨[], ?_⟩⟩
  exacts [hpit ▸ .nil, hrtc ▸ .nil, hhpet ▸ .nil]

/-- Only the HPET does something. -/
theorem Runs.of_hpet {es : List Hpet.Machine.Event}
    (h : Run Hpet.Machine.Step y.hpetMachine es z.hpetMachine)
    (hpit : z.pitMachine = y.pitMachine) (hrtc : z.rtc = y.rtc) (hserial : z.serial = y.serial) :
    Runs T y z := by
  refine ⟨⟨[], ?_⟩, ⟨[], ?_⟩, ⟨[], ?_⟩, ⟨_, h⟩⟩
  exacts [hpit ▸ .nil, hrtc ▸ .nil, hserial ▸ .nil]

/-! ### What is recorded -/

theorem mem_all (t : TimerId) : t ∈ TimerId.all := by
  cases t with
  | pit => decide
  | rtc timer => cases timer <;> decide
  | serial timer => cases timer <;> decide
  | hpet i => revert i; decide

theorem number_lt (t : TimerId) : t.number < 32 := by
  have h := mem_all t
  revert t
  decide

/-- No two timers have the same number. -/
theorem number_injective : Function.Injective TimerId.number := by
  have h : ∀ t ∈ TimerId.all, ∀ t' ∈ TimerId.all, t.number = t'.number → t = t' := by decide
  exact fun t t' ↦ h t (mem_all t) t' (mem_all t')

theorem has_eq (completed : BitVec 32) {k : ℕ} (hk : k < 32) :
    has completed k = completed.getLsbD k := by
  rw [Bool.eq_iff_iff, ← and_twoPow_ne_zero_iff completed hk, has, decide_eq_true_iff, bit]

/-- A number is among the completed ones if it is that of a timer that is recorded. -/
theorem has_initTimerCompleted {k : ℕ} (hk : k < 32) :
    has y.initTimerCompleted k = true ↔ ∃ t, y.recorded t = true ∧ t.number = k := by
  rw [has_eq _ hk, initTimerCompleted, getLsbD_merged]
  constructor
  · rintro ⟨t, ht, hbit⟩
    refine ⟨t, (List.mem_filter.1 ht).2, ?_⟩
    rw [bit, BitVec.getLsbD_twoPow] at hbit
    simpa [number_lt] using hbit
  · rintro ⟨t, ht, rfl⟩
    refine ⟨t, List.mem_filter.2 ⟨mem_all t, ht⟩, ?_⟩
    rw [bit, BitVec.getLsbD_twoPow]
    simp [number_lt]

/-- **`init_timer_completed` says what is recorded.** -/
theorem has_number (t : TimerId) : has y.initTimerCompleted t.number = y.recorded t := by
  rw [Bool.eq_iff_iff, has_initTimerCompleted (number_lt t)]
  constructor
  · rintro ⟨t', ht', hnumber⟩
    rwa [← number_injective hnumber]
  · exact fun ht ↦ ⟨t, ht, rfl⟩

/-- Nobody arms a timer for the modem status. -/
theorem not_has_modemStatus : has y.initTimerCompleted timerModemStatusTimer = false := by
  have hnone : ∀ t ∈ TimerId.all, t.number ≠ timerModemStatusTimer := by decide
  rw [← Bool.not_eq_true, has_initTimerCompleted (by decide)]
  rintro ⟨t, -, ht⟩
  exact hnone t (mem_all t) ht

/-! ### The handlers -/

/-- The timers of the HPET have the numbers they were given. -/
def Numbered (y : Vmm w n φ) : Prop := ∀ i, (y.hpet.timer i).tid = timerHpet0 + i

/-- What some handlers do: the completions `done` are handled, by runs of the devices, and nothing
is signalled. -/
structure Handles (T : Rtc.FieldTypes) (done : TimerId → Bool) (y z : Vmm w n φ) : Prop where
  runs : Runs T y z
  recorded : ∀ t, z.recorded t = (y.recorded t && !done t)
  pending : z.serial.pending = y.serial.pending
  word : z.word = y.word
  timerOwed : z.timerOwed = y.timerOwed
  numbered : y.Numbered → z.Numbered
  /-- The HPET is left alone unless a timer of it has completed. -/
  hpet : (∀ i, done (.hpet i) = false) → z.hpetTimers = y.hpetTimers

theorem Handles.refl (y : Vmm w n φ) : Handles T (fun _ ↦ false) y y :=
  ⟨.refl y, fun t ↦ by simp, rfl, rfl, rfl, id, fun _ ↦ rfl⟩

theorem Handles.trans {done done' : TimerId → Bool} (h : Handles T done y z)
    (h' : Handles T done' z v) : Handles T (fun t ↦ done t || done' t) y v where
  runs := h.runs.trans h'.runs
  recorded t := by rw [h'.recorded, h.recorded, Bool.not_or, Bool.and_assoc]
  pending := h'.pending.trans h.pending
  word := h'.word.trans h.word
  timerOwed := h'.timerOwed.trans h.timerOwed
  numbered := h'.numbered ∘ h.numbered
  hpet hnone := by
    have hboth : ∀ i, done (.hpet i) = false ∧ done' (.hpet i) = false := fun i ↦ by
      simpa using hnone i
    exact (h'.hpet fun i ↦ (hboth i).2).trans (h.hpet fun i ↦ (hboth i).1)

/-- The timers of a device that have completed. -/
def dueOf (m : TimerModule) (completed : BitVec 32) (t : TimerId) : Bool :=
  t.device = m && has completed t.number

theorem handles_pit {completed : BitVec 32} (h : has completed timerPit = true)
    (hrecorded : ∀ t, dueOf .pit completed t = true → y.recorded t = true) :
    Handles T (dueOf .pit completed) y y.pitTimerInterrupt where
  runs := .of_pit (e := .timer) (hrecorded .pit h) rfl rfl rfl rfl
  recorded t := by
    cases t with
    | pit =>
      have hdue : dueOf .pit completed .pit = true := h
      rw [hdue]
      change (Timers.obeyAll Pit.timerCommand _ _).recorded () = _
      rw [Timers.recorded_obeyAll]
      simp [Timers.collect]
    | rtc timer | serial timer | hpet i => exact (Bool.and_true _).symm
  pending := rfl
  word := rfl
  timerOwed := rfl
  numbered := id
  hpet _ := rfl

/-- The completions of some timers of the RTC, one after the other. -/
theorem run_rtc_timers {rtc : Rtc.Machine} {timers : List Rtc.Timer} (hnodup : timers.Nodup)
    (h : ∀ timer ∈ timers, rtc.timers.recorded timer = true) (now : BitVec 64) :
    Run (Rtc.Machine.Step T) rtc (timers.map fun timer ↦ .timer timer now)
        (timers.foldl (fun rtc timer ↦ rtc.next T (.timer timer now)) rtc) ∧
      ∀ timer, (timers.foldl (fun rtc timer ↦ rtc.next T (.timer timer now)) rtc).timers.recorded
        timer = (rtc.timers.recorded timer && !timers.contains timer) := by
  induction timers generalizing rtc with
  | nil => exact ⟨.nil, fun timer ↦ by simp⟩
  | cons first timers ih =>
    obtain ⟨hfirst, hnodup⟩ := List.nodup_cons.1 hnodup
    have hnext := Rtc.recorded_next T rtc (.timer first now)
    have hrest : ∀ timer ∈ timers,
        (rtc.next T (.timer first now)).timers.recorded timer = true := by
      intro timer htimer
      have hne : timer ≠ first := fun heq ↦ hfirst (heq ▸ htimer)
      rw [hnext, h timer (List.mem_cons_of_mem _ htimer)]
      simpa using hne
    obtain ⟨hrun, hrecorded⟩ := ih hnodup hrest
    refine ⟨.cons ⟨h first List.mem_cons_self, rfl⟩ hrun, fun timer ↦ ?_⟩
    rw [List.foldl_cons, hrecorded, hnext, List.contains_cons, Bool.not_or, Bool.and_assoc]

theorem handles_rtc {completed : BitVec 32} (now : BitVec 64)
    (h : ∀ t, dueOf .rtc completed t = true → y.recorded t = true) :
    Handles T (dueOf .rtc completed) y (y.rtcTimerInterrupt T completed now) := by
  have hnodup : ([.periodic, .coalesced, .second, .second2].filter fun timer ↦
      has completed (rtcTimer timer)).Nodup := List.Nodup.filter _ (by decide)
  obtain ⟨hrun, hrecorded⟩ := @run_rtc_timers T y.rtc _ hnodup
    (fun timer htimer ↦ h (.rtc timer) (List.mem_filter.1 htimer).2) now
  refine ⟨⟨⟨_, .nil⟩, ⟨_, hrun⟩, ⟨_, .nil⟩, ⟨_, .nil⟩⟩, fun t ↦ ?_, rfl, rfl, rfl, id, fun _ ↦ rfl⟩
  cases t with
  | rtc timer =>
    refine (hrecorded timer).trans ?_
    congr 2
    rw [Bool.eq_iff_iff, List.contains_iff_mem, List.mem_filter]
    cases timer <;> simp [dueOf, TimerId.device, TimerId.number]
  | pit | serial timer | hpet i => exact (Bool.and_true _).symm

theorem handles_serial {completed : BitVec 32} (times : Serial.Times)
    (h : ∀ t, dueOf .serial completed t = true → y.recorded t = true)
    (hmodem : has completed timerModemStatusTimer = false) :
    Handles T (dueOf .serial completed) y
      { y with serial := y.serial.next (.timer (serialCompleted completed) times) } := by
  have hen : y.serial.Enabled (.timer (serialCompleted completed) times) :=
    ⟨hmodem, fun hhas ↦ h (.serial .fifoTimeout) hhas, fun hhas ↦ h (.serial .transmit) hhas,
      fun hhas ↦ h (.serial .moreChars) hhas⟩
  refine ⟨.of_serial hen rfl rfl rfl rfl, fun t ↦ ?_, rfl, rfl, rfl, id, fun _ ↦ rfl⟩
  cases t with
  | serial timer =>
    change (Timers.obeyAll Serial.command _ _).recorded timer = _
    rw [Timers.recorded_obeyAll]
    cases timer <;> rfl
  | pit | rtc timer | hpet i => exact (Bool.and_true _).symm

theorem handles_hpet {completed : BitVec 32} {now : Fin Hpet.hpetMaxTimers → BitVec 64} {fuel : ℕ}
    {s : Hpet.HPETState} (hy : y.Numbered)
    (hrecorded : ∀ t, dueOf .hpet completed t = true → y.recorded t = true)
    (hdue : ∃ i, dueOf .hpet completed (.hpet i) = true)
    (h : Hpet.hpetTimerInterrupt y.hpet (has completed) now fuel = some s) :
    Handles T (dueOf .hpet completed) y
      ({ y with hpetTimers := y.hpetTimers.collect (Hpet.handled y.hpet (has completed)) }.withHpet
        s) := by
  have hinj : Function.Injective fun i ↦ (y.hpet.timer i).tid := by
    intro i j hij
    have hadd : timerHpet0 + (i : ℕ) = timerHpet0 + j := (hy i).symm.trans (hij.trans (hy j))
    exact Fin.ext (Nat.add_left_cancel hadd)
  have hrec : ∀ i, has completed (y.hpet.timer i).tid = true →
      y.hpetTimers.recorded (y.hpet.timer i).tid = true := by
    intro i hi
    rw [hy i] at hi ⊢
    exact hrecorded (.hpet i) hi
  obtain ⟨es, hrun⟩ := @Hpet.run_hpetTimerInterrupt _ _ _ _ _ y.hpetTimers hinj hrec h
  have hnumbered : Numbered (y.withHpet s) := fun i ↦
    (Hpet.tid_run (Hpet.Machine.run_device hrun) i).trans (hy i)
  refine ⟨.of_hpet hrun rfl rfl rfl, fun t ↦ ?_, rfl, rfl, rfl, fun _ ↦ hnumbered, fun hnone ↦ ?_⟩
  · cases t with
    | hpet i =>
      change (Timers.obeyAll Hpet.timerCommand _ _).recorded (timerHpet0 + i) = _
      rw [Timers.recorded_obeyAll]
      change (_ && !_) = (_ && !_)
      congr 2
      rw [Bool.eq_iff_iff, Hpet.handled, Hpet.handledOf, List.any_eq_true]
      constructor
      · rintro ⟨j, -, hj⟩
        exact (Bool.and_eq_true_iff.1 hj).2
      · intro hi
        refine ⟨i, List.mem_finRange i, ?_⟩
        exact Bool.and_eq_true_iff.2 ⟨decide_eq_true (hy i), hi⟩
    | pit | rtc timer | serial timer => exact (Bool.and_true _).symm
  · obtain ⟨i, hi⟩ := hdue
    exact absurd ((hnone i).symm.trans hi) Bool.false_ne_true

/-- What cannot be due need not be handled. -/
theorem Handles.congr {done done' : TimerId → Bool} (h : Handles T done y z)
    (hdone : ∀ t, done t = done' t) : Handles T done' y z := funext hdone ▸ h

/-- What is due for another device is still recorded afterwards. -/
theorem Handles.still {m m' : TimerModule} {completed : BitVec 32}
    (h : Handles T (dueOf m completed) y z) (hne : m' ≠ m)
    (hdue : ∀ t, dueOf m' completed t = true → y.recorded t = true) :
    ∀ t, dueOf m' completed t = true → z.recorded t = true := by
  intro t ht
  have hdevice : t.device = m' := of_decide_eq_true (Bool.and_eq_true_iff.1 ht).1
  have hother : dueOf m completed t = false := by
    rw [dueOf, decide_eq_false (hdevice ▸ hne), Bool.false_and]
  rw [h.recorded, hdue t ht, hother]
  rfl

/-- A device that is called only if one of its timers has completed. -/
theorem dueOf_eq_false {m : TimerModule} {completed : BitVec 32} {P : Prop}
    (h : ∀ t : TimerId, t.device = m → has completed t.number = true → P) (hnot : ¬P)
    (t : TimerId) :
    dueOf m completed t = false := by
  rw [← Bool.not_eq_true]
  intro hdue
  obtain ⟨hdevice, hhas⟩ := Bool.and_eq_true_iff.1 hdue
  exact hnot (h t (of_decide_eq_true hdevice) hhas)

section

variable (rtcNow characterNow : BitVec 64) (serialTimes : Serial.Times)
  (hpetNow : Fin Hpet.hpetMaxTimers → BitVec 64) (fuel : ℕ)

/-- The calls that have nothing to do with the devices here. -/
theorem foldlM_call_rest {rest : List (Call n φ)}
    (h : ∀ k ∈ rest, (∃ irq, k = .vmInjectIrq irq) ∨ ∃ i func, k = .notify i func) :
    rest.foldlM (call T rtcNow characterNow serialTimes hpetNow fuel) y = some y := by
  induction rest with
  | nil => rfl
  | cons k rest ih =>
    have hk : call T rtcNow characterNow serialTimes hpetNow fuel y k = some y := by
      obtain ⟨irq, rfl⟩ | ⟨i, func, rfl⟩ := h k List.mem_cons_self <;> rfl
    rw [List.foldlM_cons, hk]
    exact ih fun k' hk' ↦ h k' (List.mem_cons_of_mem _ hk')

/-- A call that is made only if there is something to do. -/
theorem handles_ite {P : Prop} [Decidable P] {k : Call n φ} {done : TimerId → Bool}
    (hdo : P → ∀ z, call T rtcNow characterNow serialTimes hpetNow fuel y k = some z →
      Handles T done y z)
    (hnot : ¬P → ∀ t, done t = false)
    (h : (if P then [k] else []).foldlM (call T rtcNow characterNow serialTimes hpetNow fuel) y =
      some z) : Handles T done y z := by
  split at h
  · rename_i hP
    obtain ⟨u, hu, hrest⟩ := Option.bind_eq_some_iff.1 h
    obtain rfl := Option.some.inj hrest
    exact hdo hP u hu
  · rename_i hP
    obtain rfl := Option.some.inj h
    exact (Handles.refl y).congr fun t ↦ (hnot hP t).symm

/-! #### The four calls

Each takes the same two facts: what is due for the device is still recorded when it is called, and a
bit that the `if` around the call tests is the number of a timer of the device. -/

variable {completed : BitVec 32}

theorem has_iff {k : ℕ} : has completed k = true ↔ completed &&& bit k ≠ 0 := decide_eq_true_iff

theorem handles_pitCall (hrecorded : ∀ t, dueOf .pit completed t = true → y.recorded t = true)
    (h : (if completed &&& bit timerPit ≠ 0 then [.pitTimerInterrupt] else []).foldlM
      (call T rtcNow characterNow serialTimes hpetNow fuel) y = some z) :
    Handles T (dueOf .pit completed) y z := by
  refine handles_ite _ _ _ _ _ (fun hP z hz ↦ ?_) (dueOf_eq_false fun t hdevice hdue ↦ ?_) h
  · obtain rfl := Option.some.inj hz
    exact handles_pit (has_iff.2 hP) hrecorded
  · cases t with
    | pit => exact has_iff.1 hdue
    | rtc | serial | hpet => cases hdevice

theorem handles_rtcCall (hrecorded : ∀ t, dueOf .rtc completed t = true → y.recorded t = true)
    (h : (if completed &&& (bit timerPeriodicTimer ||| bit timerCoalescedTimer |||
        bit timerSecondTimer ||| bit timerSecondTimer2) ≠ 0
        then [.rtcTimerInterrupt completed] else []).foldlM
      (call T rtcNow characterNow serialTimes hpetNow fuel) y = some z) :
    Handles T (dueOf .rtc completed) y z := by
  refine handles_ite _ _ _ _ _ (fun hP z hz ↦ ?_) (dueOf_eq_false fun t hdevice hdue ↦ ?_) h
  · obtain rfl := Option.some.inj hz
    exact handles_rtc _ hrecorded
  · rw [has_iff] at hdue
    simp only [and_or_ne_zero_iff]
    cases t with
    | rtc timer => cases timer <;> simp_all [TimerId.number, rtcTimer]
    | pit | serial | hpet => cases hdevice

theorem handles_serialCall (hrecorded : ∀ t, dueOf .serial completed t = true → y.recorded t = true)
    (hmodem : has completed timerModemStatusTimer = false)
    (h : (if completed &&& (bit timerFifoTimeout ||| bit timerTransmitTimer |||
        bit timerModemStatusTimer ||| bit timerMoreChars) ≠ 0
        then [.serialTimerInterrupt completed] else []).foldlM
      (call T rtcNow characterNow serialTimes hpetNow fuel) y = some z) :
    Handles T (dueOf .serial completed) y z := by
  refine handles_ite _ _ _ _ _ (fun hP z hz ↦ ?_) (dueOf_eq_false fun t hdevice hdue ↦ ?_) h
  · obtain rfl := Option.some.inj hz
    exact handles_serial _ hrecorded hmodem
  · rw [has_iff] at hdue
    simp only [and_or_ne_zero_iff]
    cases t with
    | serial timer => cases timer <;> simp_all [TimerId.number, serialTimer]
    | pit | rtc | hpet => cases hdevice

/-- The bits tested for the HPET are the numbers of its timers. -/
theorem hpetBits_iff :
    completed &&& (bit timerHpet0 ||| bit timerHpet1 ||| bit timerHpet2) ≠ 0 ↔
      ∃ i, has completed (TimerId.hpet i).number = true := by
  simp only [and_or_ne_zero_iff, ← has_iff, or_assoc]
  constructor
  · rintro (h | h | h)
    exacts [⟨0, h⟩, ⟨1, h⟩, ⟨2, h⟩]
  · rintro ⟨⟨i, hlt⟩, hi⟩
    obtain rfl | rfl | rfl : i = 0 ∨ i = 1 ∨ i = 2 := by
      change i < 3 at hlt
      omega
    exacts [.inl hi, .inr (.inl hi), .inr (.inr hi)]

theorem handles_hpetCall {useHpet : Bool} (hy : y.Numbered)
    (hrecorded : ∀ t, dueOf .hpet completed t = true → y.recorded t = true)
    (h : (if useHpet = true ∧ completed &&& (bit timerHpet0 ||| bit timerHpet1 |||
        bit timerHpet2) ≠ 0 then [.hpetTimerInterrupt completed] else []).foldlM
      (call T rtcNow characterNow serialTimes hpetNow fuel) y = some z) :
    Handles T (fun t ↦ useHpet && dueOf .hpet completed t) y z := by
  refine handles_ite _ _ _ _ _ (fun hP z hz ↦ ?_) (fun hnot t ↦ ?_) h
  · obtain ⟨s, hs, rfl⟩ := Option.map_eq_some_iff.1 hz
    refine (handles_hpet hy hrecorded (hpetBits_iff.1 hP.2) hs).congr fun t ↦ ?_
    rw [hP.1, Bool.true_and]
  · rw [← Bool.not_eq_true, Bool.and_eq_true]
    rintro ⟨huse, hdue⟩
    cases t with
    | hpet i => exact hnot ⟨huse, hpetBits_iff.2 ⟨i, hdue⟩⟩
    | pit | rtc | serial => cases hdue

/-- **All completions are handled** when the timer has signalled, each by its device. -/
theorem handles_timerCalls {useHpet : Bool} (hy : y.Numbered)
    (hunused : useHpet = false → ∀ i, y.recorded (.hpet i) = false)
    (h : (timerCalls n φ useHpet y.initTimerCompleted).foldlM
      (call T rtcNow characterNow serialTimes hpetNow fuel) y = some z) :
    ∃ done, Handles T done y z ∧ (∀ t, z.recorded t = false) ∧
      (useHpet = false → ∀ i, done (.hpet i) = false) := by
  have hrecorded : ∀ t, y.recorded t = has y.initTimerCompleted t.number := fun t ↦
    (has_number t).symm
  have hmodem : has y.initTimerCompleted timerModemStatusTimer = false := not_has_modemStatus
  generalize y.initTimerCompleted = completed at h hrecorded hmodem
  have hdue : ∀ m t, dueOf m completed t = true → y.recorded t = true := fun m t ht ↦
    (hrecorded t).trans (Bool.and_eq_true_iff.1 ht).2
  have hstart : call T rtcNow characterNow serialTimes hpetNow fuel y
    (.initTimerCompleted : Call n φ) = some y := rfl
  rw [timerCalls, List.foldlM_cons, hstart, Option.bind_eq_bind, Option.bind_some,
    List.foldlM_append, Option.bind_eq_bind, Option.bind_eq_some_iff] at h
  obtain ⟨u₃, h, hhpet⟩ := h
  rw [List.foldlM_append, Option.bind_eq_bind, Option.bind_eq_some_iff] at h
  obtain ⟨u₂, h, hserial⟩ := h
  rw [List.foldlM_append, Option.bind_eq_bind, Option.bind_eq_some_iff] at h
  obtain ⟨u₁, hpit, hrtc⟩ := h
  have h₁ := handles_pitCall _ _ _ _ _ (hdue .pit) hpit
  have hdue₁ : ∀ m, m ≠ .pit → ∀ t, dueOf m completed t = true → u₁.recorded t = true :=
    fun m hm ↦ h₁.still hm (hdue m)
  have h₂ := handles_rtcCall _ _ _ _ _ (hdue₁ .rtc (by decide)) hrtc
  have hdue₂ : ∀ m, m ≠ .pit → m ≠ .rtc → ∀ t, dueOf m completed t = true →
      u₂.recorded t = true := fun m hm hm' ↦ h₂.still hm' (hdue₁ m hm)
  have h₃ := handles_serialCall _ _ _ _ _ (hdue₂ .serial (by decide) (by decide)) hmodem hserial
  have h₄ := handles_hpetCall _ _ _ _ _
    (h₃.numbered (h₂.numbered (h₁.numbered hy)))
    (h₃.still (by decide) (hdue₂ .hpet (by decide) (by decide))) hhpet
  refine ⟨_, ((h₁.trans h₂).trans h₃).trans h₄, fun t ↦ ?_, fun hno i ↦ ?_⟩
  · rw [(((h₁.trans h₂).trans h₃).trans h₄).recorded]
    cases t with
    | hpet i =>
      cases huse : useHpet with
      | false => rw [hunused huse i, Bool.false_and]
      | true =>
        rw [hrecorded]
        simp [dueOf, TimerId.device]
    | pit | rtc timer | serial timer =>
      rw [hrecorded]
      simp [dueOf, TimerId.device]
  · simp [dueOf, TimerId.device, hno]

end

end

/-! ## Everything together -/

/-- The devices have run as their own models say, and nobody has to wait for a signal that does not
come. -/
structure Composed (T : Rtc.FieldTypes) (c : Notifications w φ)
    (start y : Vmm w c.devices.length φ) : Prop where
  /-- Each device has gone through a run of its own, in which a completion is handled only when it
  is recorded. -/
  runs : Runs T start y
  /-- A completion that is recorded is going to be signalled, or has been. -/
  timers : ∀ t, y.recorded t = true → y.timerOwed = true ∨ Finds y.word (c.badge .timer)
  /-- The serial input is handled if and only if the serial server has signalled. -/
  input : y.serial.pending = true ↔ Finds y.word (c.badge .serial)
  /-- When everything has been taken, everything has been handled. -/
  settled : y.timerOwed = false → y.word = 0 →
    (∀ t, y.recorded t = false) ∧ y.serial.pending = false

/-- The invariant. -/
structure Sound (c : Notifications w φ) (y : Vmm w c.devices.length φ) : Prop where
  word : ∃ ss, y.word = merged c.badge ss
  recorded : ∀ t, y.recorded t = true → y.timerOwed = true ∨ Finds y.word (c.badge .timer)
  pending : y.serial.pending = true ↔ Finds y.word (c.badge .serial)
  numbered : y.Numbered
  unused : c.useHpet = false →
    ∀ tid, y.hpetTimers.armed tid = false ∧ y.hpetTimers.recorded tid = false

section

variable {T : Rtc.FieldTypes} {c : Notifications w φ} {bits : Source c.devices.length → ℕ}
  {y z : Vmm w c.devices.length φ}

theorem finds_zero (h : Marked 27 bits c.badge) (s : Source c.devices.length) :
    ¬Finds 0 (c.badge s) := by
  rw [← merged_nil c.badge, h.finds_merged_iff]
  exact List.not_mem_nil

/-- Which sources are found after another signal. -/
theorem Sound.finds_or (hs : Sound c y) (h : Marked 27 bits c.badge)
    (s s' : Source c.devices.length) :
    Finds (y.word ||| c.badge s) (c.badge s') ↔ Finds y.word (c.badge s') ∨ s' = s := by
  obtain ⟨ss, hword⟩ := hs.word
  rw [hword, ← merged_concat, h.finds_merged_iff, h.finds_merged_iff, List.mem_append,
    List.mem_singleton]

/-- What changes nothing about signals and completions. -/
theorem Sound.frame (hs : Sound c y) (hrecorded : ∀ t, z.recorded t = y.recorded t)
    (hpending : z.serial.pending = y.serial.pending) (hword : z.word = y.word)
    (howed : z.timerOwed = y.timerOwed) (hnumbered : z.Numbered)
    (hunused : c.useHpet = false → z.hpetTimers = y.hpetTimers) : Sound c z := by
  refine ⟨hword ▸ hs.word, fun t ht ↦ ?_, ?_, hnumbered, fun huse ↦ hunused huse ▸ hs.unused huse⟩
  · rw [hword, howed]
    exact hs.recorded t ((hrecorded t).symm.trans ht)
  · rw [hword, hpending]
    exact hs.pending

/-- An access of the PIT. -/
theorem Sound.withPit (hs : Sound c y) (s : Pit.PITCommonState) : Sound c (y.withPit s) := by
  refine hs.frame (fun t ↦ ?_) rfl rfl rfl hs.numbered fun _ ↦ rfl
  cases t with
  | pit => exact congrFun (Timers.recorded_obeyAll ..) ()
  | rtc | serial | hpet => rfl

/-- An access of the RTC. -/
theorem Sound.withRtc (hs : Sound c y) (rtc : Rtc.Machine)
    (h : ∀ timer, rtc.timers.recorded timer = y.rtc.timers.recorded timer) :
    Sound c { y with rtc := rtc } := by
  refine hs.frame (fun t ↦ ?_) rfl rfl rfl hs.numbered fun _ ↦ rfl
  cases t with
  | rtc timer => exact h timer
  | pit | serial | hpet => rfl

/-- An access of the UART, or a new character. -/
theorem Sound.withSerial (hs : Sound c y) (serial : Serial.Machine)
    (h : ∀ timer, serial.timers.recorded timer = y.serial.timers.recorded timer)
    (hpending : serial.pending = y.serial.pending) : Sound c { y with serial := serial } := by
  refine hs.frame (fun t ↦ ?_) hpending rfl rfl hs.numbered fun _ ↦ rfl
  cases t with
  | serial timer => exact h timer
  | pit | rtc | hpet => rfl

/-- An access of the HPET. -/
theorem Sound.withHpet (hs : Sound c y) (huse : c.useHpet = true) {s : Hpet.HPETState}
    {a : Hpet.Label} (h : Hpet.Step y.hpet a s) : Sound c (y.withHpet s) := by
  refine hs.frame (fun t ↦ ?_) rfl rfl rfl (fun i ↦ (Hpet.tid_step h i).trans (hs.numbered i))
    fun hno ↦ absurd (huse.symm.trans hno) nofun
  cases t with
  | hpet i => exact congrFun (Timers.recorded_obeyAll ..) (timerHpet0 + i)
  | pit | rtc | serial => rfl

/-- A signal of another source than the timer and the serial input. -/
theorem Sound.signal (hs : Sound c y) (h : Marked 27 bits c.badge) {s : Source c.devices.length}
    (hs' : s ≠ .timer ∧ s ≠ .serial) : Sound c { y with word := y.word ||| c.badge s } := by
  obtain ⟨ss, hword⟩ := hs.word
  refine ⟨⟨ss ++ [s], by rw [merged_concat, hword]⟩, fun t ht ↦ ?_, ?_, hs.numbered, hs.unused⟩
  · exact (hs.recorded t ht).imp id fun hfinds ↦ (hs.finds_or h _ _).2 (.inl hfinds)
  · rw [hs.finds_or h, hs.pending, or_iff_left hs'.2.symm]

/-- The signal of the time server. -/
theorem Sound.signalTimer (hs : Sound c y) (h : Marked 27 bits c.badge) :
    Sound c { y with timerOwed := false, word := y.word ||| c.badge .timer } := by
  obtain ⟨ss, hword⟩ := hs.word
  refine ⟨⟨ss ++ [.timer], by rw [merged_concat, hword]⟩, fun t ht ↦ ?_, ?_, hs.numbered,
    hs.unused⟩
  · exact .inr ((hs.finds_or h _ _).2 (.inr rfl))
  · rw [hs.finds_or h, hs.pending, or_iff_left nofun]

/-- The signal of the serial server. -/
theorem Sound.signalSerial (hs : Sound c y) (h : Marked 27 bits c.badge) :
    Sound c { y with
      serial := y.serial.next .signal
      word := y.word ||| c.badge .serial } := by
  obtain ⟨ss, hword⟩ := hs.word
  refine ⟨⟨ss ++ [.serial], by rw [merged_concat, hword]⟩, fun t ht ↦ ?_, ?_, hs.numbered,
    hs.unused⟩
  · have ht' : y.recorded t = true := by cases t <;> exact ht
    exact (hs.recorded t ht').imp id fun hfinds ↦ (hs.finds_or h _ _).2 (.inl hfinds)
  · rw [hs.finds_or h]
    exact iff_of_true rfl (.inr rfl)

/-- A deadline passes: the time server is going to signal. -/
theorem Sound.expire (hs : Sound c y) {t : TimerId} (h : y.armed t = true) :
    Runs T y { y.expire T t with timerOwed := true } ∧
      Sound c { y.expire T t with timerOwed := true } := by
  refine ⟨?_, ?_, fun _ _ ↦ .inl rfl, ?_, ?_, fun huse ↦ ?_⟩
  · cases t with
    | pit => exact .of_pit (e := .expire) h rfl rfl rfl rfl
    | hpet i => exact .of_hpet (.single (.expire (y := y.hpetMachine) h)) rfl rfl rfl
    | rtc timer => exact .of_rtc (e := .expire timer) h rfl rfl rfl rfl
    | serial timer => exact .of_serial (e := .expire timer) h rfl rfl rfl rfl
  · cases t <;> exact hs.word
  · cases t <;> exact hs.pending
  · cases t <;> exact hs.numbered
  · cases t with
    | hpet i => exact absurd ((hs.unused huse _).1.symm.trans h) nofun
    | pit | rtc timer | serial timer => exact hs.unused huse

/-- Half way through `handle_async_event`: the completions have been handled. -/
structure TimersHandled (c : Notifications w φ) (pending : Bool) (y : Vmm w c.devices.length φ) :
    Prop where
  word : y.word = 0
  recorded : ∀ t, y.recorded t = true → y.timerOwed = true
  pending : y.serial.pending = pending
  numbered : y.Numbered
  unused : c.useHpet = false →
    ∀ tid, y.hpetTimers.armed tid = false ∧ y.hpetTimers.recorded tid = false

/-- The first part of `handle_async_event`. -/
theorem Sound.timersHandled (hs : Sound c y) {rtcNow characterNow : BitVec 64}
    {serialTimes : Serial.Times} {hpetNow : Fin Hpet.hpetMaxTimers → BitVec 64} {fuel : ℕ}
    {called : List (Call c.devices.length φ)}
    (h : (if Finds y.word c.timerBadge
        then timerCalls c.devices.length φ c.useHpet y.initTimerCompleted else []).foldlM
      (call T rtcNow characterNow serialTimes hpetNow fuel)
      { y with word := 0, called := called } = some z) :
    Runs T y z ∧ TimersHandled c y.serial.pending z := by
  split at h
  · obtain ⟨done, hdone, hnone, hhpet⟩ := handles_timerCalls rtcNow characterNow serialTimes hpetNow
      fuel (y := { y with word := 0, called := called }) hs.numbered
      (fun huse i ↦ (hs.unused huse _).2) h
    have hstart : Runs T y { y with word := 0, called := called } := .of_same rfl rfl rfl rfl
    refine ⟨hstart.trans hdone.runs, hdone.word, fun t ht ↦ ?_,
      hdone.pending, hdone.numbered hs.numbered, fun huse ↦ ?_⟩
    · exact absurd ((hnone t).symm.trans ht) nofun
    · rw [hdone.hpet (hhpet huse)]
      exact hs.unused huse
  · rename_i hfinds
    obtain rfl := Option.some.inj h
    refine ⟨.of_same rfl rfl rfl rfl, rfl, fun t ht ↦ ?_, rfl, hs.numbered, hs.unused⟩
    have ht' : y.recorded t = true := by cases t <;> exact ht
    exact (hs.recorded t ht').resolve_right hfinds

/-- The second part: the serial input. -/
theorem TimersHandled.character {pending : Bool} (hm : Marked 27 bits c.badge)
    (hs : TimersHandled c pending y) {rtcNow characterNow : BitVec 64} {serialTimes : Serial.Times}
    {hpetNow : Fin Hpet.hpetMaxTimers → BitVec 64} {fuel : ℕ} {P : Prop} [Decidable P]
    (hP : pending = true ↔ P)
    (h : (if P then [.serialCharacterInterrupt] else []).foldlM
      (call T rtcNow characterNow serialTimes hpetNow fuel) y = some z) :
    Runs T y z ∧ Sound c z := by
  split at h
  · rename_i hfinds
    have hz : some { y with serial := y.serial.next (.character characterNow) } = some z := h
    obtain rfl := Option.some.inj hz
    refine ⟨.of_serial (e := .character characterNow) (hs.pending.trans (hP.2 hfinds)) rfl rfl rfl
      rfl, ⟨[], hs.word⟩, fun t ht ↦ ?_, ?_, hs.numbered, hs.unused⟩
    · refine .inl (hs.recorded t ?_)
      cases t with
      | serial timer => exact (congrFun (Timers.recorded_obeyAll ..) timer).symm.trans ht
      | pit | rtc timer | hpet i => exact ht
    · rw [hs.word]
      exact iff_of_false nofun (finds_zero hm _)
  · rename_i hfinds
    obtain rfl := Option.some.inj h
    refine ⟨.refl y, ⟨[], hs.word⟩, fun t ht ↦ .inl (hs.recorded t ht), ?_, hs.numbered, hs.unused⟩
    rw [hs.word, hs.pending, hP]
    exact iff_of_false hfinds (finds_zero hm _)

/-- **The VMM takes the word**: all completions are handled, and the serial input. -/
theorem Sound.asyncEvent (hw : 32 ≤ w) (h : Wired c bits) (hs : Sound c y) (hword : y.word ≠ 0)
    {rtcNow characterNow : BitVec 64} {serialTimes : Serial.Times}
    {hpetNow : Fin Hpet.hpetMaxTimers → BitVec 64} {fuel : ℕ}
    (hnext : y.next T c (.asyncEvent rtcNow characterNow serialTimes hpetNow fuel) = some z) :
    Runs T y z ∧ Sound c z := by
  have hm := h.marked hw
  obtain ⟨calls, hcalls, hz⟩ := Option.bind_eq_some_iff.1 hnext
  -- somebody signalled, so the mark is there
  have hmark : y.word.getLsbD 27 = true := by
    obtain ⟨ss, hss⟩ := hs.word
    cases ss with
    | nil => exact absurd hss hword
    | cons s ss =>
      rw [hss, getLsbD_merged]
      exact ⟨s, List.mem_cons_self, (hm.getLsbD_badge s (by omega)).2 (.inl rfl)⟩
  rw [handleAsyncEvent, if_pos ((and_twoPow_ne_zero_iff _ (by omega)).2 hmark)] at hcalls
  obtain ⟨devices, hdevices, rfl⟩ := Option.map_eq_some_iff.1 hcalls
  rw [List.foldlM_append, Option.bind_eq_bind, Option.bind_eq_some_iff] at hz
  obtain ⟨u₃, hz, hrest⟩ := hz
  rw [List.foldlM_append, Option.bind_eq_bind, Option.bind_eq_some_iff] at hz
  obtain ⟨u₂, hz, hpic⟩ := hz
  rw [List.foldlM_append, Option.bind_eq_bind, Option.bind_eq_some_iff] at hz
  obtain ⟨u₁, htimer, hserial⟩ := hz
  rw [foldlM_call_rest] at hrest hpic
  rotate_left
  · intro k hk
    obtain ⟨irq, -, rfl⟩ := List.mem_map.1 hk
    exact .inl ⟨irq, rfl⟩
  · exact fun k hk ↦ .inr (eq_notify_of_mem hdevices k hk)
  obtain rfl := Option.some.inj hrest
  obtain rfl := Option.some.inj hpic
  obtain ⟨hruns, hhandled⟩ := hs.timersHandled htimer
  obtain ⟨hruns', hsound⟩ := hhandled.character hm hs.pending hserial
  exact ⟨hruns.trans hruns', hsound⟩

/-- **What one event does.** -/
theorem Sound.step (hw : 32 ≤ w) (h : Wired c bits) (hs : Sound c y)
    {e : VmmEvent c.devices.length} (hstep : Step T c y e z) : Runs T y z ∧ Sound c z := by
  have hm := h.marked hw
  obtain ⟨hen, hnext⟩ := hstep
  have hrecorded := Rtc.recorded_next T y.rtc
  cases e with
  | pitIn addr now =>
    obtain rfl := Option.some.inj hnext
    exact ⟨.of_pit (e := .portIn addr now) trivial rfl rfl rfl rfl, hs.withPit _⟩
  | pitOut addr val clock clock' =>
    obtain rfl := Option.some.inj hnext
    exact ⟨.of_pit (e := .portOut addr val clock clock') trivial rfl rfl rfl rfl, hs.withPit _⟩
  | rtcIn addr =>
    obtain rfl := Option.some.inj hnext
    exact ⟨.of_rtc (e := .portIn addr) trivial rfl rfl rfl rfl, hs.withRtc _ (hrecorded _)⟩
  | rtcOut addr data now =>
    obtain rfl := Option.some.inj hnext
    exact ⟨.of_rtc (e := .portOut addr data now) trivial rfl rfl rfl rfl,
      hs.withRtc _ (hrecorded _)⟩
  | serialIn addr now =>
    obtain rfl := Option.some.inj hnext
    exact ⟨.of_serial (e := .portIn addr now) trivial rfl rfl rfl rfl,
      hs.withSerial _ (fun timer ↦ congrFun (Timers.recorded_obeyAll ..) timer) rfl⟩
  | serialOut addr val times =>
    obtain rfl := Option.some.inj hnext
    exact ⟨.of_serial (e := .portOut addr val times) trivial rfl rfl rfl rfl,
      hs.withSerial _ (fun timer ↦ congrFun (Timers.recorded_obeyAll ..) timer) rfl⟩
  | hpetRead offset now =>
    obtain ⟨r, hr, rfl⟩ := Option.map_eq_some_iff.1 hnext
    have hread : Hpet.Step y.hpet (.read offset now) y.hpet := .read hen.2 hr
    exact ⟨.of_hpet (.single (.read (y := y.hpetMachine) hread)) rfl rfl rfl, hs⟩
  | hpetWrite offset value now =>
    obtain ⟨s, hs', rfl⟩ := Option.map_eq_some_iff.1 hnext
    have hwrite : Hpet.Step y.hpet (.write offset value now) s := .write hen.2 hs'
    exact ⟨.of_hpet (.single (.write (y := y.hpetMachine) hwrite)) rfl rfl rfl,
      hs.withHpet hen.1 hwrite⟩
  | expire timer =>
    obtain rfl := Option.some.inj hnext
    exact hs.expire hen
  | signalTimer =>
    obtain rfl := Option.some.inj hnext
    exact ⟨.of_same rfl rfl rfl rfl, hs.signalTimer hm⟩
  | enqueue ch =>
    obtain rfl := Option.some.inj hnext
    exact ⟨.of_serial (e := .enqueue ch) hen rfl rfl rfl rfl,
      hs.withSerial _ (fun _ ↦ rfl) rfl⟩
  | signalSerial =>
    obtain rfl := Option.some.inj hnext
    exact ⟨.of_serial (e := .signal) hen rfl rfl rfl rfl, hs.signalSerial hm⟩
  | signal source =>
    obtain rfl := Option.some.inj hnext
    exact ⟨.of_same rfl rfl rfl rfl, hs.signal hm hen⟩
  | asyncEvent => exact hs.asyncEvent hw h hen hnext

theorem recorded_pit : y.recorded .pit = y.pitTimers.recorded () := rfl

theorem pitTimers_init (pitNow : BitVec 64) (pitClock : Fin 3 → BitVec 64)
    (date : Rtc.RtcTimeDate) (rtcNow : ℤ) (serialNow : BitVec 64) :
    (init T c pitNow pitClock date rtcNow serialNow).pitTimers =
      Timers.idle.obeyAll Pit.timerCommand (Pit.pitPreInit pitNow pitClock).log := rfl

theorem recorded_init (pitNow : BitVec 64) (pitClock : Fin 3 → BitVec 64) (date : Rtc.RtcTimeDate)
    (rtcNow : ℤ) (serialNow : BitVec 64) (t : TimerId) :
    (init T c pitNow pitClock date rtcNow serialNow).recorded t = false := by
  cases t with
  | pit => rw [recorded_pit, pitTimers_init, Timers.recorded_obeyAll, Timers.idle]
  | rtc timer => exact congrFun (Timers.recorded_obeyAll ..) timer
  | serial timer | hpet i => rfl

theorem sound_init (hm : Marked 27 bits c.badge) (pitNow : BitVec 64)
    (pitClock : Fin 3 → BitVec 64) (date : Rtc.RtcTimeDate) (rtcNow : ℤ) (serialNow : BitVec 64) :
    Sound c (init T c pitNow pitClock date rtcNow serialNow) where
  word := ⟨[], rfl⟩
  recorded t ht := nomatch (recorded_init pitNow pitClock date rtcNow serialNow t).symm.trans ht
  pending := iff_of_false nofun (finds_zero hm _)
  numbered := Hpet.tid_hpetPreInit _
  unused _ _ := ⟨rfl, rfl⟩

theorem Sound.composed {start : Vmm w c.devices.length φ} (hm : Marked 27 bits c.badge)
    (hruns : Runs T start y) (hs : Sound c y) : Composed T c start y := by
  refine ⟨hruns, hs.recorded, hs.pending, fun howed hword ↦ ⟨fun t ↦ ?_, ?_⟩⟩
  · rw [← Bool.not_eq_true]
    intro ht
    rcases hs.recorded t ht with howed' | hfinds
    · exact nomatch howed.symm.trans howed'
    · exact finds_zero hm _ (hword ▸ hfinds)
  · rw [← Bool.not_eq_true, hs.pending, hword]
    exact finds_zero hm _

/-- The invariant holds in every run, and the devices have run. -/
theorem run_sound (hw : 32 ≤ w) (h : Wired c bits) {pitNow : BitVec 64}
    {pitClock : Fin 3 → BitVec 64} {date : Rtc.RtcTimeDate} {rtcNow : ℤ} {serialNow : BitVec 64}
    {es : List (VmmEvent c.devices.length)}
    (hrun : Run (Step T c) (init T c pitNow pitClock date rtcNow serialNow) es y) :
    Runs T (init T c pitNow pitClock date rtcNow serialNow) y ∧ Sound c y :=
  hrun.invariant
    (I := fun y ↦ Runs T (init T c pitNow pitClock date rtcNow serialNow) y ∧ Sound c y)
    ⟨.refl _, sound_init (h.marked hw) ..⟩ fun y e z hy hstep ↦ by
      obtain ⟨hruns, hsound⟩ := hy.2.step hw h hstep
      exact ⟨hy.1.trans hruns, hsound⟩

/-- **The VMM is the environment that its devices expect**, in every run. -/
theorem run_composed (hw : 32 ≤ w) (h : Wired c bits) {pitNow : BitVec 64}
    {pitClock : Fin 3 → BitVec 64} {date : Rtc.RtcTimeDate} {rtcNow : ℤ} {serialNow : BitVec 64}
    {es : List (VmmEvent c.devices.length)}
    (hrun : Run (Step T c) (init T c pitNow pitClock date rtcNow serialNow) es y) :
    Composed T c (init T c pitNow pitClock date rtcNow serialNow) y := by
  obtain ⟨hruns, hsound⟩ := run_sound hw h hrun
  exact hsound.composed (h.marked hw) hruns

end

/-! ## A second and a character -/

/-- A VM with one connection, as it starts. -/
def starting : Vmm 64 1 Unit :=
  init Rtc.intFields oneConnection 0 (fun _ ↦ 0) ⟨0, 0, 12, 15, 6, 2017⟩ 0 0

/-- A second passes and a character comes, and the VMM takes both signals at once. -/
def secondAndCharacter : List (VmmEvent 1) :=
  [.expire (.rtc .second2), .signalTimer, .enqueue 97, .signalSerial,
    .asyncEvent 0 0 ⟨0, 0, 0⟩ (fun _ ↦ 0) 0]

/-- What becomes of the VMM. -/
def afterwards : Option (Vmm 64 1 Unit) :=
  starting.play Rtc.intFields oneConnection secondAndCharacter

theorem isSome_afterwards : afterwards.isSome = true := by decide +kernel

theorem run_secondAndCharacter :
    Run (Step Rtc.intFields oneConnection) starting secondAndCharacter
      (afterwards.get isSome_afterwards) :=
  run_foldlM (Option.some_get _).symm

/-- The second and the character are taken. -/
theorem run_composed_secondAndCharacter :
    Composed Rtc.intFields oneConnection starting (afterwards.get isSome_afterwards) :=
  run_composed (by decide) wired_oneConnection run_secondAndCharacter

end Vmm

end Platform
end CamkesVm
