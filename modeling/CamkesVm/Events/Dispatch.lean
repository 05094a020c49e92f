import CamkesVm.Lib.Coalesced
import Mathlib.Data.List.FinRange

/-!
# The events of an x86 VM

The event sources of a VM share a notification: the timer server, the serial input, the sixteen
lines of the virtual PIC, and the connections to other components.  `handle_async_event`, in the
`main.c` of the `Init` component, is given the badges of all that signalled, merged into a word.
Bit 27 is in every badge; for each source there is a subset test, and then the timer's own mask says
which of the emulated devices have a timer that completed.

The badges of the timer and of the serial input are given by generated code, as is the list of
connections; a word has `w` bits, and at least 32.  The PIC's badges are constants, each with a bit
of its own (`irqBadge_eq`).

## What is here

* `Notifications`, `Call`, `handleAsyncEvent` — what the function reads, what it calls, and the
  function: the calls in their order, or `none` where it jumps to a `NULL` pointer.
* `timerCalls` — the second level: which devices the timer's mask makes it enter, by the numbers of
  their timers.
* `Source`, `Notifications.badge`, `handlersRun` — the abstract view: sources with badges, and the
  sources whose handlers were called.
* `Wired` — bit 27 everywhere, and a bit for each source that no other source has.
* `handleAsyncEvent_eq` — a handler runs exactly if its badge is a subset of the word.
* `exact_handlersRun` — so, if the word is merged from badges of sources that signalled, exactly
  those run. This is the general law of merged signals, at the sources of this VM.
* `filterMap_enters_handleAsyncEvent` — the same for the devices with timers.

A word that nobody signalled, with bit 27 and other bits in it, may satisfy any test; nothing is
said about such a word, and a notification never delivers one.
-/

set_option autoImplicit false

namespace CamkesVm
namespace Events

open Coalesced

variable {w : ℕ} {φ : Type}

/-! ## Timers -/

/-- `TIMER_PIT` -/
def timerPit : ℕ := 0

/-- `TIMER_PERIODIC_TIMER` -/
def timerPeriodicTimer : ℕ := 1

/-- `TIMER_COALESCED_TIMER` -/
def timerCoalescedTimer : ℕ := 2

/-- `TIMER_SECOND_TIMER` -/
def timerSecondTimer : ℕ := 3

/-- `TIMER_SECOND_TIMER2` -/
def timerSecondTimer2 : ℕ := 4

/-- `TIMER_FIFO_TIMEOUT` -/
def timerFifoTimeout : ℕ := 5

/-- `TIMER_TRANSMIT_TIMER` -/
def timerTransmitTimer : ℕ := 6

/-- `TIMER_MODEM_STATUS_TIMER` -/
def timerModemStatusTimer : ℕ := 7

/-- `TIMER_MORE_CHARS` -/
def timerMoreChars : ℕ := 8

/-- `TIMER_HPET0` -/
def timerHpet0 : ℕ := 9

/-- `TIMER_HPET1` -/
def timerHpet1 : ℕ := 10

/-- `TIMER_HPET2` -/
def timerHpet2 : ℕ := 11

/-- `BIT(n)`, in a mask of completed timers. -/
def bit (n : ℕ) : BitVec 32 := BitVec.twoPow 32 n

/-! ## Sources and handlers -/

/-- `VM_PIC_BADGE_IRQ_0` to `VM_PIC_BADGE_IRQ_15` -/
def irqBadges : Vector ℕ 16 :=
  #v[134217730, 134217732, 134217736, 134217744, 134217760, 134217792, 134217856, 134217984,
    134218240, 134218752, 134219776, 134221824, 134225920, 134234112, 134250496, 134283264]

/-- The badge of a line of the PIC. -/
def irqBadge (w : ℕ) (irq : Fin 16) : BitVec w := BitVec.ofNat w irqBadges[irq]

/-- A connection, `device_notify_t`. -/
structure DeviceNotify (φ : Type) where
  /-- Its badge. -/
  badge : BitVec 32
  /-- The function to call, if it is not `NULL`. -/
  func : Option φ

/-- What `handle_async_event` reads. -/
structure Notifications (w : ℕ) (φ : Type) where
  /-- `init_timer_notification_badge()` -/
  timerBadge : BitVec w
  /-- `serial_getchar_notification_badge()` -/
  serialBadge : BitVec w
  /-- `device_notify_list`, with its length. -/
  devices : List (DeviceNotify φ)
  /-- `CONFIG_VMM_USE_HPET` -/
  useHpet : Bool

/-- What `handle_async_event` calls. -/
inductive Call (n : ℕ) (φ : Type)
  /-- `init_timer_completed()` -/
  | initTimerCompleted
  /-- `pit_timer_interrupt()` -/
  | pitTimerInterrupt
  /-- `rtc_timer_interrupt(completed)` -/
  | rtcTimerInterrupt (completed : BitVec 32)
  /-- `serial_timer_interrupt(completed)` -/
  | serialTimerInterrupt (completed : BitVec 32)
  /-- `hpet_timer_interrupt(completed)` -/
  | hpetTimerInterrupt (completed : BitVec 32)
  /-- `serial_character_interrupt()` -/
  | serialCharacterInterrupt
  /-- `vm_inject_irq(vcpu, irq)` -/
  | vmInjectIrq (irq : Fin 16)
  /-- `device_notify_list[i].func(vm)` -/
  | notify (i : Fin n) (func : φ)

/-! ## Dispatch -/

/-- What is called when the timer signalled, given what `init_timer_completed()` returns. -/
def timerCalls (n : ℕ) (φ : Type) (useHpet : Bool) (completed : BitVec 32) : List (Call n φ) :=
  .initTimerCompleted ::
  ((if completed &&& bit timerPit ≠ 0 then [.pitTimerInterrupt] else []) ++
  (if completed &&& (bit timerPeriodicTimer ||| bit timerCoalescedTimer ||| bit timerSecondTimer |||
      bit timerSecondTimer2) ≠ 0
    then [.rtcTimerInterrupt completed] else []) ++
  (if completed &&& (bit timerFifoTimeout ||| bit timerTransmitTimer |||
      bit timerModemStatusTimer |||
      bit timerMoreChars) ≠ 0
    then [.serialTimerInterrupt completed] else []) ++
  if useHpet = true ∧ completed &&& (bit timerHpet0 ||| bit timerHpet1 ||| bit timerHpet2) ≠ 0
    then [.hpetTimerInterrupt completed] else [])

/-- The last loop, over the connections.  A function that is `NULL` aborts it. -/
def notifyDevices (devices : List (DeviceNotify φ)) (badge : BitVec w) :
    Option (List (Call devices.length φ)) :=
  ((List.finRange devices.length).filter fun i ↦
      Finds badge ((devices.get i).badge.setWidth w)).mapM fun i ↦
    (devices.get i).func.map (.notify i)

/-- `handle_async_event` -/
def handleAsyncEvent (c : Notifications w φ) (badge : BitVec w) (completed : BitVec 32) :
    Option (List (Call c.devices.length φ)) :=
  if badge &&& BitVec.twoPow w 27 ≠ 0 then
    let timer := if Finds badge c.timerBadge
      then timerCalls c.devices.length φ c.useHpet completed else []
    let serial := if Finds badge c.serialBadge then [.serialCharacterInterrupt] else []
    let pic := ((List.finRange 16).filter fun irq ↦ Finds badge (irqBadge w irq)).map .vmInjectIrq
    (notifyDevices c.devices badge).map fun devices ↦ timer ++ serial ++ pic ++ devices
  else some []

/-! ## The sources -/

/-- A source of events. -/
inductive Source (n : ℕ)
  /-- The timer server. -/
  | timer
  /-- The serial input. -/
  | serial
  /-- A line of the PIC. -/
  | pic (irq : Fin 16)
  /-- A connection. -/
  | device (i : Fin n)
  deriving DecidableEq

/-- All sources, in the order of their tests. -/
def Source.all (n : ℕ) : List (Source n) :=
  [.timer, .serial] ++ (List.finRange 16).map .pic ++ (List.finRange n).map .device

/-- The source whose handler a call is. -/
def Call.source {n : ℕ} : Call n φ → Option (Source n)
  | .initTimerCompleted => some .timer
  | .serialCharacterInterrupt => some .serial
  | .vmInjectIrq irq => some (.pic irq)
  | .notify i _ => some (.device i)
  | .pitTimerInterrupt | .rtcTimerInterrupt _ | .serialTimerInterrupt _ | .hpetTimerInterrupt _ =>
    none

/-- The badge of a source. -/
def Notifications.badge (c : Notifications w φ) : Source c.devices.length → BitVec w
  | .timer => c.timerBadge
  | .serial => c.serialBadge
  | .pic irq => irqBadge w irq
  | .device i => (c.devices.get i).badge.setWidth w

/-- The sources whose handlers run. -/
def handlersRun (c : Notifications w φ) (badge : BitVec w) (completed : BitVec 32) :
    List (Source c.devices.length) :=
  ((handleAsyncEvent c badge completed).getD []).filterMap Call.source

/-- Every source has bit 27 and a bit of its own, and every connection a function. -/
structure Wired (c : Notifications w φ) (bits : Source c.devices.length → ℕ) : Prop where
  /-- The badge of the timer server. -/
  timer : c.timerBadge = BitVec.twoPow w 27 ||| BitVec.twoPow w (bits .timer)
  /-- The badge of the serial input. -/
  serial : c.serialBadge = BitVec.twoPow w 27 ||| BitVec.twoPow w (bits .serial)
  /-- The bits of the PIC. -/
  pic : ∀ irq, bits (.pic irq) = irq + 1
  /-- The badges of the connections. -/
  device : ∀ i, (c.devices.get i).badge =
    BitVec.twoPow 32 27 ||| BitVec.twoPow 32 (bits (.device i))
  /-- Connections have functions. -/
  func : ∀ i, ((c.devices.get i).func).isSome = true
  /-- No two sources have the same bit. -/
  injective : Function.Injective bits
  /-- No source has bit 27 for its own. -/
  ne_mark : ∀ s, bits s ≠ 27
  /-- A word has the bit of the timer server. -/
  timer_lt : bits .timer < w
  /-- A word has the bit of the serial input. -/
  serial_lt : bits .serial < w
  /-- A badge of a connection has its bit. -/
  device_lt : ∀ i, bits (.device i) < 32

theorem setWidth_twoPow (w : ℕ) {k : ℕ} (hk : k < 32) :
    (BitVec.twoPow 32 k).setWidth w = BitVec.twoPow w k := by
  refine BitVec.eq_of_getLsbD_eq fun j hj ↦ ?_
  rw [BitVec.getLsbD_setWidth, BitVec.getLsbD_twoPow, BitVec.getLsbD_twoPow]
  by_cases hjk : k = j
  · subst hjk
    simp [hj, hk]
  · simp [hjk]

theorem ofNat_two_pow (w k : ℕ) : BitVec.ofNat w (2 ^ k) = BitVec.twoPow w k := by
  refine BitVec.eq_of_getLsbD_eq fun j hj ↦ ?_
  rw [BitVec.getLsbD_ofNat, BitVec.getLsbD_twoPow, Nat.testBit_two_pow]
  by_cases hjk : k = j
  · subst hjk
    simp
  · simp [hjk]

/-- A C condition `x & BIT(k)`. -/
theorem and_twoPow_ne_zero_iff (x : BitVec w) {k : ℕ} (hk : k < w) :
    x &&& BitVec.twoPow w k ≠ 0 ↔ x.getLsbD k = true := by
  rw [BitVec.and_twoPow]
  split
  · rename_i hbit
    refine iff_of_true (fun hzero ↦ ?_) hbit
    have hnat := congrArg BitVec.toNat hzero
    rw [BitVec.toNat_twoPow_of_lt hk] at hnat
    exact absurd hnat (Nat.two_pow_pos k).ne'
  · rename_i hbit
    exact iff_of_false (not_not_intro rfl) hbit

/-- **The table of the PIC's badges**: line `irq` has bits 27 and `irq + 1`. -/
theorem irqBadge_eq (w : ℕ) (irq : Fin 16) :
    irqBadge w irq = BitVec.twoPow w 27 ||| BitVec.twoPow w (irq + 1) := by
  have htable : ∀ irq : Fin 16, irqBadges[irq] = 2 ^ 27 ||| 2 ^ (irq.val + 1) := by decide
  rw [irqBadge, htable, BitVec.ofNat_or, ofNat_two_pow, ofNat_two_pow]

section

variable {c : Notifications w φ} {bits : Source c.devices.length → ℕ}

theorem Wired.marked (hw : 32 ≤ w) (h : Wired c bits) : Marked 27 bits c.badge where
  badge_eq s := by
    cases s with
    | timer => exact h.timer
    | serial => exact h.serial
    | pic irq =>
      rw [h.pic]
      exact irqBadge_eq w irq
    | device i =>
      change (c.devices.get i).badge.setWidth w = _
      rw [h.device, BitVec.setWidth_or, setWidth_twoPow w (by decide),
        setWidth_twoPow w (h.device_lt i)]
  injective := h.injective
  ne_mark := h.ne_mark
  lt s := by
    cases s with
    | timer => exact h.timer_lt
    | serial => exact h.serial_lt
    | pic irq =>
      rw [h.pic]
      omega
    | device i => exact (h.device_lt i).trans_le hw

theorem nodup_all (n : ℕ) : (Source.all n).Nodup := by
  have hpic : ((List.finRange 16).map (Source.pic (n := n))).Nodup :=
    (List.nodup_finRange 16).map fun _ _ h ↦ Source.pic.inj h
  have hdevice : ((List.finRange n).map Source.device).Nodup :=
    (List.nodup_finRange n).map fun _ _ h ↦ Source.device.inj h
  rw [Source.all]
  refine List.nodup_append.mpr ⟨List.nodup_append.mpr ⟨by simp, hpic, by simp⟩, hdevice, by simp⟩

theorem mem_all {n : ℕ} (s : Source n) : s ∈ Source.all n := by
  cases s <;> simp [Source.all]

/-! ## The handlers that run -/

theorem filterMap_source_timerCalls (n : ℕ) (useHpet : Bool) (completed : BitVec 32) :
    (timerCalls n φ useHpet completed).filterMap Call.source = [.timer] := by
  have hinner : ∀ (P : Prop) [Decidable P] (call : Call n φ), call.source = none →
      (if P then [call] else []).filterMap Call.source = [] := by
    intro P _ call hcall
    split
    · rw [List.filterMap_cons_none hcall, List.filterMap_nil]
    · rfl
  rw [timerCalls, List.filterMap_cons_some (show Call.source .initTimerCompleted = some _ from rfl),
    List.filterMap_append, List.filterMap_append, List.filterMap_append, hinner _ _ rfl,
    hinner _ _ rfl, hinner _ _ rfl, hinner _ _ rfl]
  rfl

/-- The connections that are found are notified. -/
theorem notifyDevices_eq {devices : List (DeviceNotify φ)}
    (hfunc : ∀ i, ((devices.get i).func).isSome = true) (badge : BitVec w) :
    ∃ calls, notifyDevices devices badge = some calls ∧
      calls.filterMap Call.source = ((List.finRange devices.length).filter fun i ↦
        Finds badge ((devices.get i).badge.setWidth w)).map .device := by
  have hloop : ∀ l : List (Fin devices.length), ∃ calls,
      l.mapM (fun i ↦ (devices.get i).func.map (Call.notify i)) = some calls ∧
        calls.filterMap Call.source = l.map .device := by
    intro l
    induction l with
    | nil => exact ⟨[], rfl, rfl⟩
    | cons i l ih =>
      obtain ⟨calls, hcalls, hsource⟩ := ih
      obtain ⟨func, hi⟩ := Option.isSome_iff_exists.mp (hfunc i)
      refine ⟨.notify i func :: calls, ?_, ?_⟩
      · rw [List.mapM_cons, hi, hcalls]
        rfl
      · rw [List.filterMap_cons_some (show Call.source (.notify i func) = some _ from rfl), hsource]
        rfl
  exact hloop _

/-- **The handlers that run are those of the sources whose badges are found**, in the order of their
tests, and none is aborted. -/
theorem handleAsyncEvent_eq (h : Marked 27 bits c.badge) (hw : 27 < w)
    (hfunc : ∀ i, ((c.devices.get i).func).isSome = true) (badge : BitVec w)
    (completed : BitVec 32) : ∃ calls, handleAsyncEvent c badge completed = some calls ∧
      calls.filterMap Call.source =
        (Source.all c.devices.length).filter fun s ↦ Finds badge (c.badge s) := by
  rw [handleAsyncEvent]
  by_cases hmark : badge.getLsbD 27 = true
  · obtain ⟨calls, hcalls, hsource⟩ := notifyDevices_eq hfunc badge
    rw [if_pos ((and_twoPow_ne_zero_iff badge hw).mpr hmark), hcalls]
    refine ⟨_, rfl, ?_⟩
    have hpic : (((List.finRange 16).filter fun irq ↦ Finds badge (irqBadge w irq)).map
        (Call.vmInjectIrq (φ := φ))).filterMap Call.source =
      ((List.finRange 16).map (Source.pic (n := c.devices.length))).filter fun s ↦
        Finds badge (c.badge s) := by
      rw [List.filterMap_map, List.filter_map, ← List.filterMap_eq_map]
      rfl
    have hdevice : ((List.finRange c.devices.length).map Source.device).filter
        (fun s ↦ Finds badge (c.badge s)) = ((List.finRange c.devices.length).filter fun i ↦
          Finds badge ((c.devices.get i).badge.setWidth w)).map Source.device := List.filter_map ..
    have htests : (if Finds badge c.timerBadge
          then timerCalls c.devices.length φ c.useHpet completed else []).filterMap Call.source ++
        (if Finds badge c.serialBadge then [Call.serialCharacterInterrupt (φ := φ)]
          else []).filterMap Call.source =
        [.timer, .serial].filter fun s ↦ Finds badge (c.badge s) := by
      by_cases htimer : Finds badge c.timerBadge <;>
        by_cases hserial : Finds badge c.serialBadge <;>
        simp [Notifications.badge, htimer, hserial, filterMap_source_timerCalls, Call.source]
    rw [List.filterMap_append, List.filterMap_append, List.filterMap_append, hsource, hpic,
      Source.all, List.filter_append, List.filter_append, hdevice, htests]
  · have hzero := mt (and_twoPow_ne_zero_iff badge hw).mp hmark
    rw [if_neg hzero]
    refine ⟨[], rfl, (List.filter_eq_nil_iff.mpr fun s _ ↦ ?_).symm⟩
    simpa using h.not_finds_of_not_mark hw (by simpa using hmark) s

/-- **The handlers that run are those of the sources that signalled.** -/
theorem exact_handlersRun (hw : 32 ≤ w) (h : Wired c bits) : Exact c.badge (handlersRun c) := by
  have hmarked := h.marked hw
  refine hmarked.exact_filter (nodup_all _) mem_all fun badge completed ↦ ?_
  obtain ⟨calls, hcalls, hsource⟩ :=
    handleAsyncEvent_eq hmarked (by omega) h.func badge completed
  rw [handlersRun, hcalls]
  exact hsource

end

/-! ## The second level -/

/-- The emulated devices that have timers. -/
inductive TimerModule
  /-- The PIT. -/
  | pit
  /-- The real-time clock. -/
  | rtc
  /-- The serial port. -/
  | serial
  /-- The HPET. -/
  | hpet
  deriving DecidableEq

/-- The timers of a device. -/
def TimerModule.timers : TimerModule → List ℕ
  | .pit => [timerPit]
  | .rtc => [timerPeriodicTimer, timerCoalescedTimer, timerSecondTimer, timerSecondTimer2]
  | .serial => [timerFifoTimeout, timerTransmitTimer, timerModemStatusTimer, timerMoreChars]
  | .hpet => [timerHpet0, timerHpet1, timerHpet2]

/-- The device whose interrupt function a call enters. -/
def Call.enters {n : ℕ} : Call n φ → Option TimerModule
  | .pitTimerInterrupt => some .pit
  | .rtcTimerInterrupt _ => some .rtc
  | .serialTimerInterrupt _ => some .serial
  | .hpetTimerInterrupt _ => some .hpet
  | .initTimerCompleted | .serialCharacterInterrupt | .vmInjectIrq _ | .notify _ _ => none

/-- One of the device's own timers completed, and the device is there. -/
def TimerModule.Due (useHpet : Bool) (completed : BitVec 32) (m : TimerModule) : Prop :=
  (m = .hpet → useHpet = true) ∧ ∃ t ∈ m.timers, completed.getLsbD t = true

instance (useHpet : Bool) (completed : BitVec 32) (m : TimerModule) :
    Decidable (m.Due useHpet completed) := inferInstanceAs (Decidable (_ ∧ _))

/-- A mask has a bit in common with the union of two others. -/
theorem and_or_ne_zero_iff (x y z : BitVec w) :
    x &&& (y ||| z) ≠ 0 ↔ x &&& y ≠ 0 ∨ x &&& z ≠ 0 := by
  have hor : x &&& y ||| x &&& z = 0 ↔ x &&& y = 0 ∧ x &&& z = 0 := BitVec.or_eq_zero_iff
  rw [BitVec.and_or_distrib_left, ne_eq, hor, not_and_or]

/-- **The devices that are entered** when the timer signalled: each at most once, and exactly those
with a timer that completed. -/
theorem filterMap_enters_timerCalls (n : ℕ) (useHpet : Bool) (completed : BitVec 32) :
    (timerCalls n φ useHpet completed).filterMap Call.enters =
      [.pit, .rtc, .serial, .hpet].filter fun m ↦ m.Due useHpet completed := by
  have hbit : ∀ t < 32, (completed &&& bit t ≠ 0 ↔ completed.getLsbD t = true) := fun t ht ↦
    and_twoPow_ne_zero_iff completed ht
  have hpit : TimerModule.pit.Due useHpet completed ↔ completed &&& bit timerPit ≠ 0 := by
    rw [hbit _ (by decide)]
    simp [TimerModule.Due, TimerModule.timers]
  have hrtc : TimerModule.rtc.Due useHpet completed ↔ completed &&& (bit timerPeriodicTimer |||
      bit timerCoalescedTimer ||| bit timerSecondTimer ||| bit timerSecondTimer2) ≠ 0 := by
    simp only [and_or_ne_zero_iff]
    rw [hbit _ (by decide), hbit _ (by decide), hbit _ (by decide), hbit _ (by decide)]
    simp [TimerModule.Due, TimerModule.timers, or_assoc]
  have hserial : TimerModule.serial.Due useHpet completed ↔ completed &&& (bit timerFifoTimeout |||
      bit timerTransmitTimer ||| bit timerModemStatusTimer ||| bit timerMoreChars) ≠ 0 := by
    simp only [and_or_ne_zero_iff]
    rw [hbit _ (by decide), hbit _ (by decide), hbit _ (by decide), hbit _ (by decide)]
    simp [TimerModule.Due, TimerModule.timers, or_assoc]
  have hhpet : TimerModule.hpet.Due useHpet completed ↔
      useHpet = true ∧
        completed &&& (bit timerHpet0 ||| bit timerHpet1 ||| bit timerHpet2) ≠ 0 := by
    simp only [and_or_ne_zero_iff]
    rw [hbit _ (by decide), hbit _ (by decide), hbit _ (by decide)]
    simp [TimerModule.Due, TimerModule.timers, or_assoc]
  have hcall : ∀ (m : TimerModule) (P : Prop) [Decidable P] (call : Call n φ),
      call.enters = some m → (m.Due useHpet completed ↔ P) →
      (if P then [call] else []).filterMap Call.enters =
        [m].filter fun m ↦ m.Due useHpet completed := by
    intro m P _ call henters hdue
    by_cases hP : P
    · rw [if_pos hP, List.filterMap_cons_some henters,
        List.filter_cons_of_pos (by simpa using hdue.mpr hP)]
      rfl
    · rw [if_neg hP, List.filter_cons_of_neg (by simpa using mt hdue.mp hP)]
      rfl
  rw [timerCalls, List.filterMap_cons_none (show Call.enters .initTimerCompleted = none from rfl),
    List.filterMap_append, List.filterMap_append, List.filterMap_append, hcall .pit _ _ rfl hpit,
    hcall .rtc _ _ rfl hrtc, hcall .serial _ _ rfl hserial, hcall .hpet _ _ rfl hhpet,
    ← List.filter_append, ← List.filter_append, ← List.filter_append]
  rfl

/-- The loop over the connections calls their functions only. -/
theorem eq_notify_of_mem {devices : List (DeviceNotify φ)} {badge : BitVec w}
    {calls : List (Call devices.length φ)} (hcalls : notifyDevices devices badge = some calls) :
    ∀ call ∈ calls, ∃ i func, call = .notify i func := by
  have hloop : ∀ (l : List (Fin devices.length)) (calls : List (Call devices.length φ)),
      l.mapM (fun i ↦ (devices.get i).func.map (Call.notify i)) = some calls →
        ∀ call ∈ calls, ∃ i func, call = .notify i func := by
    intro l
    induction l with
    | nil =>
      intro calls hnil
      obtain rfl : [] = calls := Option.some.inj hnil
      exact nofun
    | cons i l ih =>
      intro calls hcons
      simp only [List.mapM_cons, Option.pure_def, Option.bind_eq_bind, Option.bind_eq_some_iff,
        Option.map_eq_some_iff, Option.some.injEq] at hcons
      obtain ⟨call, ⟨func, -, rfl⟩, calls', hl, rfl⟩ := hcons
      intro call hmem
      rcases List.mem_cons.mp hmem with rfl | hmem
      · exact ⟨i, func, rfl⟩
      · exact ih calls' hl call hmem
  exact hloop _ _ hcalls

/-- **The devices that are entered**: none unless the timer's mask is read, and then exactly those
it names, each once. -/
theorem filterMap_enters_handleAsyncEvent {c : Notifications w φ} {badge : BitVec w}
    {completed : BitVec 32} {calls : List (Call c.devices.length φ)}
    (hcalls : handleAsyncEvent c badge completed = some calls) :
    (calls.filterMap Call.enters).Nodup ∧ ∀ m, m ∈ calls.filterMap Call.enters ↔
      .initTimerCompleted ∈ calls ∧ m.Due c.useHpet completed := by
  rw [handleAsyncEvent] at hcalls
  split at hcalls
  · obtain ⟨devices, hdevices, rfl⟩ := Option.map_eq_some_iff.mp hcalls
    have hnotify := eq_notify_of_mem hdevices
    -- nothing but the timer's calls enters a device or reads the mask
    have hrest : ∀ call ∈ (if Finds badge c.serialBadge then [.serialCharacterInterrupt] else []) ++
        (((List.finRange 16).filter fun irq ↦ Finds badge (irqBadge w irq)).map .vmInjectIrq ++
          devices), call.enters = none ∧ call ≠ .initTimerCompleted := by
      intro call hmem
      rcases List.mem_append.mp hmem with hserial | hmem
      · split at hserial
        · obtain rfl := List.mem_singleton.mp hserial
          exact ⟨rfl, nofun⟩
        · exact nomatch hserial
      · rcases List.mem_append.mp hmem with hpic | hdevice
        · obtain ⟨irq, -, rfl⟩ := List.mem_map.mp hpic
          exact ⟨rfl, nofun⟩
        · obtain ⟨i, func, rfl⟩ := hnotify call hdevice
          exact ⟨rfl, nofun⟩
    rw [List.append_assoc, List.append_assoc]
    generalize (if Finds badge c.serialBadge then [.serialCharacterInterrupt] else []) ++
      (((List.finRange 16).filter fun irq ↦ Finds badge (irqBadge w irq)).map .vmInjectIrq ++
        devices) = rest at hrest ⊢
    have henters : rest.filterMap Call.enters = [] :=
      List.filterMap_eq_nil_iff.mpr fun call hmem ↦ (hrest call hmem).1
    have hmask : .initTimerCompleted ∉ rest := fun hmem ↦ (hrest _ hmem).2 rfl
    rw [List.filterMap_append, henters, List.append_nil]
    split
    · rw [filterMap_enters_timerCalls]
      refine ⟨List.Nodup.filter _ (by decide), fun m ↦ ?_⟩
      have hread : .initTimerCompleted ∈
          timerCalls c.devices.length φ c.useHpet completed ++ rest :=
        List.mem_append_left _ List.mem_cons_self
      have hdevices : m ∈ [.pit, .rtc, .serial, TimerModule.hpet] := by cases m <;> decide
      rw [List.mem_filter, decide_eq_true_iff, and_iff_right hdevices, and_iff_right hread]
    · exact ⟨List.nodup_nil, fun m ↦ iff_of_false List.not_mem_nil fun hread ↦ hmask hread.1⟩
  · obtain rfl := Option.some.inj hcalls
    simp

end Events
end CamkesVm
