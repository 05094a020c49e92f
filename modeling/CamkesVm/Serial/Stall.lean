import CamkesVm.Serial.Emits

/-!
# Nothing in the UART waits for ever

Two things wait for a timer.  A byte that was written and could not be sent waits for the transmit
timer, while `THRE` is clear; characters in the receive FIFO that are too few to raise an interrupt
wait for the receive timeout.  `Driven` and `Watched` say that the timer will come, and both hold in
every state of every run, in and out of loopback (`run_neverWedges`, `run_notStranded`).

A call appends to the log of the device, and the time server obeys what it finds there.  So the two
are properties of a device together with the timers: `Keeps` says that a call preserves such a
property, and `Establishes` that it holds after the call whatever was before.

## What is here

* `Keeps`, `Establishes`, `Keeps.withSerial` — properties of the device with its timers, and how
  they pass through a call and the time server.
* `Driven`, with a lemma for each function of the transmitter, and `run_neverWedges`: every exit of
  `serial_xmit` arms the timer unless `THRE` is set.
* `TookOut` — a completion makes progress: a byte leaves.
* `Watched`, with a lemma for each function of the receiver, and `run_notStranded`: the timer is
  stopped only where the FIFO is emptied.

Neither result needs that timers are on time, only that an armed one completes at some time.
-/

set_option autoImplicit false

namespace CamkesVm
namespace Serial

open Transition TimerService EffectLog

/-! ## A call and the timers -/

/-- A call preserves a property of the device and of what the time server knows. -/
def Keeps (P : Timers Timer → SerialState → Prop) (s s' : SerialState) : Prop :=
  ∃ es, s'.log = s.log ++ es ∧ ∀ T, P T s → P (T.obeyAll command es) s'

/-- A call brings such a property about. -/
def Establishes (P : Timers Timer → SerialState → Prop) (s s' : SerialState) : Prop :=
  ∃ es, s'.log = s.log ++ es ∧ ∀ T : Timers Timer, P (T.obeyAll command es) s'

section

variable {P : Timers Timer → SerialState → Prop} {s s' s'' : SerialState}

theorem Keeps.refl : Keeps P s s := ⟨[], by rw [List.append_nil], fun _ h ↦ h⟩

theorem Keeps.trans (h : Keeps P s s') (h' : Keeps P s' s'') : Keeps P s s'' := by
  obtain ⟨es, hlog, hes⟩ := h
  obtain ⟨es', hlog', hes'⟩ := h'
  refine ⟨es ++ es', by rw [hlog', hlog, List.append_assoc], fun T hT ↦ ?_⟩
  rw [Timers.obeyAll_append]
  exact hes' _ (hes T hT)

/-- A call that appends nothing to the log. -/
theorem Keeps.of_log (hlog : s'.log = s.log) (h : ∀ T, P T s → P T s') : Keeps P s s' :=
  ⟨[], by rw [hlog, List.append_nil], h⟩

theorem Establishes.keeps (h : Establishes P s s') : Keeps P s s' := by
  obtain ⟨es, hlog, hes⟩ := h
  exact ⟨es, hlog, fun T _ ↦ hes T⟩

theorem Establishes.trans (h : Establishes P s s') (h' : Keeps P s' s'') :
    Establishes P s s'' := by
  obtain ⟨es, hlog, hes⟩ := h
  obtain ⟨es', hlog', hes'⟩ := h'
  refine ⟨es ++ es', by rw [hlog', hlog, List.append_assoc], fun T ↦ ?_⟩
  rw [Timers.obeyAll_append]
  exact hes' _ (hes T)

/-- What comes before does not matter. -/
theorem Establishes.after (h : Establishes P s' s'') (hlog : ∃ es, s'.log = s.log ++ es) :
    Establishes P s s'' := by
  obtain ⟨es, hlog⟩ := hlog
  obtain ⟨es', hlog', hes'⟩ := h
  refine ⟨es ++ es', by rw [hlog', hlog, List.append_assoc], fun T ↦ ?_⟩
  rw [Timers.obeyAll_append]
  exact hes' _

theorem Emits.exists_log {armed : List Timer} (h : Emits armed s s') :
    ∃ es, s'.log = s.log ++ es := by
  obtain ⟨es, hlog, -⟩ := h.log
  exact ⟨es, hlog⟩

/-- **In a machine** the property holds again once the time server has obeyed. -/
theorem Keeps.withSerial {y : Machine} (h : Keeps P y.serial s) (hP : P y.timers y.serial) :
    P (y.withSerial s).timers s := by
  obtain ⟨es, hlog, hes⟩ := h
  change P (y.timers.obeyAll command (news y.serial.log s.log)) s
  rw [hlog, news_append]
  exact hes _ hP

theorem Establishes.withSerial {y : Machine} (h : Establishes P y.serial s) :
    P (y.withSerial s).timers s := by
  obtain ⟨es, hlog, hes⟩ := h
  change P (y.timers.obeyAll command (news y.serial.log s.log)) s
  rw [hlog, news_append]
  exact hes _

end

/-! ## The transmit timer -/

/-- While `THRE` is clear the transmit timer will complete, or has. -/
def Driven (T : Timers Timer) (s : SerialState) : Prop :=
  thrEmpty s = false → T.Outstanding .transmit

/-- A call that leaves `THRE` alone. -/
theorem keeps_driven {armed : List Timer} {s s' : SerialState} (h : Emits armed s s')
    (hthre : thrEmpty s' = thrEmpty s) : Keeps Driven s s' := by
  obtain ⟨es, hlog, hes⟩ := h.log
  refine ⟨es, hlog, fun T hT hclear ↦ ?_⟩
  refine (hT (hthre.symm.trans hclear)).obeyAll fun e he hstop ↦ ?_
  exact absurd ((hes e he).2 .transmit hstop) (by decide)

/-- Arming the timer. -/
theorem establishes_driven_arm {s s' : SerialState} (time : BitVec 64)
    (hlog : s'.log = s.log ++ [.oneshotAbsolute .transmit time]) : Establishes Driven s s' :=
  ⟨[.oneshotAbsolute .transmit time], hlog, fun T _ ↦ .inl (Timers.armed_obeyAll_arm T [] rfl)⟩

/-- **The last part of `serial_xmit`** arms the timer unless `THRE` is set. -/
theorem establishes_driven_xmitDone (s : SerialState) (t : Times) :
    Establishes Driven s (xmitDone s t) := by
  have hthre : thrEmpty (xmitDone s t) = thrEmpty s :=
    congrArg Transmitter.empty (view_xmitDone s t)
  cases hempty : thrEmpty s with
  | true =>
    obtain ⟨es, hlog⟩ := (Emits.xmitDone [.transmit] s t (by decide)).exists_log
    refine ⟨es, hlog, fun T hclear ↦ ?_⟩
    rw [hthre, hempty] at hclear
    exact absurd hclear (by decide)
  | false =>
    have hnot : ¬thrEmpty { s with lastXmitTs := t.lastXmitTs } = true := by
      change ¬thrEmpty s = true
      simp [hempty]
    refine establishes_driven_arm (t.lastXmitTs + s.charTransmitTime) ?_
    simp only [xmitDone]
    rw [if_neg hnot]
    rfl

/-- **Every exit of `serial_xmit`** arms the timer unless `THRE` is set. -/
theorem establishes_driven_serialXmit (s : SerialState) (t : Times) :
    Establishes Driven s (serialXmit s t) := by
  refine Establishes.after ?_ (Emits.xmitLoad [] s).exists_log
  rw [serialXmit]
  generalize xmitLoad s = s
  split
  · exact (establishes_driven_xmitDone _ t).after
      (Emits.serialReceive1 [.fifoTimeout] s _ _ (by decide)).exists_log
  · split
    · split
      -- the byte is put off
      · exact establishes_driven_arm (t.newXmitTs + s.charTransmitTime) rfl
      -- it was put off too often
      · split
        · exact (establishes_driven_xmitDone { s with tsrRetry := -1 } t).after
            ⟨[], (List.append_nil _).symm⟩
        · exact establishes_driven_xmitDone s t
    -- it is sent
    · exact (establishes_driven_xmitDone _ t).after ⟨[.putchar s.tsr], rfl⟩

/-- Handling other completions leaves `THRE` alone. -/
theorem keeps_driven_serialTimerInterrupt {s : SerialState} (hs : Sane s) {completed : Completed}
    (h : completed.transmit = false) (t : Times) (ring : List (BitVec 8)) :
    Keeps Driven s (serialTimerInterrupt s completed t ring).1 := by
  obtain ⟨s', -, -, -, hview⟩ := view_serialTimerInterrupt s completed t ring
  rw [h, if_neg Bool.false_ne_true] at hview
  exact keeps_driven (.serialTimerInterrupt [.fifoTimeout, .moreChars, .transmit] s completed t ring
    hs (by decide) (by decide) fun _ ↦ by decide) (congrArg Transmitter.empty hview)

/-- **Handling the completion of the transmit timer.** -/
theorem establishes_driven_serialTimerInterrupt {s : SerialState} (hs : Sane s)
    {completed : Completed} (h : completed.transmit = true) (t : Times)
    (ring : List (BitVec 8)) :
    Establishes Driven s (serialTimerInterrupt s completed t ring).1 := by
  let first := if completed.fifoTimeout then fifoTimeoutInt s else s
  have hfirst : Emits [] s { first with charsSent := 0 } := by
    refine Emits.trans ?_ (.of_outside (s := first) rfl)
    change Emits [] s (if completed.fifoTimeout then fifoTimeoutInt s else s)
    split
    · exact .fifoTimeoutInt [] s
    · exact .refl
  have hsane := (hfirst.sane hs).serialXmit t
  rw [serialTimerInterrupt_of_transmit h]
  exact ((establishes_driven_serialXmit _ t).after hfirst.exists_log).trans
    (keeps_driven_serialTimerInterrupt hsane rfl t ring)

/-- **A port write** runs the transmitter, or leaves `THRE` alone. -/
theorem keeps_driven_serialIoportWrite {s : SerialState} (hs : Sane s) (t : Times) (addr : ℕ)
    (val : BitVec 8) : Keeps Driven s (serialIoportWrite s t addr val) := by
  rcases view_serialIoportWrite s t addr val with ⟨-, -, hsent⟩ | ⟨-, flush, enabled, hview, -⟩
  · rw [hsent]
    exact ((establishes_driven_serialXmit _ t).after (Emits.storeThr [] s val).exists_log).keeps
  · have hthre : thrEmpty (serialIoportWrite s t addr val) = thrEmpty s :=
      congrArg Transmitter.empty hview
    by_cases haddr : addr % 8 = 4
    · refine .of_log (by rw [serialIoportWrite_mcr haddr]) fun T hT hclear ↦ ?_
      exact hT (hthre.symm.trans hclear)
    · exact keeps_driven (.serialIoportWrite [.fifoTimeout, .transmit] s t addr val hs haddr
        (.inr ⟨by decide, by decide⟩)) hthre

/-- **No event leaves the transmitter without its timer.** -/
theorem Driven.next {y : Machine} (hs : Sane y.serial) (h : Driven y.timers y.serial) (e : Event) :
    Driven (y.next e).timers (y.next e).serial := by
  cases e with
  | portIn addr now =>
    exact (keeps_driven (.serialIoportRead [.fifoTimeout] _ now addr hs (by decide))
      (congrArg Transmitter.empty (view_serialIoportRead y.serial now addr))).withSerial h
  | portOut addr val t => exact (keeps_driven_serialIoportWrite hs t addr val).withSerial h
  | expire timer => exact fun hclear ↦ (h hclear).expire timer
  | timer completed t =>
    let z : Machine := { y with timers := y.timers.collect completed.has }
    change Driven
      (z.withSerial (GetcharBuf.serialTimerInterrupt y.serial completed t y.buffer).1).timers
      (GetcharBuf.serialTimerInterrupt y.serial completed t y.buffer).1
    rw [GetcharBuf.serialTimerInterrupt_fst]
    cases htransmit : completed.transmit with
    | true => exact (establishes_driven_serialTimerInterrupt hs htransmit t _).withSerial (y := z)
    | false =>
      exact (keeps_driven_serialTimerInterrupt hs htransmit t _).withSerial (y := z)
        fun hclear ↦ (h hclear).collect htransmit
  | enqueue c => exact h
  | signal => exact h
  | character now =>
    change Driven
      (y.withSerial (GetcharBuf.serialCharacterInterrupt y.serial now y.buffer).1).timers
      (GetcharBuf.serialCharacterInterrupt y.serial now y.buffer).1
    rw [GetcharBuf.serialCharacterInterrupt_fst]
    exact (keeps_driven (.serialCharacterInterrupt [.fifoTimeout, .moreChars] _ now _ (by decide)
      (by decide)) (congrArg Transmitter.empty
        (view_serialCharacterInterrupt y.serial now _))).withSerial h

theorem run_driven {now : BitVec 64} {es : List Event} {y : Machine}
    (h : Run Machine.Step (Machine.init now) es y) :
    Sane y.serial ∧ Driven y.timers y.serial := by
  have hstart : Driven (Machine.init now).timers (Machine.init now).serial := by
    intro hclear
    have hempty : thrEmpty (serialPreInit now) = true :=
      congrArg Transmitter.empty (view_serialPreInit now)
    exact absurd (hempty.symm.trans hclear) (by decide)
  refine h.invariant (I := fun y ↦ Sane y.serial ∧ Driven y.timers y.serial)
    ⟨sane_serialPreInit now, hstart⟩ ?_
  rintro y e - ⟨hs, hdriven⟩ ⟨-, rfl⟩
  exact ⟨hs.next e, hdriven.next hs e⟩

/-- A byte was taken out of the FIFO, or out of the shift register, where it was sent. -/
def TookOut (s s' : SerialState) : Prop :=
  s'.xmitFifo.count + 1 = s.xmitFifo.count ∨
    0 < s.tsrRetry ∧ s'.tsrRetry ≤ 0 ∧ sent s' = sent s ++ [s.tsr]

/-- **Sending what was loaded** takes a byte out, or finds the holding register empty. -/
theorem Transmitter.load_send (v : Transmitter) : v.load.send.empty = true ∨
    v.load.send.fifo.count + 1 = v.fifo.count ∨
    v.retrying = true ∧ v.load.send.retrying = false ∧ v.load.send.sent = v.sent ++ [v.tsr] := by
  cases hr : v.retrying with
  | true =>
    rw [Transmitter.load, if_pos hr]
    exact .inr (.inr ⟨rfl, rfl, rfl⟩)
  | false =>
    rw [Transmitter.load, if_neg (by simp [hr])]
    cases he : v.enabled with
    | true =>
      rw [if_pos rfl]
      by_cases hc : v.fifo.count = 0
      · left
        change (v.empty || decide ((fifoGet v.fifo).2.count = 0)) = true
        rw [fifoGet, if_pos hc, decide_eq_true hc, Bool.or_true]
      · right
        left
        change (fifoGet v.fifo).2.count + 1 = v.fifo.count
        rw [fifoGet, if_neg hc]
        exact Nat.sub_add_cancel (Nat.pos_of_ne_zero hc)
    | false => exact .inl rfl

/-- **Handling a completion of the transmit timer** outside loopback makes progress. -/
theorem tookOut_timer {y : Machine} {completed : Completed} (h : completed.transmit = true)
    (hloop : LoopOff y.serial) (t : Times) :
    thrEmpty (y.next (.timer completed t)).serial = true ∨
      TookOut y.serial (y.next (.timer completed t)).serial := by
  have hserial : (y.next (.timer completed t)).serial =
      (serialTimerInterrupt y.serial completed t y.buffer.contents).1 :=
    GetcharBuf.serialTimerInterrupt_fst y.serial completed t y.buffer
  obtain ⟨s', hsame, hmcr, hchars, hview⟩ :=
    view_serialTimerInterrupt y.serial completed t y.buffer.contents
  have hloop' : anyBit s'.mcr uartMcrLoop = false := by
    rw [hmcr]
    exact hloop
  have hroom : s'.charsSent < maxCharsSent := by
    rw [hchars]
    decide
  rw [h, if_pos rfl, view_serialXmit_send s' t hloop' hroom, hsame, ← hserial] at hview
  have hprogress := (view y.serial).load_send
  rw [← hview] at hprogress
  refine hprogress.imp id (Or.imp id fun hretry ↦ ?_)
  exact ⟨of_decide_eq_true hretry.1, not_lt.mp (of_decide_eq_false hretry.2.1), hretry.2.2⟩

/-- **The transmitter never wedges.**  In every state of every run: if `THRE` is clear the transmit
timer is armed, or has completed and that was not handled; and handling its completion outside
loopback leaves `THRE` set, or takes a byte out of the FIFO or the shift register. -/
theorem run_neverWedges {now : BitVec 64} {es : List Event} {y : Machine}
    (h : Run Machine.Step (Machine.init now) es y) :
    (thrEmpty y.serial = false → y.timers.Outstanding .transmit) ∧
    ∀ completed t y', completed.transmit = true → LoopOff y.serial →
      Machine.Step y (.timer completed t) y' →
      thrEmpty y'.serial = true ∨ TookOut y.serial y'.serial := by
  refine ⟨(run_driven h).2, ?_⟩
  rintro completed t - htransmit hloop ⟨-, rfl⟩
  exact tookOut_timer htransmit hloop t

/-- Seventeen bytes in one interval, of which the last is put off, and the timer for it. -/
def seventeenBytes : List Event :=
  List.replicate 17 (.portOut 0 0x41 noTimes) ++ [.expire .transmit]

/-- The theorem for these: the completion is handled. -/
theorem run_neverWedges_retried :
    let y := seventeenBytes.foldl Machine.next (Machine.init 0)
    (thrEmpty y.serial = false → y.timers.Outstanding .transmit) ∧
    (thrEmpty (y.next (.timer transmitCompleted noTimes)).serial = true ∨
      TookOut y.serial (y.next (.timer transmitCompleted noTimes)).serial) := by
  intro y
  have hrun : Run Machine.Step (Machine.init 0) seventeenBytes y := run_foldl (by decide +kernel)
  have hstep : Machine.Step y (.timer transmitCompleted noTimes)
      (y.next (.timer transmitCompleted noTimes)) := ⟨by decide +kernel, rfl⟩
  obtain ⟨hclear, hhandled⟩ := run_neverWedges hrun
  exact ⟨hclear, hhandled transmitCompleted noTimes _ rfl (by decide +kernel) hstep⟩

/-! ## The receive timeout -/

/-- While there are characters in the receive FIFO the timeout asks for an interrupt, or its timer
will complete, or has. -/
def Watched (T : Timers Timer) (s : SerialState) : Prop :=
  s.recvFifo.count ≠ 0 → s.timeoutIpending = true ∨ T.Outstanding .fifoTimeout

section

variable {s s' : SerialState}

/-- A call that leaves the receive FIFO and its timeout alone. -/
theorem keeps_watched (es : List Effect) (hlog : s'.log = s.log ++ es)
    (hstop : ∀ e ∈ es, command e ≠ some (.stop .fifoTimeout))
    (hcount : s'.recvFifo.count = s.recvFifo.count)
    (hpending : s'.timeoutIpending = s.timeoutIpending) : Keeps Watched s s' := by
  refine ⟨es, hlog, fun T hT hne ↦ ?_⟩
  rw [hpending]
  exact (hT (hcount ▸ hne)).imp id fun ho ↦ ho.obeyAll hstop

/-- A change of other registers. -/
theorem keeps_watched_of_log (hlog : s'.log = s.log) (hfifo : s'.recvFifo = s.recvFifo)
    (hpending : s'.timeoutIpending = s.timeoutIpending) : Keeps Watched s s' :=
  keeps_watched [] (by rw [hlog, List.append_nil]) (by simp) (by rw [hfifo]) hpending

/-- An effect that does not stop the timer. -/
theorem keeps_watched_emit (s : SerialState) {e : Effect}
    (h : command e ≠ some (.stop .fifoTimeout)) : Keeps Watched s (s.emit e) :=
  keeps_watched [e] rfl (by simpa using h) rfl rfl

theorem keeps_watched_serialUpdateIrq (s : SerialState) : Keeps Watched s (serialUpdateIrq s) :=
  keeps_watched [_] rfl (by simp [command]) rfl rfl

/-- A change of other registers, with the interrupts worked out again. -/
theorem keeps_watched_updateIrq (hlog : s'.log = s.log) (hfifo : s'.recvFifo = s.recvFifo)
    (hpending : s'.timeoutIpending = s.timeoutIpending) : Keeps Watched s (serialUpdateIrq s') :=
  (keeps_watched_of_log hlog hfifo hpending).trans (keeps_watched_serialUpdateIrq s')

/-- Arming the timer. -/
theorem establishes_watched_arm (time : BitVec 64)
    (hlog : s'.log = s.log ++ [.oneshotAbsolute .fifoTimeout time]) : Establishes Watched s s' :=
  ⟨_, hlog, fun T _ ↦ .inr (.inl (Timers.armed_obeyAll_arm T [] rfl))⟩

/-- Emptying the FIFO. -/
theorem establishes_watched_empty (es : List Effect) (hlog : s'.log = s.log ++ es)
    (hcount : s'.recvFifo.count = 0) : Establishes Watched s s' :=
  ⟨es, hlog, fun _ hne ↦ absurd hcount hne⟩

/-! ### The functions of the device -/

variable (s)

/-- **A character comes in**: into the FIFO, and the timer is armed, or into the register. -/
theorem keeps_watched_serialReceive1 (now : BitVec 64) (c : BitVec 8) :
    Keeps Watched s (serialReceive1 s now c) := by
  rw [serialReceive1]
  split
  · have hput : (fifoPutRecv s c).log = s.log := by
      rw [fifoPutRecv]
      split <;> rfl
    exact ((establishes_watched_arm (now + (fifoPutRecv s c).charTransmitTime * 4)
      (congrArg (· ++ [_]) hput)).trans (keeps_watched_serialUpdateIrq _)).keeps
  · refine Keeps.trans ?_ (keeps_watched_serialUpdateIrq _)
    split <;> exact keeps_watched_of_log rfl rfl rfl

theorem keeps_watched_receiveLoop (now : BitVec 64) (ring : List (BitVec 8)) :
    Keeps Watched s (receiveLoop s now ring).1 := by
  induction ring generalizing s with
  | nil => exact .refl
  | cons c rest ih =>
    rw [receiveLoop]
    split
    · exact .refl
    · exact (keeps_watched_serialReceive1 s now c).trans (ih _)

theorem keeps_watched_serialCharacterInterrupt (now : BitVec 64) (ring : List (BitVec 8)) :
    Keeps Watched s (serialCharacterInterrupt s now ring).1 := by
  rw [serialCharacterInterrupt]
  refine (keeps_watched_receiveLoop s now ring).trans ?_
  dsimp only
  split
  · exact keeps_watched_emit _ (by simp [command])
  · exact .refl

theorem keeps_watched_serialUpdateParameters : Keeps Watched s (serialUpdateParameters s) := by
  rw [serialUpdateParameters]
  split
  · exact .refl
  · exact keeps_watched_of_log rfl rfl rfl

theorem keeps_watched_serialUpdateMsl : Keeps Watched s (serialUpdateMsl s) := by
  rw [serialUpdateMsl]
  split
  · exact keeps_watched_updateIrq rfl rfl rfl
  · exact keeps_watched_of_log rfl rfl rfl

theorem keeps_watched_serialXmit (t : Times) : Keeps Watched s (serialXmit s t) := by
  have hdone : ∀ s : SerialState, Keeps Watched s (xmitDone s t) := by
    intro s
    simp only [xmitDone]
    split
    · exact keeps_watched_updateIrq rfl rfl rfl
    · exact (keeps_watched_of_log rfl rfl rfl).trans
        (keeps_watched_emit { s with lastXmitTs := t.lastXmitTs } (by simp [command]))
  have hload : Keeps Watched s (xmitLoad s) := by
    rw [xmitLoad]
    split
    · split <;> exact keeps_watched_of_log rfl rfl rfl
    · exact .refl
  refine hload.trans ?_
  rw [serialXmit]
  generalize xmitLoad s = s
  split
  · exact (keeps_watched_serialReceive1 s _ _).trans (hdone _)
  · split
    · split
      · exact (keeps_watched_of_log rfl rfl rfl).trans
          (keeps_watched_emit { s with tsrRetry := s.tsrRetry + 1 } (by simp [command]))
      · split
        · exact (keeps_watched_of_log rfl rfl rfl).trans (hdone _)
        · exact hdone s
    · have hput : Keeps Watched s (s.emit (.putchar s.tsr)) :=
        keeps_watched_emit s (by simp [command])
      exact (hput.trans (keeps_watched_of_log rfl rfl rfl)).trans (hdone _)

theorem keeps_watched_storeThr (val : BitVec 8) : Keeps Watched s (storeThr s val) := by
  simp only [storeThr]
  split <;> exact keeps_watched_updateIrq rfl rfl rfl

theorem keeps_watched_writeIer (hs : Sane s) (val : BitVec 8) :
    Keeps Watched s (writeIer s val) := by
  obtain ⟨p, hpolled⟩ := hs.ierPolled val
  rw [writeIer_eq, hpolled]
  split
  · exact keeps_watched_updateIrq rfl rfl rfl
  · exact keeps_watched_of_log rfl rfl rfl

/-- **FIFO control** stops the timer only where it empties the FIFO. -/
theorem keeps_watched_writeFcr (val : BitVec 8) : Keeps Watched s (writeFcr s val) := by
  by_cases hval : s.fcr = val
  · rw [writeFcr, if_pos hval]
    exact .refl
  · rw [writeFcr_eq hval]
    generalize fcrValue s val = v
    refine Keeps.trans ?_ (keeps_watched_serialUpdateIrq _)
    by_cases hrfr : anyBit v uartFcrRfr = true
    · refine (establishes_watched_empty [.stop .fifoTimeout] ?_ ?_).keeps
      · simp only [fcrSet, if_pos hrfr]
        split <;> split <;> rfl
      · simp only [fcrSet, if_pos hrfr]
        split <;> split <;> rfl
    · refine keeps_watched [] ?_ (by simp) ?_ ?_
      · simp only [fcrSet, if_neg hrfr, List.append_nil]
        split <;> split <;> rfl
      · simp only [fcrSet, if_neg hrfr]
        split <;> split <;> rfl
      · simp only [fcrSet, if_neg hrfr]
        split <;> split <;> rfl

/-- **A port write.** -/
theorem keeps_watched_serialIoportWrite (hs : Sane s) (t : Times) (addr : ℕ) (val : BitVec 8) :
    Keeps Watched s (serialIoportWrite s t addr val) := by
  rw [serialIoportWrite]
  split
  · split
    · exact (keeps_watched_of_log rfl rfl rfl).trans (keeps_watched_serialUpdateParameters _)
    · exact (keeps_watched_storeThr s val).trans (keeps_watched_serialXmit _ t)
  · split
    · exact (keeps_watched_of_log rfl rfl rfl).trans (keeps_watched_serialUpdateParameters _)
    · exact keeps_watched_writeIer s hs val
  · exact keeps_watched_writeFcr s val
  · exact (keeps_watched_of_log rfl rfl rfl).trans (keeps_watched_serialUpdateParameters _)
  all_goals exact keeps_watched_of_log rfl rfl rfl

/-- **Reading the receive register** arms the timer again for what is left in the FIFO. -/
theorem keeps_watched_readRbr (now : BitVec 64) : Keeps Watched s (readRbr s now).2 := by
  rw [readRbr]
  split
  · dsimp only
    split
    · rename_i hempty
      exact (establishes_watched_empty [_] rfl hempty).keeps
    · let arm : Effect := .oneshotAbsolute .fifoTimeout (now + s.charTransmitTime * 4)
      refine Establishes.keeps ⟨[arm] ++ [_], List.append_assoc _ _ _, fun T _ ↦ .inr (.inl ?_)⟩
      have harmed : (T.obeyAll command [arm]).armed .fifoTimeout = true :=
        Timers.armed_obeyAll_arm T [] rfl
      rw [Timers.obeyAll_append]
      exact Timers.armed_obeyAll harmed (by simp [command])
  · exact keeps_watched_updateIrq rfl rfl rfl

theorem keeps_watched_readMsr (hs : Sane s) : Keeps Watched s (readMsr s).2 := by
  cases hloop : anyBit s.mcr uartMcrLoop with
  | true =>
    rw [readMsr, if_pos hloop]
    exact .refl
  | false =>
    rw [readMsr_eq hloop, hs.msrPolled]
    split
    · exact keeps_watched_updateIrq rfl rfl rfl
    · exact .refl

/-- **A port read.** -/
theorem keeps_watched_serialIoportRead (hs : Sane s) (now : BitVec 64) (addr : ℕ) :
    Keeps Watched s (serialIoportRead s now addr).2 := by
  rw [serialIoportRead]
  split
  · split
    · exact .refl
    · exact keeps_watched_readRbr s now
  · split <;> exact .refl
  · dsimp only
    split
    · exact keeps_watched_updateIrq rfl rfl rfl
    · exact .refl
  · exact .refl
  · exact .refl
  · dsimp only
    split
    · exact keeps_watched_updateIrq rfl rfl rfl
    · exact .refl
  · exact keeps_watched_readMsr s hs
  · exact .refl

/-- The handler of the timeout asks for the interrupt. -/
theorem fifoTimeoutInt_pending (hne : (fifoTimeoutInt s).recvFifo.count ≠ 0) :
    (fifoTimeoutInt s).timeoutIpending = true := by
  rw [fifoTimeoutInt] at hne ⊢
  split at hne
  · exact absurd ‹_› hne
  · rename_i hc
    rw [if_neg hc]
    rfl

theorem establishes_watched_fifoTimeoutInt : Establishes Watched s (fifoTimeoutInt s) := by
  obtain ⟨es, hlog⟩ := (Emits.fifoTimeoutInt [] s).exists_log
  exact ⟨es, hlog, fun _ hne ↦ .inl (fifoTimeoutInt_pending s hne)⟩

/-- Handling completions other than that of the timeout. -/
theorem keeps_watched_serialTimerInterrupt (completed : Completed) (t : Times)
    (ring : List (BitVec 8)) :
    Keeps Watched s (serialTimerInterrupt s completed t ring).1 :=
  serialTimerInterrupt_rule (P := Keeps Watched s) .refl completed t ring
    (fun _ h ↦ h.trans (establishes_watched_fifoTimeoutInt _).keeps)
    (fun _ _ h ↦ (h.trans (keeps_watched_of_log rfl rfl rfl)).trans (keeps_watched_serialXmit _ t))
    (fun _ h ↦ h.trans (keeps_watched_serialUpdateMsl _))
    (fun _ _ h ↦ h.trans (keeps_watched_serialCharacterInterrupt _ t.received ring))

/-- **Handling the completion of the timeout**, with others or alone. -/
theorem establishes_watched_serialTimerInterrupt {completed : Completed}
    (h : completed.fifoTimeout = true) (t : Times) (ring : List (BitVec 8)) :
    Establishes Watched s (serialTimerInterrupt s completed t ring).1 := by
  have hsplit : serialTimerInterrupt s completed t ring =
      serialTimerInterrupt (fifoTimeoutInt s) { completed with fifoTimeout := false } t ring := by
    simp only [serialTimerInterrupt, h, if_true]
    rfl
  rw [hsplit]
  exact (establishes_watched_fifoTimeoutInt s).trans (keeps_watched_serialTimerInterrupt _ _ t ring)

end

/-- **No event leaves characters in the FIFO without the timeout.** -/
theorem Watched.next {y : Machine} (hs : Sane y.serial) (h : Watched y.timers y.serial)
    (e : Event) : Watched (y.next e).timers (y.next e).serial := by
  cases e with
  | portIn addr now => exact (keeps_watched_serialIoportRead _ hs now addr).withSerial h
  | portOut addr val t => exact (keeps_watched_serialIoportWrite _ hs t addr val).withSerial h
  | expire timer => exact fun hne ↦ (h hne).imp id fun ho ↦ ho.expire timer
  | timer completed t =>
    let z : Machine := { y with timers := y.timers.collect completed.has }
    change Watched
      (z.withSerial (GetcharBuf.serialTimerInterrupt y.serial completed t y.buffer).1).timers
      (GetcharBuf.serialTimerInterrupt y.serial completed t y.buffer).1
    rw [GetcharBuf.serialTimerInterrupt_fst]
    cases hfifo : completed.fifoTimeout with
    | true => exact (establishes_watched_serialTimerInterrupt _ hfifo t _).withSerial (y := z)
    | false =>
      exact (keeps_watched_serialTimerInterrupt _ completed t _).withSerial (y := z)
        fun hne ↦ (h hne).imp id fun ho ↦ ho.collect hfifo
  | enqueue c => exact h
  | signal => exact h
  | character now =>
    change Watched
      (y.withSerial (GetcharBuf.serialCharacterInterrupt y.serial now y.buffer).1).timers
      (GetcharBuf.serialCharacterInterrupt y.serial now y.buffer).1
    rw [GetcharBuf.serialCharacterInterrupt_fst]
    exact (keeps_watched_serialCharacterInterrupt _ now _).withSerial h

/-- **No received character is stranded.**  In every state of every run: if the receive FIFO is not
empty, its timeout asks for an interrupt, or the timer for that is armed, or has completed and that
was not handled. -/
theorem run_notStranded {now : BitVec 64} {es : List Event} {y : Machine}
    (h : Run Machine.Step (Machine.init now) es y) (hne : y.serial.recvFifo.count ≠ 0) :
    y.serial.timeoutIpending = true ∨ y.timers.Outstanding .fifoTimeout := by
  have hstart : Watched (Machine.init now).timers (Machine.init now).serial := by
    have hempty : (serialPreInit now).recvFifo.count = 0 := by
      rw [serialPreInit, (sane_serialReset _ now).serialUpdateMsl]
      rfl
    exact fun hno ↦ absurd hempty hno
  have hall : Sane y.serial ∧ Watched y.timers y.serial := by
    refine h.invariant (I := fun y ↦ Sane y.serial ∧ Watched y.timers y.serial)
      ⟨sane_serialPreInit now, hstart⟩ ?_
    rintro y e - ⟨hs, hwatched⟩ ⟨-, rfl⟩
    exact ⟨hs.next e, hwatched.next hs e⟩
  exact hall.2 hne

/-- The theorem for two characters of which one is read: the timer is armed again. -/
theorem run_notStranded_two :
    let y := [.portOut 2 0x81 noTimes, .enqueue 0x41, .enqueue 0x42, .signal, .character 0,
      .portIn 0 0].foldl Machine.next (Machine.init 0)
    y.serial.timeoutIpending = true ∨ y.timers.Outstanding .fifoTimeout :=
  run_notStranded (run_foldl (by decide)) (by decide)

end Serial
end CamkesVm
