import CamkesVm.Serial.Machine
import CamkesVm.Serial.Order

/-!
# What a call on the UART may do outside

Every call appends to the log of the device, and few touch what is not about the characters on
their way.  `Emits armed s s'` collects what all of them have in common: what is appended arms only
timers of the list `armed` and stops none but the receive timeout; modem control stays as it is;
and `Sane` is kept, the facts that hold of the device from the start.  There is one lemma for each
function of the device, under its name; a write to modem control is the one exception.

What a machine does with its timers follows from these alone (`Machine.outstanding_withSerial`,
`Machine.not_armed_withSerial`).

The lemmas stand in the order of the functions, each by those of the functions it calls. Where a
function arms a timer only under a condition, the lemma asks for the timer in the list `armed` under
that condition only.

`Sane` has what holds from the start and is not tested: a byte is put off a number of times that is
not negative, there is a modem status to poll, and the lines that polling it would raise are raised
already.
-/

set_option autoImplicit false

namespace CamkesVm
namespace Serial

open TimerService EffectLog

/-- The lines that `serial_update_msl` raises. -/
def mslLines : BitVec 8 := uartMsrCts ||| uartMsrDcd

/-- What holds of the device from the start. -/
structure Sane (s : SerialState) : Prop where
  /-- A byte is put off some number of times, never given up. -/
  tsrRetry : 0 ≤ s.tsrRetry
  /-- There is a modem status to poll. -/
  pollMsl : 0 ≤ s.pollMsl
  /-- The lines that polling would raise are raised. -/
  msr : s.msr ||| mslLines = s.msr

/-- The part of the device that most calls leave alone. -/
def outside (s : SerialState) : List Effect × BitVec 8 × ℤ × ℤ × BitVec 8 :=
  (s.log, s.mcr, s.tsrRetry, s.pollMsl, s.msr)

/-- What a call may do to the world outside and to the device as a whole. -/
structure Emits (armed : List Timer) (s s' : SerialState) : Prop where
  /-- It arms only the given timers and stops none but the receive timeout. -/
  log : ∃ es, s'.log = s.log ++ es ∧ ∀ e ∈ es,
    (∀ timer, command e = some (.arm timer) → timer ∈ armed) ∧
    (∀ timer, command e = some (.stop timer) → timer = .fifoTimeout)
  /-- It leaves modem control alone. -/
  mcr : s'.mcr = s.mcr
  /-- It keeps what holds from the start. -/
  sane : Sane s → Sane s'

/-- Polling the modem status finds nothing new. -/
theorem Sane.serialUpdateMsl {s : SerialState} (h : Sane s) : serialUpdateMsl s = s := by
  have hmsr : s.msr ||| uartMsrCts ||| uartMsrDcd = s.msr := by
    rw [BitVec.or_assoc]
    exact h.msr
  rw [Serial.serialUpdateMsl]
  simp only [hmsr, bne_self_eq_false, Bool.false_eq_true, if_false]

theorem Sane.msrPolled {s : SerialState} (h : Sane s) : msrPolled s = s := by
  rw [Serial.msrPolled, if_pos h.pollMsl, h.serialUpdateMsl]

/-- A write to interrupt enable changes that register and whether the modem status is polled. -/
theorem Sane.ierPolled {s : SerialState} (hs : Sane s) (val : BitVec 8) :
    ∃ p, ierPolled s val = { s with ier := val &&& 0x0f, pollMsl := p } := by
  have hone : Sane { s with ier := val &&& 0x0f, pollMsl := 1 } :=
    ⟨hs.tsrRetry, Int.one_nonneg, hs.msr⟩
  rw [Serial.ierPolled, if_pos hs.pollMsl]
  dsimp only
  split
  · exact ⟨1, hone.serialUpdateMsl⟩
  · exact ⟨0, rfl⟩

theorem sane_serialReset (s : SerialState) (now : BitVec 64) : Sane (serialReset s now) := by
  have hlines : (uartMsrDcd ||| uartMsrDsr ||| uartMsrCts) ||| mslLines =
      uartMsrDcd ||| uartMsrDsr ||| uartMsrCts := by decide
  exact ⟨le_refl _, le_refl _, hlines⟩

theorem sane_serialPreInit (now : BitVec 64) : Sane (serialPreInit now) := by
  rw [serialPreInit, (sane_serialReset _ now).serialUpdateMsl]
  exact sane_serialReset _ now

namespace Emits

variable {armed : List Timer} {s s' s'' : SerialState}

theorem sane_of_outside (h : outside s' = outside s) (hs : Sane s) : Sane s' := by
  simp only [outside, Prod.mk.injEq] at h
  obtain ⟨-, -, htsr, hpoll, hmsr⟩ := h
  exact ⟨htsr ▸ hs.tsrRetry, hpoll ▸ hs.pollMsl, hmsr ▸ hs.msr⟩

/-- A call that does nothing of the kind. -/
theorem of_outside (h : outside s' = outside s) : Emits armed s s' where
  log := by
    have hlog : s'.log = s.log := congrArg Prod.fst h
    exact ⟨[], by rw [hlog, List.append_nil], fun _ he ↦ absurd he List.not_mem_nil⟩
  mcr := congrArg (fun p ↦ p.2.1) h
  sane := sane_of_outside h

theorem refl : Emits armed s s := of_outside rfl

theorem trans (h : Emits armed s s') (h' : Emits armed s' s'') : Emits armed s s'' where
  log := by
    obtain ⟨es, hlog, hes⟩ := h.log
    obtain ⟨es', hlog', hes'⟩ := h'.log
    refine ⟨es ++ es', by rw [hlog', hlog, List.append_assoc], fun e he ↦ ?_⟩
    rcases List.mem_append.mp he with he | he
    · exact hes e he
    · exact hes' e he
  mcr := h'.mcr.trans h.mcr
  sane hs := h'.sane (h.sane hs)

/-- One effect that arms or stops what it may. -/
theorem of_emit {e : Effect} (h : outside s' = outside (s.emit e))
    (harm : ∀ timer, command e = some (.arm timer) → timer ∈ armed)
    (hstop : ∀ timer, command e = some (.stop timer) → timer = .fifoTimeout) :
    Emits armed s s' where
  log := by
    refine ⟨[e], congrArg Prod.fst h, fun e' he ↦ ?_⟩
    rw [List.mem_singleton.mp he]
    exact ⟨harm, hstop⟩
  mcr := congrArg (fun p ↦ p.2.1) h
  sane hs := sane_of_outside (s := s.emit e) h ⟨hs.tsrRetry, hs.pollMsl, hs.msr⟩

/-- A call that leaves the log and modem control alone. -/
theorem of_sane (hlog : s'.log = s.log) (hmcr : s'.mcr = s.mcr) (h : Sane s → Sane s') :
    Emits armed s s' where
  log := ⟨[], by rw [hlog, List.append_nil], fun _ he ↦ absurd he List.not_mem_nil⟩
  mcr := hmcr
  sane := h

/-- What a device that only differs elsewhere does next. -/
theorem after (h : outside s' = outside s) (h' : Emits armed s' s'') : Emits armed s s'' :=
  (of_outside h).trans h'

/-- Arming a timer. -/
theorem absolute {timer : Timer} {time : BitVec 64} (h : outside s' = outside s)
    (ht : timer ∈ armed) : Emits armed s (s'.emit (.oneshotAbsolute timer time)) :=
  after h (of_emit rfl (fun _ ht' ↦ by cases ht'; exact ht) (fun _ ht' ↦ by cases ht'))

section

variable (armed s)

theorem serialUpdateIrq (h : outside s' = outside s) : Emits armed s (serialUpdateIrq s') :=
  after h (of_emit rfl (fun _ ht ↦ by cases ht) (fun _ ht ↦ by cases ht))

theorem serialUpdateParameters (h : outside s' = outside s) :
    Emits armed s (serialUpdateParameters s') := by
  refine after h ?_
  rw [Serial.serialUpdateParameters]
  split
  · exact refl
  · exact of_outside rfl

/-- A call on the modem status only has to be followed from a sane device. -/
theorem serialUpdateMsl (h : Sane s) : Emits armed s (serialUpdateMsl s) := by
  rw [h.serialUpdateMsl]
  exact refl

theorem serialReceive1 (now : BitVec 64) (c : BitVec 8) (h : .fifoTimeout ∈ armed) :
    Emits armed s (serialReceive1 s now c) := by
  rw [Serial.serialReceive1]
  split
  · have hput : Emits armed s (fifoPutRecv s c) := by
      rw [fifoPutRecv]
      split <;> exact of_outside rfl
    refine trans (hput.trans ?_) (serialUpdateIrq armed _ rfl)
    exact absolute rfl h
  · refine trans ?_ (serialUpdateIrq armed _ rfl)
    split <;> exact of_outside rfl

theorem receiveLoop (now : BitVec 64) (ring : List (BitVec 8)) (h : .fifoTimeout ∈ armed) :
    Emits armed s (receiveLoop s now ring).1 := by
  induction ring generalizing s with
  | nil => exact refl
  | cons c rest ih =>
    rw [Serial.receiveLoop]
    split
    · exact refl
    · exact (serialReceive1 armed s now c h).trans (ih _)

theorem serialCharacterInterrupt (now : BitVec 64) (ring : List (BitVec 8))
    (h : .fifoTimeout ∈ armed) (h' : .moreChars ∈ armed) :
    Emits armed s (serialCharacterInterrupt s now ring).1 := by
  rw [Serial.serialCharacterInterrupt]
  refine (receiveLoop armed s now ring h).trans ?_
  dsimp only
  split
  · exact of_emit rfl (fun _ ht ↦ by cases ht; exact h') (fun _ ht ↦ by cases ht)
  · exact refl

theorem fifoTimeoutInt : Emits armed s (fifoTimeoutInt s) := by
  rw [Serial.fifoTimeoutInt]
  split
  · exact refl
  · exact serialUpdateIrq armed s rfl

theorem xmitLoad : Emits armed s (xmitLoad s) := by
  rw [Serial.xmitLoad]
  split
  · split <;> exact of_outside rfl
  · exact refl

theorem xmitDone (t : Times) (h : .transmit ∈ armed) : Emits armed s (xmitDone s t) := by
  simp only [Serial.xmitDone]
  split
  · exact serialUpdateIrq armed s rfl
  · exact absolute rfl h

theorem serialXmit (t : Times) (hs : Sane s) (h : .fifoTimeout ∈ armed) (h' : .transmit ∈ armed) :
    Emits armed s (serialXmit s t) := by
  refine (xmitLoad armed s).trans ?_
  replace hs := (xmitLoad armed s).sane hs
  rw [Serial.serialXmit]
  generalize Serial.xmitLoad s = s at hs ⊢
  split
  · exact (serialReceive1 armed s _ _ h).trans (xmitDone armed _ t h')
  · split
    · split
      · have hretry : Emits armed s { s with tsrRetry := s.tsrRetry + 1 } :=
          of_sane rfl rfl fun hs ↦ ⟨Int.add_nonneg hs.tsrRetry Int.one_nonneg, hs.pollMsl, hs.msr⟩
        exact hretry.trans (absolute rfl h')
      · rw [if_neg (not_lt.mpr hs.pollMsl)]
        exact xmitDone armed s t h'
    · have hput : Emits armed s (s.emit (.putchar s.tsr)) :=
        of_emit rfl (fun _ ht ↦ by cases ht) (fun _ ht ↦ by cases ht)
      have hsent : Emits armed (s.emit (.putchar s.tsr))
          { s.emit (.putchar s.tsr) with charsSent := s.charsSent + 1, tsrRetry := 0 } :=
        of_sane rfl rfl fun hs ↦ ⟨le_refl _, hs.pollMsl, hs.msr⟩
      exact (hput.trans hsent).trans (xmitDone armed _ t h')

theorem storeThr (val : BitVec 8) : Emits armed s (storeThr s val) := by
  simp only [Serial.storeThr]
  split <;> exact serialUpdateIrq armed s rfl

theorem ierPolled (val : BitVec 8) (hs : Sane s) : Emits armed s (ierPolled s val) := by
  have hone : Sane { s with ier := val &&& 0x0f, pollMsl := 1 } :=
    ⟨hs.tsrRetry, Int.one_nonneg, hs.msr⟩
  simp only [Serial.ierPolled]
  split
  · split
    · rw [hone.serialUpdateMsl]
      exact of_sane rfl rfl fun _ ↦ hone
    · exact of_sane rfl rfl fun _ ↦ ⟨hs.tsrRetry, le_refl _, hs.msr⟩
  · exact of_outside rfl

theorem writeIer (val : BitVec 8) (hs : Sane s) : Emits armed s (writeIer s val) := by
  refine (ierPolled armed s val hs).trans ?_
  rw [writeIer_eq]
  split
  · exact serialUpdateIrq armed (Serial.ierPolled s val) rfl
  · exact refl

theorem fcrSet (val : BitVec 8) : Emits armed s (fcrSet s val) := by
  have hrecv : Emits armed s (if anyBit val uartFcrRfr then
      { s.emit (.stop .fifoTimeout) with
        timeoutIpending := false, recvFifo := fifoClear s.recvFifo }
      else s) := by
    split
    · exact of_emit rfl (fun _ ht ↦ by cases ht) (fun _ ht ↦ by cases ht; rfl)
    · exact refl
  refine hrecv.trans (of_outside ?_)
  simp only [Serial.fcrSet]
  split <;> split <;> rfl

theorem writeFcr (val : BitVec 8) : Emits armed s (writeFcr s val) := by
  by_cases h : s.fcr = val
  · rw [Serial.writeFcr, if_pos h]
    exact refl
  · rw [writeFcr_eq h]
    exact (fcrSet armed s _).trans (serialUpdateIrq armed _ rfl)

/-- **A port write** that is not to modem control, and puts nothing into the transmit register
unless the timers for that are among those it may arm. -/
theorem serialIoportWrite (t : Times) (addr : ℕ) (val : BitVec 8) (hs : Sane s)
    (hmcr : addr % 8 ≠ 4)
    (h : transmitted s addr val = [] ∨ .fifoTimeout ∈ armed ∧ .transmit ∈ armed) :
    Emits armed s (serialIoportWrite s t addr val) := by
  rw [Serial.serialIoportWrite]
  split
  · rename_i haddr
    split
    · exact serialUpdateParameters armed s rfl
    · rename_i hdlab
      have hin : .fifoTimeout ∈ armed ∧ .transmit ∈ armed :=
        h.resolve_left (by simp [transmitted, haddr, hdlab])
      have hstore := storeThr armed s val
      exact hstore.trans (serialXmit armed _ t (hstore.sane hs) hin.1 hin.2)
  · split
    · exact serialUpdateParameters armed s rfl
    · exact writeIer armed s val hs
  · exact writeFcr armed s val
  · exact serialUpdateParameters armed s rfl
  · rename_i haddr
    exact absurd haddr hmcr
  all_goals exact of_outside rfl

theorem readRbr (now : BitVec 64) (h : .fifoTimeout ∈ armed) :
    Emits armed s (readRbr s now).2 := by
  rw [Serial.readRbr]
  split
  · dsimp only
    refine trans ?_ (serialUpdateIrq armed _ rfl)
    split
    · exact of_outside rfl
    · exact of_emit (e := .oneshotAbsolute .fifoTimeout _) rfl (fun _ ht ↦ by cases ht; exact h)
        (fun _ ht ↦ by cases ht)
  · exact serialUpdateIrq armed s rfl

theorem readMsr (hs : Sane s) : Emits armed s (readMsr s).2 := by
  cases hloop : anyBit s.mcr uartMcrLoop with
  | true =>
    rw [Serial.readMsr, if_pos hloop]
    exact refl
  | false =>
    have hclear : (s.msr &&& 0xf0) ||| mslLines = s.msr &&& 0xf0 := by
      have hlines : mslLines &&& 0xf0 = mslLines := by decide
      rw [← hlines, ← BitVec.and_or_distrib_right, hs.msr]
    rw [readMsr_eq hloop, hs.msrPolled]
    split
    · refine trans ?_ (serialUpdateIrq armed _ rfl)
      exact of_sane rfl rfl fun hs ↦ ⟨hs.tsrRetry, hs.pollMsl, hclear⟩
    · exact refl

/-- **A port read** arms only the receive timeout. -/
theorem serialIoportRead (now : BitVec 64) (addr : ℕ) (hs : Sane s) (h : .fifoTimeout ∈ armed) :
    Emits armed s (serialIoportRead s now addr).2 := by
  rw [Serial.serialIoportRead]
  split
  · split
    · exact refl
    · exact readRbr armed s now h
  · split <;> exact refl
  · dsimp only
    split
    · exact serialUpdateIrq armed s rfl
    · exact refl
  · exact refl
  · exact refl
  · dsimp only
    split
    · exact serialUpdateIrq armed s rfl
    · exact refl
  · exact readMsr armed s hs
  · exact refl

/-- **Handling timer completions** arms the transmit timer only if it is among them. -/
theorem serialTimerInterrupt (completed : Completed) (t : Times) (ring : List (BitVec 8))
    (hs : Sane s) (h : .fifoTimeout ∈ armed) (h' : .moreChars ∈ armed)
    (ht : completed.transmit = true → .transmit ∈ armed) :
    Emits armed s (serialTimerInterrupt s completed t ring).1 := by
  have key : Emits armed s (Serial.serialTimerInterrupt s completed t ring).1 ∧
      Sane (Serial.serialTimerInterrupt s completed t ring).1 := by
    have hnext : ∀ {s₁ s₂ : SerialState}, Emits armed s s₁ ∧ Sane s₁ → Emits armed s₁ s₂ →
        Emits armed s s₂ ∧ Sane s₂ := fun h₁ h₂ ↦ ⟨h₁.1.trans h₂, h₂.sane h₁.2⟩
    refine serialTimerInterrupt_rule ⟨refl, hs⟩ completed t ring
      (fun s₁ h₁ ↦ hnext h₁ (fifoTimeoutInt armed s₁)) (fun htr s₁ h₁ ↦ ?_)
      (fun s₁ h₁ ↦ hnext h₁ (serialUpdateMsl armed s₁ h₁.2))
      (fun _ s₁ h₁ ↦ hnext h₁ (serialCharacterInterrupt armed s₁ _ ring h h'))
    have hreset : Emits armed s₁ { s₁ with charsSent := 0 } := of_outside rfl
    exact hnext (hnext h₁ hreset) (serialXmit armed _ t (hreset.sane h₁.2) h (ht htr))
  exact key.1

end

/-- Loopback stays off. -/
theorem loopOff (h : Emits armed s s') (hloop : LoopOff s) : LoopOff s' := by
  rw [LoopOff, h.mcr]
  exact hloop

end Emits

/-- A write to modem control does that and nothing else. -/
theorem serialIoportWrite_mcr {s : SerialState} {addr : ℕ} (haddr : addr % 8 = 4) (t : Times)
    (val : BitVec 8) : serialIoportWrite s t addr val = { s with mcr := val &&& 0x1f } := by
  simp only [serialIoportWrite, haddr]

/-- So the timers do not hear of it. -/
theorem timers_withSerial_mcr {y : Machine} {addr : ℕ} (haddr : addr % 8 = 4) (t : Times)
    (val : BitVec 8) :
    (y.withSerial (serialIoportWrite y.serial t addr val)).timers = y.timers := by
  have hlog : news y.serial.log (serialIoportWrite y.serial t addr val).log = [] := by
    rw [serialIoportWrite_mcr haddr]
    exact List.drop_length
  change y.timers.obeyAll command
    (news y.serial.log (serialIoportWrite y.serial t addr val).log) = _
  rw [hlog]
  rfl

namespace Sane

variable {s : SerialState} (h : Sane s)

include h

/-! Each function that is called from outside keeps the device sane. -/

theorem serialXmit (t : Times) : Sane (serialXmit s t) :=
  (Emits.serialXmit [.fifoTimeout, .transmit] s t h (by decide) (by decide)).sane h

theorem serialIoportRead (now : BitVec 64) (addr : ℕ) : Sane (serialIoportRead s now addr).2 :=
  (Emits.serialIoportRead [.fifoTimeout] s now addr h (by decide)).sane h

theorem serialIoportWrite (t : Times) (addr : ℕ) (val : BitVec 8) :
    Sane (serialIoportWrite s t addr val) := by
  by_cases haddr : addr % 8 = 4
  · rw [serialIoportWrite_mcr haddr]
    exact ⟨h.tsrRetry, h.pollMsl, h.msr⟩
  · exact (Emits.serialIoportWrite [.fifoTimeout, .transmit] s t addr val h haddr
      (.inr ⟨by decide, by decide⟩)).sane h

theorem serialTimerInterrupt (completed : Completed) (t : Times) (ring : List (BitVec 8)) :
    Sane (serialTimerInterrupt s completed t ring).1 :=
  (Emits.serialTimerInterrupt [.fifoTimeout, .moreChars, .transmit] s completed t ring h
    (by decide) (by decide) fun _ ↦ by decide).sane h

theorem serialCharacterInterrupt (now : BitVec 64) (ring : List (BitVec 8)) :
    Sane (serialCharacterInterrupt s now ring).1 :=
  (Emits.serialCharacterInterrupt [.fifoTimeout, .moreChars] s now ring (by decide)
    (by decide)).sane h

end Sane

/-- Every step keeps the device sane. -/
theorem Sane.next {y : Machine} (h : Sane y.serial) (e : Event) : Sane (y.next e).serial := by
  cases e with
  | portIn addr now => exact h.serialIoportRead now addr
  | portOut addr val t => exact h.serialIoportWrite t addr val
  | expire timer => exact h
  | timer completed t =>
    change Sane (GetcharBuf.serialTimerInterrupt y.serial completed t y.buffer).1
    rw [GetcharBuf.serialTimerInterrupt_fst]
    exact h.serialTimerInterrupt completed t _
  | enqueue c => exact h
  | signal => exact h
  | character now =>
    change Sane (GetcharBuf.serialCharacterInterrupt y.serial now y.buffer).1
    rw [GetcharBuf.serialCharacterInterrupt_fst]
    exact h.serialCharacterInterrupt now _

namespace Machine

variable {armed : List Timer} {y : Machine} {s : SerialState} {timer : Timer}

/-- **A completion that is to come** still comes after a call, unless it is the receive
timeout's. -/
theorem outstanding_withSerial (h : Emits armed y.serial s) (hne : timer ≠ .fifoTimeout)
    (ho : y.timers.Outstanding timer) : (y.withSerial s).timers.Outstanding timer := by
  obtain ⟨es, hlog, hes⟩ := h.log
  change (y.timers.obeyAll command (news y.serial.log s.log)).Outstanding timer
  rw [hlog, news_append]
  exact ho.obeyAll fun e he hstop ↦ hne ((hes e he).2 timer hstop)

/-- **A call arms only what it may.** -/
theorem not_armed_withSerial (h : Emits armed y.serial s) (hnot : timer ∉ armed)
    (ha : y.timers.armed timer = false) : (y.withSerial s).timers.armed timer = false := by
  obtain ⟨es, hlog, hes⟩ := h.log
  change (y.timers.obeyAll command (news y.serial.log s.log)).armed timer = false
  rw [hlog, news_append]
  exact Timers.not_armed_obeyAll ha fun e he harm ↦ hnot ((hes e he).1 timer harm)

end Machine

/-- The transmit timer is neither armed nor recorded. -/
def Quiet (y : Machine) : Prop :=
  y.timers.armed .transmit = false ∧ y.timers.recorded .transmit = false

/-- A call that may not arm the transmit timer does not. -/
theorem Quiet.withSerial {y : Machine} {s : SerialState} {armed : List Timer} (h : Quiet y)
    (hem : Emits armed y.serial s) (hnot : .transmit ∉ armed) : Quiet (y.withSerial s) := by
  refine ⟨Machine.not_armed_withSerial hem hnot h.1, ?_⟩
  change (y.timers.obeyAll command _).recorded .transmit = false
  rw [Timers.recorded_obeyAll]
  exact h.2

end Serial
end CamkesVm
