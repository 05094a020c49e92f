import CamkesVm.Serial.Emits

/-!
# The interrupt of the UART

Five sources share the interrupt line of the UART.  `sources` lists them with their numbers, the
most urgent first; the device is `Coherent` if the low bits of interrupt identification name the
first source that asks and the line is raised exactly if there is one.

The source has one function that brings this about, `serial_update_irq`, and calls it where a
register changes that some source depends on — with one exception.  A write to interrupt enable
calls it only while `THRE` is set.  `KeepsHighest` asks of such a write, while `THRE` is clear, that
it does not change which source is the first to ask, and the device is coherent throughout a run
exactly if that holds of every write (`run_coherent_iff`).

## What is here

* `sources`, `firstAsking`, `highest`, `irqSource_eq` — the sources in order, and that the `if`
  chain of the source finds the first of them.
* `irqLevel`, `Coherent` — the line, from the log, and the law.
* `irqView` — the part of the device that the law is about; functions that leave it alone keep the
  device coherent.
* `Coherent.writeIer_iff` — the one write that does not always do so.
* `KeepsHighest`, `Coherent.next_iff`, `run_coherent_iff`, `not_coherent_after_ier` — one event,
  runs, and a run that goes wrong.
-/

set_option autoImplicit false

namespace CamkesVm
namespace Serial

open Transition TimerService EffectLog

/-! ## The sources -/

/-- The sources of an interrupt, the most urgent first: whether one asks, and its number. -/
def sources (s : SerialState) : List (Bool × BitVec 8) :=
  [(anyBit s.ier uartIerRlsi && anyBit s.lsr uartLsrIntAny, uartIirRlsi),
    (anyBit s.ier uartIerRdi && s.timeoutIpending, uartIirCti),
    (anyBit s.ier uartIerRdi && anyBit s.lsr uartLsrDr &&
      (!fifoEnabled s || decide (s.recvFifo.itl ≤ s.recvFifo.count)), uartIirRdi),
    (anyBit s.ier uartIerThri && s.thrIpending, uartIirThri),
    (anyBit s.ier uartIerMsi && anyBit s.msr uartMsrAnyDelta, uartIirMsi)]

/-- The number of the first of some sources that asks. -/
def firstAsking : List (Bool × BitVec 8) → Option (BitVec 8)
  | [] => none
  | (asks, number) :: rest => if asks then some number else firstAsking rest

/-- The number of the first source that asks. -/
def highest (s : SerialState) : Option (BitVec 8) := firstAsking (sources s)

/-- The level `vm_set_irq_level` was last called with. -/
def irqLevel (s : SerialState) : ℕ :=
  latest (fun | .setIrqLevel level => some level | _ => none) 0 s.log

/-- **The device shows the interrupt it should.** -/
structure Coherent (s : SerialState) : Prop where
  /-- Interrupt identification names the first source that asks. -/
  iir : s.iir &&& 0x0f = (highest s).getD uartIirNoInt
  /-- The line is high if there is one, and low otherwise. -/
  level : irqLevel s = if (highest s).isSome then 1 else 0

/-- The first source to ask is one of them. -/
theorem highest_mem {l : List (Bool × BitVec 8)} {x : BitVec 8} (h : firstAsking l = some x) :
    x ∈ l.map Prod.snd := by
  induction l with
  | nil => cases h
  | cons p rest ih =>
    rw [firstAsking] at h
    split at h
    · cases h
      exact List.mem_cons_self
    · exact List.mem_cons_of_mem _ (ih h)

/-- The numbers of the sources are four bits, and none is the number for no source. -/
theorem number_of_highest {s : SerialState} {x : BitVec 8} (h : highest s = some x) :
    x &&& 0x0f = x ∧ x ≠ uartIirNoInt := by
  have hall : ∀ x ∈ [uartIirRlsi, uartIirCti, uartIirRdi, uartIirThri, uartIirMsi],
      x &&& 0x0f = x ∧ x ≠ uartIirNoInt := by decide
  exact hall x (highest_mem h)

/-- With every interrupt disabled no source asks. -/
theorem highest_eq_none {s : SerialState} (h : s.ier = 0) : highest s = none := by
  have hoff : ∀ m, anyBit 0 m = false := fun m ↦ by simp [anyBit]
  simp only [highest, sources, h, hoff, Bool.false_and, firstAsking, Bool.false_eq_true, if_false]

/-- What interrupt identification shows determines the source. -/
theorem highest_inj {s s' : SerialState}
    (h : (highest s).getD uartIirNoInt = (highest s').getD uartIirNoInt) :
    highest s = highest s' := by
  cases hs : highest s with
  | none =>
    cases hs' : highest s' with
    | none => rfl
    | some x' =>
      rw [hs, hs'] at h
      exact absurd h.symm (number_of_highest hs').2
  | some x =>
    cases hs' : highest s' with
    | none =>
      rw [hs, hs'] at h
      exact absurd h (number_of_highest hs).2
    | some x' =>
      rw [hs, hs'] at h
      exact congrArg some h

/-- **The function of the source finds the first source that asks.** -/
theorem irqSource_eq (s : SerialState) : irqSource s = (highest s).getD uartIirNoInt := by
  simp only [highest, sources, firstAsking, apply_ite (fun o ↦ Option.getD o uartIirNoInt)]
  rfl

theorem irqSource_low (s : SerialState) : irqSource s &&& 0x0f = irqSource s := by
  rw [irqSource_eq]
  cases h : highest s with
  | none => decide
  | some x => exact (number_of_highest h).1

theorem irqSource_bne (s : SerialState) : (irqSource s != uartIirNoInt) = (highest s).isSome := by
  rw [irqSource_eq]
  cases h : highest s with
  | none => decide
  | some x => exact bne_iff_ne.mpr (number_of_highest h).2

/-! ## The functions of the device -/

/-- **`serial_update_irq` brings it about**, whatever was the case before. -/
theorem coherent_serialUpdateIrq (s : SerialState) : Coherent (serialUpdateIrq s) := by
  have hsame : highest (serialUpdateIrq s) = highest s := rfl
  refine ⟨?_, ?_⟩
  · rw [hsame, ← irqSource_eq]
    change (irqSource s ||| (s.iir &&& 0xf0)) &&& 0x0f = irqSource s
    have hzero : (s.iir &&& 0xf0) &&& 0x0f = 0 := by
      rw [BitVec.and_assoc]
      simp
    rw [BitVec.and_or_distrib_right, hzero, irqSource_low]
    simp
  · rw [hsame, irqLevel, serialUpdateIrq, SerialState.emit, latest_concat, ← irqSource_bne]
    rfl

/-- What the interrupt depends on, and what shows it. -/
def irqView (s : SerialState) : Option (BitVec 8) × BitVec 8 × ℕ :=
  (highest s, s.iir &&& 0x0f, irqLevel s)

theorem Coherent.of_irqView {s s' : SerialState} (h : Coherent s) (heq : irqView s' = irqView s) :
    Coherent s' := by
  simp only [irqView, Prod.mk.injEq] at heq
  obtain ⟨hhighest, hiir, hlevel⟩ := heq
  exact ⟨by rw [hiir, hhighest]; exact h.iir, by rw [hlevel, hhighest]; exact h.level⟩

/-- An effect that is not on the line. -/
theorem irqView_emit (s : SerialState) {e : Effect} (h : ∀ level, e ≠ .setIrqLevel level) :
    irqView (s.emit e) = irqView s := by
  have hlevel : irqLevel (s.emit e) = irqLevel s := by
    rw [irqLevel, SerialState.emit, latest_concat]
    cases e with
    | setIrqLevel level => exact absurd rfl (h level)
    | _ => rfl
  have hhighest : highest (s.emit e) = highest s := rfl
  rw [irqView, irqView, hlevel, hhighest]
  rfl

/-- No source depends on the part of the line status that is about the transmitter. -/
theorem irqView_lsr (s : SerialState) {x : BitVec 8}
    (hany : anyBit x uartLsrIntAny = anyBit s.lsr uartLsrIntAny)
    (hdr : anyBit x uartLsrDr = anyBit s.lsr uartLsrDr) :
    irqView { s with lsr := x } = irqView s := by
  have hhighest : highest { s with lsr := x } = highest s := by
    simp only [highest, sources, hany, hdr]
    rfl
  rw [irqView, irqView, hhighest]
  rfl

theorem irqView_serialUpdateParameters (s : SerialState) :
    irqView (serialUpdateParameters s) = irqView s := by
  rw [serialUpdateParameters]
  split <;> rfl

theorem irqView_xmitLoad (s : SerialState) : irqView (xmitLoad s) = irqView s := by
  have hthre : ∀ s : SerialState, irqView { s with lsr := s.lsr ||| uartLsrThre } = irqView s :=
    fun s ↦ irqView_lsr s (anyBit_or_of_disjoint s.lsr (by decide))
      (anyBit_or_of_disjoint s.lsr (by decide))
  rw [xmitLoad]
  split
  · split
    · dsimp only
      split
      · exact hthre { s with tsr := _, xmitFifo := _ }
      · rfl
    · exact hthre { s with tsr := s.thr }
  · rfl

section

variable {s : SerialState}

theorem Coherent.xmitDone (h : Coherent s) (t : Times) : Coherent (xmitDone s t) := by
  simp only [Serial.xmitDone]
  split
  · exact coherent_serialUpdateIrq _
  · exact h.of_irqView (irqView_emit { s with lastXmitTs := t.lastXmitTs } (by simp))

theorem coherent_serialReceive1 (s : SerialState) (now : BitVec 64) (c : BitVec 8) :
    Coherent (serialReceive1 s now c) := by
  rw [serialReceive1]
  split <;> exact coherent_serialUpdateIrq _

/-- **Running the transmitter.** -/
theorem Coherent.serialXmit (h : Coherent s) (t : Times) : Coherent (serialXmit s t) := by
  have hload := h.of_irqView (irqView_xmitLoad s)
  rw [Serial.serialXmit]
  generalize xmitLoad s = s at hload ⊢
  split
  · exact (coherent_serialReceive1 s _ _).xmitDone t
  · split
    · split
      · exact hload.of_irqView (irqView_emit { s with tsrRetry := s.tsrRetry + 1 } (by simp))
      · have hretry : Coherent { s with tsrRetry := -1 } := hload.of_irqView rfl
        split
        · exact hretry.xmitDone t
        · exact hload.xmitDone t
    · have hput : Coherent (s.emit (.putchar s.tsr)) := hload.of_irqView (irqView_emit s (by simp))
      have hsent : Coherent
          { s.emit (.putchar s.tsr) with charsSent := s.charsSent + 1, tsrRetry := 0 } :=
        hput.of_irqView rfl
      exact hsent.xmitDone t

theorem Coherent.receiveLoop (h : Coherent s) (now : BitVec 64) (ring : List (BitVec 8)) :
    Coherent (receiveLoop s now ring).1 := by
  induction ring generalizing s with
  | nil => exact h
  | cons c rest ih =>
    rw [Serial.receiveLoop]
    split
    · exact h
    · exact ih (coherent_serialReceive1 s now c)

/-- **Handling the signal.** -/
theorem Coherent.serialCharacterInterrupt (h : Coherent s) (now : BitVec 64)
    (ring : List (BitVec 8)) : Coherent (serialCharacterInterrupt s now ring).1 := by
  have hloop := h.receiveLoop now ring
  rw [Serial.serialCharacterInterrupt]
  dsimp only
  split
  · exact hloop.of_irqView (irqView_emit _ (by simp))
  · exact hloop

theorem Coherent.fifoTimeoutInt (h : Coherent s) : Coherent (fifoTimeoutInt s) := by
  rw [Serial.fifoTimeoutInt]
  split
  · exact h
  · exact coherent_serialUpdateIrq _

/-- **Handling timer completions.** -/
theorem Coherent.serialTimerInterrupt (h : Coherent s) (hs : Sane s) (completed : Completed)
    (t : Times) (ring : List (BitVec 8)) :
    Coherent (serialTimerInterrupt s completed t ring).1 := by
  have key : Coherent (Serial.serialTimerInterrupt s completed t ring).1 ∧
      Sane (Serial.serialTimerInterrupt s completed t ring).1 := by
    refine serialTimerInterrupt_rule (P := fun s ↦ Coherent s ∧ Sane s) ⟨h, hs⟩ completed t ring
      (fun s h ↦ ⟨h.1.fifoTimeoutInt, (Emits.fifoTimeoutInt [] s).sane h.2⟩) (fun _ s h ↦ ?_)
      (fun s h ↦ ?_)
      (fun _ _ h ↦ ⟨h.1.serialCharacterInterrupt _ ring, h.2.serialCharacterInterrupt _ ring⟩)
    · have hreset : Sane { s with charsSent := 0 } := ⟨h.2.tsrRetry, h.2.pollMsl, h.2.msr⟩
      have hcoherent : Coherent { s with charsSent := 0 } := h.1.of_irqView rfl
      exact ⟨hcoherent.serialXmit t, hreset.serialXmit t⟩
    · rw [h.2.serialUpdateMsl]
      exact h
  exact key.1

theorem coherent_storeThr (s : SerialState) (val : BitVec 8) : Coherent (storeThr s val) := by
  simp only [storeThr]
  split <;> exact coherent_serialUpdateIrq _

theorem Coherent.writeFcr (h : Coherent s) (val : BitVec 8) : Coherent (writeFcr s val) := by
  by_cases heq : s.fcr = val
  · rw [Serial.writeFcr, if_pos heq]
    exact h
  · rw [writeFcr_eq heq]
    exact coherent_serialUpdateIrq _

/-- **A write to interrupt enable** leaves the device coherent exactly if `THRE` is set or the first
source that asks is the same as before. -/
theorem Coherent.writeIer_iff (h : Coherent s) (hs : Sane s) (val : BitVec 8) :
    Coherent (writeIer s val) ↔
      (thrEmpty s = false → highest { s with ier := val &&& 0x0f } = highest s) := by
  obtain ⟨p, hpolled⟩ := hs.ierPolled val
  have hthre : thrEmpty (ierPolled s val) = thrEmpty s := by
    rw [hpolled]
    rfl
  rw [writeIer_eq, hthre]
  cases he : thrEmpty s with
  | true =>
    rw [if_pos rfl]
    exact iff_of_true (coherent_serialUpdateIrq _) (fun hno ↦ absurd hno (by decide))
  | false =>
    rw [if_neg Bool.false_ne_true, hpolled]
    refine ⟨fun hnew _ ↦ ?_, fun hsame ↦ ?_⟩
    · -- interrupt identification has not changed, so it names the same source
      have hnamed : (highest { s with ier := val &&& 0x0f }).getD uartIirNoInt =
          (highest s).getD uartIirNoInt := hnew.iir.symm.trans h.iir
      exact highest_inj hnamed
    · have hview : irqView { s with ier := val &&& 0x0f, pollMsl := p } = irqView s := by
        rw [irqView, irqView]
        exact congrArg (fun o ↦ (o, s.iir &&& 0x0f, irqLevel s)) (hsame rfl)
      exact h.of_irqView hview

/-- **Reading a port.** -/
theorem Coherent.serialIoportRead (h : Coherent s) (hs : Sane s) (now : BitVec 64) (addr : ℕ) :
    Coherent (serialIoportRead s now addr).2 := by
  have hrbr : Coherent (readRbr s now).2 := by
    rw [readRbr]
    split <;> exact coherent_serialUpdateIrq _
  have hmsr : Coherent (readMsr s).2 := by
    cases hloop : anyBit s.mcr uartMcrLoop with
    | true =>
      rw [readMsr, if_pos hloop]
      exact h
    | false =>
      rw [readMsr_eq hloop, hs.msrPolled]
      split
      · exact coherent_serialUpdateIrq _
      · exact h
  rw [Serial.serialIoportRead]
  split
  · split
    · exact h
    · exact hrbr
  · split <;> exact h
  · dsimp only
    split
    · exact coherent_serialUpdateIrq _
    · exact h
  · exact h
  · exact h
  · dsimp only
    split
    · exact coherent_serialUpdateIrq _
    · exact h
  · exact hmsr
  · exact h

end

/-! ## Runs -/

/-- A write to interrupt enable while `THRE` is clear does not change which source is the first to
ask. -/
def KeepsHighest (y : Machine) : Event → Prop
  | .portOut addr val _ => addr % 8 = 1 → anyBit y.serial.lcr uartLcrDlab = false →
      thrEmpty y.serial = false → highest { y.serial with ier := val &&& 0x0f } = highest y.serial
  | _ => True

/-- **A port write.** -/
theorem Coherent.serialIoportWrite_iff {y : Machine} (h : Coherent y.serial) (hs : Sane y.serial)
    (t : Times) (addr : ℕ) (val : BitVec 8) :
    KeepsHighest y (.portOut addr val t) ↔ Coherent (serialIoportWrite y.serial t addr val) := by
  have hother : addr % 8 ≠ 1 → KeepsHighest y (.portOut addr val t) :=
    fun hne haddr ↦ absurd haddr hne
  rw [serialIoportWrite]
  split
  · rename_i haddr
    refine iff_of_true (hother (by omega)) ?_
    split
    · exact h.of_irqView (irqView_serialUpdateParameters _)
    · exact (coherent_storeThr _ val).serialXmit t
  · rename_i haddr
    cases hdlab : anyBit y.serial.lcr uartLcrDlab with
    | true =>
      refine iff_of_true (fun _ hno ↦ absurd (hdlab.symm.trans hno) (by decide)) ?_
      rw [if_pos rfl]
      exact h.of_irqView (irqView_serialUpdateParameters _)
    | false =>
      rw [if_neg Bool.false_ne_true, h.writeIer_iff hs val]
      exact ⟨fun hk ↦ hk haddr hdlab, fun hk _ _ ↦ hk⟩
  · rename_i haddr
    exact iff_of_true (hother (by omega)) (h.writeFcr val)
  · rename_i haddr
    exact iff_of_true (hother (by omega)) (h.of_irqView (irqView_serialUpdateParameters _))
  · rename_i haddr
    exact iff_of_true (hother (by omega)) (h.of_irqView rfl)
  · rename_i haddr
    exact iff_of_true (hother (by omega)) (h.of_irqView rfl)
  · rename_i hne _ _ _ _
    exact iff_of_true (hother hne) h

/-- **One step** leaves the device coherent exactly if it keeps the first source that asks where
nothing looks for it. -/
theorem Coherent.next_iff {y : Machine} (h : Coherent y.serial) (hs : Sane y.serial) (e : Event) :
    KeepsHighest y e ↔ Coherent (y.next e).serial := by
  cases e with
  | portIn addr now => exact iff_of_true trivial (h.serialIoportRead hs now addr)
  | portOut addr val t => exact h.serialIoportWrite_iff hs t addr val
  | expire timer => exact iff_of_true trivial h
  | timer completed t =>
    refine iff_of_true trivial ?_
    change Coherent (GetcharBuf.serialTimerInterrupt y.serial completed t y.buffer).1
    rw [GetcharBuf.serialTimerInterrupt_fst]
    exact h.serialTimerInterrupt hs completed t _
  | enqueue c => exact iff_of_true trivial h
  | signal => exact iff_of_true trivial h
  | character now =>
    refine iff_of_true trivial ?_
    change Coherent (GetcharBuf.serialCharacterInterrupt y.serial now y.buffer).1
    rw [GetcharBuf.serialCharacterInterrupt_fst]
    exact h.serialCharacterInterrupt now _

theorem coherent_init (now : BitVec 64) : Coherent (Machine.init now).serial := by
  have hreset : Coherent (serialReset { zeroState with baudbase := 115200 } now) := by
    have hnone : highest (serialReset { zeroState with baudbase := 115200 } now) = none :=
      highest_eq_none rfl
    refine ⟨?_, ?_⟩
    · rw [hnone]
      exact (by decide : uartIirNoInt &&& 0x0f = uartIirNoInt)
    · rw [hnone]
      rfl
  change Coherent (serialPreInit now)
  rw [serialPreInit, (sane_serialReset _ now).serialUpdateMsl]
  exact hreset

/-- **When the interrupt is what it should be**: in the runs in which no write to interrupt enable
while `THRE` is clear changes the first source that asks, and in those only, the device is coherent
in every state. -/
theorem run_coherent_iff (now : BitVec 64) (es : List Event) (y : Machine) :
    Run (Guarded KeepsHighest Machine.Step) (Machine.init now) es y ↔
      Run (Guarded (fun y _ ↦ Coherent y.serial) Machine.Step) (Machine.init now) es y ∧
        Coherent y.serial :=
  Run.guarded_iff_of_invariant (J := fun y ↦ Sane y.serial) (coherent_init now)
    (sane_serialPreInit now) (fun _ e _ hs _ hstep ↦ hstep.2 ▸ hs.next e)
    (fun _ e _ hs h hstep ↦ hstep.2 ▸ h.next_iff hs e)

set_option maxRecDepth 4000 in
/-- **A received character raises no interrupt.**  The guest writes 18 bytes, of which one has to
wait in the holding register, and then enables the receive interrupt; a character has been there
since before. -/
theorem not_coherent_after_ier :
    ¬∀ now es y, Run Machine.Step (Machine.init now) es y → Coherent y.serial := by
  intro h
  let es : List Event := [.enqueue 0x41, .signal, .character 0] ++
    List.replicate 18 (.portOut 0 0x42 ⟨0, 0, 0⟩) ++ [.portOut 1 0x01 ⟨0, 0, 0⟩]
  have hcoherent := h 0 es _ (run_foldl (by decide))
  exact absurd hcoherent.iir (by decide)

end Serial
end CamkesVm
