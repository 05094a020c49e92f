import CamkesVm.Serial.Orderly

/-!
# Loopback

In loopback the transmitter hands its characters to the receiver.  A guest that tests the device
writes a byte, waits for `DR`, and reads it back (`LoopbackUse`); it should read what it wrote.

It does if nothing was on its way when it began: no byte is put off in the shift register, no
completion of the transmit timer is armed or waits to be handled, and the transmit FIFO, if it is in
use, is in step, which it is unless it was overrun.  And it does only then: a byte that was put off
is received in place of each that is written, a completion brings in a character that was not
written, and a FIFO out of step gives back what was in its slots before (`run_echoes_iff`).

## What is here

* `LoopbackUse`, `LoopbackStep`, `Echoed` — the guest's side: a test, and what should come of it.
* `Resting`, `Echoing` — what holds throughout a test that began at rest, with one lemma for each
  kind of event.
* `exists_read_back`, `exists_spurious`, `exists_other`, `exists_drained` — the other direction: for
  each way of not being at rest, a test that fails.
* `Echoes`, `AtRest`, `atRest_of_echoes`, `run_echoes_iff` — both directions, from any state of any
  run.

A test may be of any length, and may be given up at any point; it is judged at moments at which
there is nothing to read.
-/

set_option autoImplicit false

namespace CamkesVm
namespace Serial

open Transition TimerService EffectLog

/-! ## A guest that tests the device -/

/-- Loopback is on. -/
def LoopOn (s : SerialState) : Prop := anyBit s.mcr uartMcrLoop = true

/-- A guest that tests the device, with nothing coming in from outside.  It leaves loopback on, and
writes a byte only while there is none to read; so it does with resets of the receive FIFO. -/
def LoopbackUse (y : Machine) : Event → Prop
  | .portOut addr val _ =>
    (transmitted y.serial addr val ≠ [] → anyBit y.serial.lsr uartLsrDr = false) ∧
    (addr % 8 = 2 → ResetsRecv y.serial val → anyBit y.serial.lsr uartLsrDr = false) ∧
    (addr % 8 = 4 → anyBit val uartMcrLoop = true)
  | .timer completed _ => completed.moreChars = true → y.buffer.contents = []
  | .character _ => y.buffer.contents = []
  | .enqueue _ => False
  | _ => True

/-- A step in such a test. -/
abbrev LoopbackStep : Machine → Event → Machine → Prop := Guarded LoopbackUse Machine.Step

/-- **What was written came back**, or can still be read, since `y`. -/
def Echoed (y z : Machine) : Prop :=
  ∃ got, z.got = y.got ++ got ∧ z.written = y.written ++ (got ++ (receiver z.serial).unread)

/-- What holds throughout a test that began at rest. -/
structure Resting (z : Machine) : Prop where
  /-- The device is sane. -/
  sane : Sane z.serial
  /-- Loopback is on. -/
  loop : LoopOn z.serial
  /-- The transmitter is at rest. -/
  clear : (view z.serial).Clear
  /-- The transmit timer is neither armed nor recorded. -/
  quiet : Quiet z

/-- What holds besides, since there was nothing to read. -/
structure Echoing (y z : Machine) : Prop where
  /-- The receive FIFO is in order. -/
  fifoOk : FifoOk (receiver z.serial).fifo
  /-- `DR` says whether there is a character in it. -/
  agrees : (receiver z.serial).Agrees
  /-- What was written came back. -/
  echoed : Echoed y z

section

variable {s : SerialState}

/-! ### Writing a byte -/

theorem view_xmitLoad_storeThr (s : SerialState) (val : BitVec 8) :
    view (xmitLoad (storeThr s val)) = ((view s).store val).load := by
  rw [view_xmitLoad, view_storeThr]

theorem loopOn_storeThr (hloop : LoopOn s) (val : BitVec 8) : LoopOn (storeThr s val) := by
  rw [LoopOn, (Emits.storeThr [] s val).mcr]
  exact hloop

theorem view_serialXmit_storeThr (hloop : LoopOn s) (val : BitVec 8) (t : Times) :
    view (serialXmit (storeThr s val) t) = ((view s).store val).load := by
  rw [view_serialXmit_loop _ t (loopOn_storeThr hloop val), view_storeThr]

/-- **The byte loaded next is received.** -/
theorem receiver_serialXmit_storeThr (hloop : LoopOn s) (val : BitVec 8) (t : Times) :
    receiver (serialXmit (storeThr s val) t) =
      (receiver s).accept ((view s).store val).load.tsr := by
  have htsr : (xmitLoad (storeThr s val)).tsr = ((view s).store val).load.tsr :=
    congrArg Transmitter.tsr (view_xmitLoad_storeThr s val)
  rw [receiver_serialXmit, looped, if_pos (show anyBit _ _ = true from loopOn_storeThr hloop val),
    htsr, receiver_storeThr]
  rfl

/-- At rest the transmitter is done with it, and its timer is not armed. -/
theorem emits_serialXmit_storeThr (hloop : LoopOn s) (h : (view s).Clear) (val : BitVec 8)
    (t : Times) : Emits [.fifoTimeout] s (serialXmit (storeThr s val) t) := by
  obtain ⟨-, hempty, -⟩ := h.load_store val
  have hstore := Emits.storeThr [.fifoTimeout] s val
  refine (hstore.trans (Emits.xmitLoad [.fifoTimeout] (storeThr s val))).trans ?_
  have hthre : thrEmpty (xmitLoad (storeThr s val)) = true :=
    (congrArg Transmitter.empty (view_xmitLoad_storeThr s val)).trans hempty
  rw [serialXmit]
  simp only [xmitLoad_mcr, if_pos (show anyBit _ _ = true from loopOn_storeThr hloop val)]
  generalize xmitLoad (storeThr s val) = s₁ at hthre ⊢
  have hreceive := Emits.serialReceive1 [.fifoTimeout] s₁ t.received s₁.tsr (by decide)
  have hthre' : thrEmpty (serialReceive1 s₁ t.received s₁.tsr) = true :=
    (congrArg Transmitter.empty (view_serialReceive1 s₁ t.received s₁.tsr)).trans hthre
  refine hreceive.trans ?_
  generalize serialReceive1 s₁ t.received s₁.tsr = s₂ at hthre' ⊢
  -- `THRE` is set
  simp only [xmitDone]
  rw [if_pos (show thrEmpty { s₂ with lastXmitTs := t.lastXmitTs } = true from hthre')]
  exact .serialUpdateIrq [.fifoTimeout] s₂ rfl

end

/-! ### Event by event -/

namespace Resting

variable {z : Machine}

/-- A call that does not run the transmitter. -/
theorem of_emits {z' : Machine} {armed : List Timer} {s : SerialState} (h : Resting z)
    (hem : Emits armed z.serial s) (hnot : .transmit ∉ armed) (hclear : (view s).Clear)
    (hserial : z'.serial = s) (htimers : z'.timers = (z.withSerial s).timers) : Resting z' := by
  have hquiet := h.quiet.withSerial hem hnot
  rw [Quiet, ← htimers] at hquiet
  refine ⟨hserial ▸ hem.sane h.sane, ?_, hserial ▸ hclear, hquiet⟩
  rw [LoopOn, hserial, hem.mcr]
  exact h.loop

/-- The guest reads a port. -/
theorem portIn (h : Resting z) (addr : ℕ) (now : BitVec 64) :
    Resting (z.next (.portIn addr now)) := by
  refine h.of_emits (.serialIoportRead [.fifoTimeout] z.serial now addr h.sane (by decide))
    (by decide) ?_ rfl rfl
  rw [view_serialIoportRead]
  exact h.clear

/-- The guest writes to a port. -/
theorem portOut (h : Resting z) {addr : ℕ} {val : BitVec 8} {t : Times}
    (huse : LoopbackUse z (.portOut addr val t)) : Resting (z.next (.portOut addr val t)) := by
  rcases view_serialIoportWrite z.serial t addr val with
    ⟨-, -, hxmit⟩ | ⟨hnone, flush, enabled, hview, hsame, -⟩
  · have hem := emits_serialXmit_storeThr h.loop h.clear val t
    have hview := view_serialXmit_storeThr h.loop val t
    rw [← hxmit] at hem hview
    refine h.of_emits hem (by decide) ?_ rfl rfl
    rw [hview]
    exact (h.clear.load_store val).2.2
  · have hclear : (view (serialIoportWrite z.serial t addr val)).Clear := by
      rw [hview]
      exact h.clear.setFifo hsame
    by_cases haddr : addr % 8 = 4
    · refine ⟨h.sane.next _, ?_, hclear, ?_⟩
      · change LoopOn (serialIoportWrite z.serial t addr val)
        rw [serialIoportWrite_mcr haddr, LoopOn]
        exact (anyBit_and_of_subset val (by decide)).trans (huse.2.2 haddr)
      · change Quiet (z.withSerial (serialIoportWrite z.serial t addr val))
        rw [Quiet, timers_withSerial_mcr haddr]
        exact h.quiet
    · exact h.of_emits (.serialIoportWrite [] z.serial t addr val h.sane haddr (.inl hnone))
        (by decide) hclear rfl rfl

/-- There is no completion of the transmit timer to handle. -/
theorem not_transmit (h : Resting z) {completed : Completed} {t : Times}
    (hen : z.Enabled (.timer completed t)) : completed.transmit = false := by
  by_contra hno
  have hrecorded := hen.2.2.1 (Bool.not_eq_false _ ▸ hno)
  exact absurd (h.quiet.2.symm.trans hrecorded) (by decide)

/-- Other completions are handled. -/
theorem timer (h : Resting z) {completed : Completed} {t : Times}
    (hen : z.Enabled (.timer completed t)) : Resting (z.next (.timer completed t)) := by
  have htransmit := h.not_transmit hen
  let w : Machine := { z with timers := z.timers.collect completed.has }
  have hw : Resting w := by
    refine ⟨h.sane, h.loop, h.clear, h.quiet.1, ?_⟩
    change (z.timers.recorded .transmit && !completed.has .transmit) = false
    rw [h.quiet.2, Bool.false_and]
  obtain ⟨s', -, -, -, hview⟩ := view_serialTimerInterrupt z.serial completed t z.buffer.contents
  rw [htransmit, if_neg Bool.false_ne_true, ← GetcharBuf.serialTimerInterrupt_fst] at hview
  have hem := Emits.serialTimerInterrupt [.fifoTimeout, .moreChars] z.serial completed t
    z.buffer.contents h.sane (by decide) (by decide) fun hno ↦ by simp [htransmit] at hno
  rw [← GetcharBuf.serialTimerInterrupt_fst] at hem
  exact hw.of_emits hem (by decide) (hview ▸ h.clear) rfl rfl

/-- The signal is handled. -/
theorem character (h : Resting z) (now : BitVec 64) : Resting (z.next (.character now)) := by
  have hem := Emits.serialCharacterInterrupt [.fifoTimeout, .moreChars] z.serial now
    z.buffer.contents (by decide) (by decide)
  have hview := view_serialCharacterInterrupt z.serial now z.buffer.contents
  rw [← GetcharBuf.serialCharacterInterrupt_fst] at hem hview
  exact h.of_emits hem (by decide) (hview ▸ h.clear) rfl rfl

/-- **Nothing in a test disturbs the rest.** -/
theorem next (h : Resting z) {e : Event} (hen : z.Enabled e) (huse : LoopbackUse z e) :
    Resting (z.next e) := by
  cases e with
  | portIn addr now => exact h.portIn addr now
  | portOut addr val t => exact h.portOut huse
  | timer completed t => exact h.timer hen
  | character now => exact h.character now
  | expire timer =>
    have hne : Timer.transmit ≠ timer := by
      rintro rfl
      exact absurd (h.quiet.1.symm.trans hen) (by decide)
    refine ⟨h.sane, h.loop, h.clear, ?_, ?_⟩
    · exact (Function.update_of_ne hne _ _).trans h.quiet.1
    · exact (Function.update_of_ne hne _ _).trans h.quiet.2
  | signal => exact ⟨h.sane, h.loop, h.clear, h.quiet⟩
  | enqueue c => exact absurd huse id

end Resting

namespace Echoing

variable {y z : Machine}

/-- Nothing comes in, and nothing is read. -/
theorem of_receiver {z' : Machine} (h : Echoing y z)
    (hreceiver : receiver z'.serial = receiver z.serial) (hgot : z'.got = z.got)
    (hwritten : z'.written = z.written) : Echoing y z' := by
  refine ⟨hreceiver ▸ h.fifoOk, hreceiver ▸ h.agrees, ?_⟩
  rw [Echoed, hgot, hwritten, hreceiver]
  exact h.echoed

/-- The guest reads a port. -/
theorem portIn (h : Echoing y z) (hs : Sane z.serial) (addr : ℕ) (now : BitVec 64) :
    Echoing y (z.next (.portIn addr now)) := by
  obtain ⟨hun, hagrees⟩ := taken_append_unread hs h.fifoOk h.agrees now addr
  obtain ⟨got, hgot, hwritten⟩ := h.echoed
  refine ⟨fifoOk_serialIoportRead hs h.fifoOk now addr, hagrees,
    got ++ Machine.taken z.serial now addr, ?_, ?_⟩
  · change z.got ++ Machine.taken z.serial now addr = _
    rw [hgot, List.append_assoc]
  · change z.written = y.written ++ (got ++ Machine.taken z.serial now addr ++
      (receiver (serialIoportRead z.serial now addr).2).unread)
    rw [List.append_assoc got, hun]
    exact hwritten

/-- **The guest writes a byte** and receives it. -/
theorem portOut_transmitted (h : Echoing y z) (hrest : Resting z) {addr : ℕ} {val : BitVec 8}
    {t : Times} (hready : anyBit z.serial.lsr uartLsrDr = false) (haddr : addr % 8 = 0)
    (hdlab : anyBit z.serial.lcr uartLcrDlab = false)
    (hxmit : serialIoportWrite z.serial t addr val = serialXmit (storeThr z.serial val) t) :
    Echoing y (z.next (.portOut addr val t)) := by
  have hreceiver := receiver_serialXmit_storeThr hrest.loop val t
  rw [(hrest.clear.load_store val).1] at hreceiver
  obtain ⟨hun, hfifoOk, hagrees⟩ := Receiver.accept_of_not_ready h.fifoOk h.agrees hready val
  rw [← hreceiver, ← hxmit] at hun hfifoOk hagrees
  obtain ⟨got, hgot, hwritten⟩ := h.echoed
  rw [Receiver.unread_of_not_ready h.agrees hready, List.append_nil] at hwritten
  refine ⟨hfifoOk, hagrees, got, hgot, ?_⟩
  change z.written ++ transmitted z.serial addr val =
    y.written ++ (got ++ (receiver (serialIoportWrite z.serial t addr val)).unread)
  rw [hun, hwritten, transmitted, if_pos ⟨haddr, hdlab⟩, List.append_assoc]

/-- The guest writes to another register. -/
theorem portOut_other (h : Echoing y z) (hs : Sane z.serial) {addr : ℕ} {val : BitVec 8} {t : Times}
    (huse : LoopbackUse z (.portOut addr val t)) (hnone : transmitted z.serial addr val = []) :
    Echoing y (z.next (.portOut addr val t)) := by
  obtain ⟨flush, enabled, itl, hset, hkeep, hreset⟩ := receiver_serialIoportWrite hs t addr val
  have hlooped : loopedOut z.serial addr val = [] := by
    refine if_neg fun hno ↦ ?_
    rw [transmitted, if_pos hno] at hnone
    exact absurd hnone (by simp)
  rw [hlooped, List.foldl_nil] at hset
  obtain ⟨hun, hagrees⟩ := Receiver.setFifo_kept h.agrees hkeep
    (fun hf ↦ huse.2.1 (hreset.mp hf).1 (hreset.mp hf).2.2) itl
  have hfifoOk := Receiver.fifoOk_setFifo h.fifoOk flush enabled itl
  rw [← hset] at hun hagrees hfifoOk
  obtain ⟨got, hgot, hwritten⟩ := h.echoed
  refine ⟨hfifoOk, hagrees, got, hgot, ?_⟩
  change z.written ++ transmitted z.serial addr val =
    y.written ++ (got ++ (receiver (serialIoportWrite z.serial t addr val)).unread)
  rw [hnone, hun, List.append_nil]
  exact hwritten

/-- Other completions are handled. -/
theorem timer (h : Echoing y z) (hrest : Resting z) {completed : Completed} {t : Times}
    (hen : z.Enabled (.timer completed t)) (huse : LoopbackUse z (.timer completed t)) :
    Echoing y (z.next (.timer completed t)) := by
  have hring : (serialTimerInterrupt z.serial completed t z.buffer.contents).2 =
      z.buffer.contents := by
    cases hmore : completed.moreChars with
    | true =>
      rw [huse hmore]
      simp only [serialTimerInterrupt, hmore, if_true]
      rfl
    | false => simp [serialTimerInterrupt, hmore]
  have hnone : arrivals z (.timer completed t) = [] := by
    change (if completed.transmit then _ else []) ++ dequeued z.buffer.contents
      (GetcharBuf.serialTimerInterrupt z.serial completed t z.buffer).2.contents = []
    rw [GetcharBuf.serialTimerInterrupt_snd, hring, hrest.not_transmit hen,
      if_neg Bool.false_ne_true, List.nil_append]
    exact dequeued_eq (List.nil_append _).symm
  have hreceiver := receiver_next_timer hrest.sane completed t
  rw [hnone, List.foldl_nil] at hreceiver
  exact h.of_receiver hreceiver rfl rfl

/-- The signal is handled. -/
theorem character (h : Echoing y z) {now : BitVec 64} (huse : LoopbackUse z (.character now)) :
    Echoing y (z.next (.character now)) := by
  have hring : (serialCharacterInterrupt z.serial now z.buffer.contents).2 =
      z.buffer.contents := by
    rw [huse]
    rfl
  have hnone : arrivals z (.character now) = [] := by
    change dequeued z.buffer.contents
      (GetcharBuf.serialCharacterInterrupt z.serial now z.buffer).2.contents = []
    rw [GetcharBuf.serialCharacterInterrupt_snd, hring]
    exact dequeued_eq (List.nil_append _).symm
  have hreceiver := receiver_next_character z now
  rw [hnone, List.foldl_nil] at hreceiver
  exact h.of_receiver hreceiver rfl rfl

/-- **What is written comes back**, event by event. -/
theorem next (h : Echoing y z) (hrest : Resting z) {e : Event} (hen : z.Enabled e)
    (huse : LoopbackUse z e) : Echoing y (z.next e) := by
  cases e with
  | portIn addr now => exact h.portIn hrest.sane addr now
  | portOut addr val t =>
    rcases view_serialIoportWrite z.serial t addr val with
      ⟨haddr, hdlab, hxmit⟩ | ⟨hnone, -⟩
    · have hready : anyBit z.serial.lsr uartLsrDr = false := by
        refine huse.1 ?_
        rw [transmitted, if_pos ⟨haddr, hdlab⟩]
        exact List.cons_ne_nil _ _
      exact h.portOut_transmitted hrest hready haddr hdlab hxmit
    · exact h.portOut_other hrest.sane huse hnone
  | timer completed t => exact h.timer hrest hen huse
  | character now => exact h.character huse
  | expire timer => exact h.of_receiver rfl rfl rfl
  | signal => exact h.of_receiver rfl rfl rfl
  | enqueue c => exact absurd huse id

end Echoing

/-- The rest lasts. -/
theorem Resting.run {y z : Machine} {fs : List Event} (h : Resting y)
    (hrun : Run LoopbackStep y fs z) : Resting z := by
  refine hrun.invariant_guarded h ?_
  rintro z f - hrest huse ⟨hen, rfl⟩
  exact hrest.next hen huse

/-- **From where there is nothing to read** everything comes back. -/
theorem Resting.echoing_run {y z : Machine} {fs : List Event} (h : Resting y)
    (hshown : (receiver y.serial).Shown) (hready : anyBit y.serial.lsr uartLsrDr = false)
    (hrun : Run LoopbackStep y fs z) : Echoing y z := by
  obtain ⟨hagrees, hunread⟩ := hshown.agrees hready
  have hstart : Echoing y y := ⟨hshown.fifoOk, hagrees, [], by simp, by simp [hunread]⟩
  have hall : Resting z ∧ Echoing y z := by
    refine hrun.invariant_guarded (I := fun z ↦ Resting z ∧ Echoing y z) ⟨h, hstart⟩ ?_
    rintro z f - ⟨hrest, hecho⟩ huse ⟨hen, rfl⟩
    exact ⟨hrest.next hen huse, hecho.next hrest hen huse⟩
  exact hall.2

/-! ## What goes wrong otherwise -/

/-- The machine after a write to line control that makes the data registers accessible. -/
def opened (y : Machine) : Machine := y.next (.portOut 3 0 noTimes)

section

variable {y z : Machine}

theorem opened_step (y : Machine) : LoopbackStep y (.portOut 3 0 noTimes) (opened y) :=
  ⟨⟨fun hne ↦ absurd rfl hne, fun hno ↦ absurd hno (by decide), fun hno ↦ absurd hno (by decide)⟩,
    trivial, rfl⟩

theorem receiver_opened (y : Machine) : receiver (opened y).serial = receiver y.serial :=
  receiver_serialUpdateParameters { y.serial with lcr := 0 }

theorem view_opened (y : Machine) : view (opened y).serial = view y.serial :=
  view_serialUpdateParameters { y.serial with lcr := 0 }

theorem loopOn_opened (h : LoopOn y.serial) : LoopOn (opened y).serial := by
  have hem : Emits [] y.serial (opened y).serial := .serialUpdateParameters [] y.serial rfl
  rw [LoopOn, hem.mcr]
  exact h

theorem dlab_opened (y : Machine) : anyBit (opened y).serial.lcr uartLcrDlab = false := by
  have hlcr : (opened y).serial.lcr = 0 := by
    change (serialUpdateParameters { y.serial with lcr := 0 }).lcr = 0
    rw [serialUpdateParameters]
    split <;> rfl
  rw [hlcr]
  decide

theorem written_opened (y : Machine) : (opened y).written = y.written := List.append_nil _

/-- **The one character to read** is read, and then there is none. -/
theorem read_one {x : BitVec 8} (hs : Sane z.serial) (hok : FifoOk (receiver z.serial).fifo)
    (hagrees : (receiver z.serial).Agrees) (hunread : (receiver z.serial).unread = [x])
    (hdlab : anyBit z.serial.lcr uartLcrDlab = false) :
    (z.next (.portIn 0 0)).got = z.got ++ [x] ∧
      anyBit (z.next (.portIn 0 0)).serial.lsr uartLsrDr = false := by
  have hready : anyBit z.serial.lsr uartLsrDr = true := by
    by_contra hno
    rw [Receiver.unread_of_not_ready hagrees (Bool.not_eq_true _ ▸ hno)] at hunread
    exact absurd hunread (by simp)
  obtain ⟨htaken, hagrees'⟩ := taken_append_unread hs hok hagrees 0 0
  rw [hunread, Machine.taken, if_pos ⟨rfl, hdlab, hready⟩, List.singleton_append,
    List.cons.injEq] at htaken
  obtain ⟨hx, hnil⟩ := htaken
  refine ⟨?_, ?_⟩
  · change z.got ++ Machine.taken z.serial 0 0 = _
    rw [Machine.taken, if_pos ⟨rfl, hdlab, hready⟩, hx]
  · by_contra hno
    have hstill : (receiver (serialIoportRead z.serial 0 0).2).ready = true :=
      Bool.not_eq_false _ ▸ hno
    have hcons := (Receiver.read_of_ready (fifoOk_serialIoportRead hs hok 0 0) hagrees' hstill).1
    rw [hnil] at hcons
    exact absurd hcons (by simp)

/-- **A character that comes in while there is none to read** can be read back. -/
theorem exists_read_back {x : BitVec 8} {e : Event} (h : Orderly y)
    (hready : anyBit y.serial.lsr uartLsrDr = false) (hstep : LoopbackStep y e z)
    (hreceiver : receiver z.serial = (receiver y.serial).accept x) :
    ∃ fs w, Run LoopbackStep y fs w ∧ anyBit w.serial.lsr uartLsrDr = false ∧
      w.got = z.got ++ [x] ∧ w.written = z.written := by
  have hz : Orderly z := by
    rw [hstep.2.2]
    exact h.next e
  obtain ⟨hun, hfifoOk, hagrees⟩ :=
    Receiver.accept_of_not_ready h.shown.fifoOk (h.shown.agrees hready).1 hready x
  rw [← hreceiver, ← receiver_opened z] at hun hfifoOk hagrees
  have hopened : Sane (opened z).serial := (hz.next (.portOut 3 0 noTimes)).sane
  obtain ⟨hgot, hread⟩ := read_one hopened hfifoOk hagrees hun (dlab_opened z)
  have hlast : LoopbackStep (opened z) (.portIn 0 0) ((opened z).next (.portIn 0 0)) :=
    ⟨trivial, trivial, rfl⟩
  exact ⟨_, _, ((Run.single hstep).snoc (opened_step z)).snoc hlast, hread, hgot, written_opened z⟩

/-- **A completion of the transmit timer** brings in a character that was not written. -/
theorem exists_spurious (h : Orderly y) (hloop : LoopOn y.serial)
    (hready : anyBit y.serial.lsr uartLsrDr = false) (ho : y.timers.Outstanding .transmit) :
    ∃ fs w x, Run LoopbackStep y fs w ∧ anyBit w.serial.lsr uartLsrDr = false ∧
      w.got = y.got ++ [x] ∧ w.written = y.written := by
  -- the completion is recorded, or will be
  obtain ⟨fs, z, hrun, hz, hrecorded, hserial, hgot, hwritten⟩ :
      ∃ fs z, Run LoopbackStep y fs z ∧ Orderly z ∧ z.timers.recorded .transmit = true ∧
        z.serial = y.serial ∧ z.got = y.got ∧ z.written = y.written := by
    rcases ho with harmed | hrecorded
    · have hexpire : LoopbackStep y (.expire .transmit) (y.next (.expire .transmit)) :=
        ⟨trivial, harmed, rfl⟩
      have hrecorded : (y.next (.expire .transmit)).timers.recorded .transmit = true := by
        change Function.update y.timers.recorded Timer.transmit true Timer.transmit = true
        exact Function.update_self ..
      exact ⟨_, _, Run.single hexpire, h.next _, hrecorded, rfl, rfl, rfl⟩
    · exact ⟨[], y, .nil, h, hrecorded, rfl, rfl, rfl⟩
  let e : Event := .timer transmitCompleted noTimes
  have hstep : LoopbackStep z e (z.next e) :=
    ⟨fun hno ↦ absurd hno (by decide), ⟨rfl, fun hno ↦ absurd hno (by decide), fun _ ↦ hrecorded,
      fun hno ↦ absurd hno (by decide)⟩, rfl⟩
  have harrivals : arrivals z e = [(xmitLoad z.serial).tsr] := by
    have hring : (z.next e).buffer.contents = z.buffer.contents := rfl
    have hnone : dequeued z.buffer.contents (z.next e).buffer.contents = [] := by
      rw [hring]
      exact dequeued_eq (List.nil_append _).symm
    change (if transmitCompleted.transmit then looped z.serial else []) ++
      dequeued z.buffer.contents (z.next e).buffer.contents = _
    rw [hnone, List.append_nil, looped, hserial, if_pos (show anyBit _ _ = true from hloop)]
    rfl
  have hreceiver := receiver_next_timer hz.sane transmitCompleted noTimes
  rw [harrivals] at hreceiver
  obtain ⟨fs', w, hrun', hclear, hgot', hwritten'⟩ :=
    exists_read_back hz (hserial ▸ hready) hstep hreceiver
  exact ⟨fs ++ fs', w, _, hrun.append hrun', hclear, hgot'.trans (congrArg (· ++ [_]) hgot),
    hwritten'.trans hwritten⟩

/-- **A byte that is put off, or a FIFO out of step**: another byte comes back. -/
theorem exists_other (h : Orderly y) (hloop : LoopOn y.serial)
    (hready : anyBit y.serial.lsr uartLsrDr = false)
    (hstuck : (view y.serial).retrying = true ∨ (view y.serial).enabled = true ∧
      (view y.serial).fifo.count = 0 ∧ (view y.serial).fifo.head ≠ (view y.serial).fifo.tail) :
    ∃ fs w c x, Run LoopbackStep y fs w ∧ anyBit w.serial.lsr uartLsrDr = false ∧
      w.got = y.got ++ [x] ∧ w.written = y.written ++ [c] ∧ c ≠ x := by
  obtain ⟨x, hx⟩ := Transmitter.exists_load_store hstuck
  let c := x + 1
  have hne : c ≠ x := by
    intro heq
    simp [c] at heq
  have hopened : Orderly (opened y) := h.next _
  have hdlab := dlab_opened y
  have hready' : anyBit (opened y).serial.lsr uartLsrDr = false :=
    (congrArg Receiver.ready (receiver_opened y)).trans hready
  let e : Event := .portOut 0 c noTimes
  have hstep : LoopbackStep (opened y) e ((opened y).next e) :=
    ⟨⟨fun _ ↦ hready', fun hno ↦ absurd hno (by decide), fun hno ↦ absurd hno (by decide)⟩, trivial,
      rfl⟩
  have hreceiver : receiver ((opened y).next e).serial =
      (receiver (opened y).serial).accept x := by
    have hxmit : serialIoportWrite (opened y).serial noTimes 0 c =
        serialXmit (storeThr (opened y).serial c) noTimes := by
      change (if anyBit (opened y).serial.lcr uartLcrDlab then _ else _) = _
      rw [if_neg (by simp [hdlab])]
    change receiver (serialIoportWrite (opened y).serial noTimes 0 c) = _
    rw [hxmit, receiver_serialXmit_storeThr (loopOn_opened hloop), view_opened, hx]
  obtain ⟨fs, w, hrun, hclear, hgot, hwritten⟩ := exists_read_back hopened hready' hstep hreceiver
  refine ⟨_, w, c, x, (Run.single (opened_step y)).append hrun, hclear, hgot, ?_, hne⟩
  rw [hwritten]
  change (opened y).written ++ transmitted (opened y).serial 0 c = _
  rw [written_opened, transmitted, if_pos ⟨rfl, hdlab⟩]

end

/-! ## Reading what is left -/

/-- **Reading** again and again ends with `DR` clear. -/
theorem Receiver.exists_iterate_read (r : Receiver) :
    ∃ n, ((fun r : Receiver ↦ r.read.2)^[n] r).ready = false := by
  induction hn : r.fifo.count using Nat.strong_induction_on generalizing r with
  | h n ih =>
    by_cases he : r.enabled = true
    · by_cases hc : (fifoGet r.fifo).2.count = 0
      · refine ⟨1, ?_⟩
        change r.read.2.ready = false
        rw [Receiver.read, if_pos he]
        exact Bool.and_eq_false_imp.mpr fun _ ↦ decide_eq_false (not_not.mpr hc)
      · have hcount : r.read.2.fifo.count < n := by
          rw [Receiver.read, if_pos he, ← hn]
          change (fifoGet r.fifo).2.count < r.fifo.count
          have hne : r.fifo.count ≠ 0 := by
            intro h0
            rw [fifoGet, if_pos h0] at hc
            exact hc h0
          rw [fifoGet, if_neg hne]
          exact Nat.sub_lt (Nat.pos_of_ne_zero hne) Nat.one_pos
        obtain ⟨k, hk⟩ := ih _ hcount r.read.2 rfl
        exact ⟨k + 1, hk⟩
    · refine ⟨1, ?_⟩
      change r.read.2.ready = false
      rw [Receiver.read, if_neg he]

/-- The guest can do that in a test, and nothing else changes. -/
theorem exists_reads {y : Machine} (h : Orderly y) (n : ℕ) :
    ∃ fs z, Run LoopbackStep y fs z ∧ Orderly z ∧ z.serial.mcr = y.serial.mcr ∧
      receiver z.serial = (fun r : Receiver ↦ r.read.2)^[n] (receiver y.serial) ∧
      view z.serial = view y.serial ∧
      (y.timers.Outstanding .transmit → z.timers.Outstanding .transmit) := by
  induction n with
  | zero => exact ⟨[], y, .nil, h, rfl, rfl, rfl, id⟩
  | succ n ih =>
    obtain ⟨fs, z, hrun, hz, hmcr, hreceiver, hview, hkeep⟩ := ih
    have hopened : Orderly (opened z) := hz.next _
    let w := (opened z).next (.portIn 0 0)
    have hread : LoopbackStep (opened z) (.portIn 0 0) w := ⟨trivial, trivial, rfl⟩
    have hem : Emits [] z.serial (opened z).serial := .serialUpdateParameters [] z.serial rfl
    have hem' := Emits.serialIoportRead [.fifoTimeout] (opened z).serial 0 0 hopened.sane
      (by decide)
    refine ⟨_, w, (hrun.snoc (opened_step z)).snoc hread, hopened.next _,
      hem'.mcr.trans (hem.mcr.trans hmcr), ?_, ?_, fun ho ↦ ?_⟩
    · rw [Function.iterate_succ_apply', ← hreceiver, ← receiver_opened z]
      have hrbr : serialIoportRead (opened z).serial 0 0 = readRbr (opened z).serial 0 := by
        change (if anyBit (opened z).serial.lcr uartLcrDlab then _ else _) = _
        rw [if_neg (by simp [dlab_opened z])]
      change receiver (serialIoportRead (opened z).serial 0 0).2 = _
      rw [hrbr]
      exact (receiver_readRbr (opened z).serial 0).2
    · change view (serialIoportRead (opened z).serial 0 0).2 = _
      rw [view_serialIoportRead, view_opened, hview]
    · exact Machine.outstanding_withSerial hem' (by decide)
        (Machine.outstanding_withSerial hem (by decide) (hkeep ho))

/-- **Before it tests** the guest reads what is left. -/
theorem exists_drained {y : Machine} (h : Orderly y) :
    ∃ fs z, Run LoopbackStep y fs z ∧ Orderly z ∧ z.serial.mcr = y.serial.mcr ∧
      anyBit z.serial.lsr uartLsrDr = false ∧ view z.serial = view y.serial ∧
      (y.timers.Outstanding .transmit → z.timers.Outstanding .transmit) := by
  obtain ⟨n, hn⟩ := (receiver y.serial).exists_iterate_read
  obtain ⟨fs, z, hrun, hz, hmcr, hreceiver, hview, hkeep⟩ := exists_reads h n
  exact ⟨fs, z, hrun, hz, hmcr, (congrArg Receiver.ready hreceiver).trans hn, hview, hkeep⟩

/-! ## Tests -/

/-- **Every test gives back what was written**, each byte once and in order: between any two moments
at which there is nothing to read, the guest has read what it has written. -/
def Echoes (y : Machine) : Prop :=
  ∀ fs z, Run LoopbackStep y fs z → anyBit z.serial.lsr uartLsrDr = false →
    ∀ gs w, Run LoopbackStep z gs w → anyBit w.serial.lsr uartLsrDr = false →
      ∃ bytes, w.written = z.written ++ bytes ∧ w.got = z.got ++ bytes

/-- Nothing is on its way when a test begins. -/
structure AtRest (y : Machine) : Prop where
  /-- No byte is put off. -/
  tsrRetry : y.serial.tsrRetry ≤ 0
  /-- The transmit timer is not armed, and no completion of it waits. -/
  notOutstanding : ¬y.timers.Outstanding .transmit
  /-- The transmit FIFO, if it is in use, is read where it is written. -/
  inStep : fifoEnabled y.serial = true → y.serial.xmitFifo.head = y.serial.xmitFifo.tail

/-- With no timer outstanding the FIFO is empty. -/
theorem Orderly.xmitFifo_count {y : Machine} (h : Orderly y)
    (ho : ¬y.timers.Outstanding .transmit) (he : fifoEnabled y.serial = true) :
    y.serial.xmitFifo.count = 0 := by
  by_contra hc
  exact ho (h.driven (h.flagged he hc))

theorem AtRest.resting {y : Machine} (h : AtRest y) (horderly : Orderly y)
    (hloop : LoopOn y.serial) : Resting y := by
  obtain ⟨hretry, ho, hinStep⟩ := h
  have hquiet : Quiet y := by
    rwa [Timers.Outstanding, not_or, Bool.not_eq_true, Bool.not_eq_true] at ho
  exact ⟨horderly.sane, hloop,
    ⟨decide_eq_false (not_lt.mpr hretry), horderly.xmitFifo_count ho, hinStep⟩, hquiet⟩

/-- **A test that fails** exists where something is on its way. -/
theorem atRest_of_echoes {y : Machine} (horderly : Orderly y) (hloop : LoopOn y.serial)
    (hall : Echoes y) : AtRest y := by
  obtain ⟨fs, z, hrun, hz, hmcr, hready, hview, hkeep⟩ := exists_drained horderly
  have hloop' : LoopOn z.serial := by
    rw [LoopOn, hmcr]
    exact hloop
  have htest := hall fs z hrun hready
  have ho : ¬y.timers.Outstanding .transmit := by
    intro ho
    obtain ⟨gs, w, x, hrun', hclear, hgot, hwritten⟩ := exists_spurious hz hloop' hready (hkeep ho)
    obtain ⟨bytes, hbytes, hread⟩ := htest gs w hrun' hclear
    rw [hwritten, List.self_eq_append_right] at hbytes
    rw [hgot, hbytes] at hread
    exact absurd (List.append_cancel_left hread) (by simp)
  have hrest : ¬((view y.serial).retrying = true ∨ (view y.serial).enabled = true ∧
      (view y.serial).fifo.count = 0 ∧ (view y.serial).fifo.head ≠ (view y.serial).fifo.tail) := by
    intro hstuck
    rw [← hview] at hstuck
    obtain ⟨gs, w, c, x, hrun', hclear, hgot, hwritten, hne⟩ := exists_other hz hloop' hready hstuck
    obtain ⟨bytes, hbytes, hread⟩ := htest gs w hrun' hclear
    rw [hwritten] at hbytes
    rw [hgot, ← List.append_cancel_left hbytes] at hread
    exact hne (List.singleton_inj.mp (List.append_cancel_left hread)).symm
  rw [not_or] at hrest
  refine ⟨not_lt.mp fun hpos ↦ hrest.1 (decide_eq_true hpos), ho, fun he ↦ ?_⟩
  by_contra hends
  exact hrest.2 ⟨he, horderly.xmitFifo_count ho he, hends⟩

/-- **When loopback gives back what is written**: from any state of any run in which loopback is on,
every test does exactly if nothing is on its way. -/
theorem run_echoes_iff {now : BitVec 64} {es : List Event} {y : Machine}
    (h : Run Machine.Step (Machine.init now) es y) (hloop : LoopOn y.serial) :
    Echoes y ↔ AtRest y := by
  have horderly := run_orderly h
  refine ⟨atRest_of_echoes horderly hloop, fun hrest fs z hrun hready gs w hrun' hclear ↦ ?_⟩
  have hz : Orderly z := by
    refine hrun.invariant horderly ?_
    rintro z f - hz ⟨-, -, rfl⟩
    exact hz.next f
  have hecho := ((hrest.resting horderly hloop).run hrun).echoing_run hz.shown hready hrun'
  obtain ⟨got, hgot, hwritten⟩ := hecho.echoed
  rw [Receiver.unread_of_not_ready hecho.agrees hclear, List.append_nil] at hwritten
  exact ⟨got, hwritten, hgot⟩

/-- The theorem for a guest that turns loopback on first of all. -/
theorem run_echoes_iff_first :
    let y := [.portOut 4 0x10 noTimes].foldl Machine.next (Machine.init 0)
    Echoes y ∧ AtRest y := by
  intro y
  have hrun : Run Machine.Step (Machine.init 0) [.portOut 4 0x10 noTimes] y :=
    run_foldl (by decide)
  have hrest : AtRest y := ⟨by decide, by rw [Timers.Outstanding]; decide, by decide⟩
  exact ⟨(run_echoes_iff hrun (by rw [LoopOn]; decide)).mpr hrest, hrest⟩

/-- **A byte from before comes back.**  The guest writes 17 bytes, of which the last is put off,
turns loopback on and writes another; it reads the byte that was put off. -/
theorem not_echoes_retried :
    ¬∀ now es y, Run Machine.Step (Machine.init now) es y → LoopOn y.serial → Echoes y := by
  intro h
  let es : List Event := List.replicate 17 (.portOut 0 0x41 noTimes) ++ [.portOut 4 0x10 noTimes]
  let y := es.foldl Machine.next (Machine.init 0)
  have hrun : Run Machine.Step (Machine.init 0) es y := run_foldl (by decide +kernel)
  have hechoes := h 0 es y hrun (by rw [LoopOn]; decide +kernel) [] y .nil (by decide +kernel)
  -- the test: one byte, written and read back
  let z := y.next (.portOut 0 0x42 noTimes)
  let w := z.next (.portIn 0 0)
  have hwrite : LoopbackStep y (.portOut 0 0x42 noTimes) z :=
    ⟨⟨fun _ ↦ by decide +kernel, fun hno ↦ absurd hno (by decide),
      fun hno ↦ absurd hno (by decide)⟩, trivial, rfl⟩
  have hread : LoopbackStep z (.portIn 0 0) w := ⟨trivial, trivial, rfl⟩
  obtain ⟨bytes, hbytes, hgot⟩ :=
    hechoes _ w ((Run.single hwrite).snoc hread) (by decide +kernel)
  have hone : w.got ≠ y.got ++ w.written.drop y.written.length := by decide +kernel
  rw [hbytes, List.drop_left] at hone
  exact hone hgot

end Serial
end CamkesVm
