import CamkesVm.Serial.Transmitter

/-!
# What is sent against what was written

A byte that the guest writes goes through the holding register or the FIFO, waits in the shift
register while the console takes no more, and is sent.  On the way bytes may be lost: a flush drops
the ones in the FIFO, and a second write to the holding register replaces the first.  None may be
sent twice, out of order, or without having been written: what was sent is a *sublist* of what was
written (`run_sent_sublist`).

Two things break this.  A byte written to a full FIFO takes the place of the oldest one in it, but
stays the last in the count, so the FIFO then yields its newest byte first.  And the transmit timer,
once armed, loads a byte when it expires, whether or not one is left to load: after a flush, or once
the byte it was armed for has gone out with a later one, it sends a zero or the same byte again.
`KeepsOrder` excludes these two steps and no others.

## What is here

* `FifoOk`, `waiting` — the transmit FIFO as a list, with a lemma for each of its functions.
* `shifting`, `Ordered`, `Inv` — the invariant of the transmitter, as a statement about sublists.
* `Inv.load`, `Inv.store`, `Inv.setFifo` — the operations of the abstract transmitter; for the
  functions of the device there is nothing to do but to name the operation.
* `KeepsOrder`, `SystemInv`, `run_sent_sublist` — the condition, and the runs.
* `throttledAndFlushed`, `not_sent_sublist_after_flush` — a run that puts bytes off and drops some
  and is still in order, and one that is not.
-/

set_option autoImplicit false

namespace CamkesVm
namespace Serial

open Transition Cyclic

/-! ## The FIFO as a list -/

/-- The two ends and the length of a FIFO agree. -/
structure FifoOk (f : SerialFIFO) : Prop where
  /-- It holds no more than it has room for. -/
  count : f.count ≤ uartFifoLength
  /-- The read end is a slot. -/
  tail : f.tail < uartFifoLength
  /-- The write end is the length further on. -/
  head : f.head = (f.tail + f.count) % uartFifoLength

/-- The bytes in a FIFO, oldest first. -/
def waiting (f : SerialFIFO) : List (BitVec 8) := window uartFifoLength f.data f.tail f.count

theorem waiting_eq_nil {f : SerialFIFO} (h : f.count = 0) : waiting f = [] := by
  rw [waiting, h, window_zero]

theorem waiting_ne_nil {f : SerialFIFO} (h : f.count ≠ 0) : waiting f ≠ [] := by
  intro hnil
  have hlen := congrArg List.length hnil
  rw [waiting, length_window] at hlen
  exact h hlen

theorem fifoOk_fifoClear (f : SerialFIFO) : FifoOk (fifoClear f) :=
  ⟨Nat.zero_le _, Nat.zero_lt_succ _, rfl⟩

/-- The next slot, modulo the length. -/
theorem next_slot {i : ℕ} (h : i < uartFifoLength) :
    (if i + 1 = uartFifoLength then 0 else i + 1) = (i + 1) % uartFifoLength := by
  by_cases hi : i + 1 = uartFifoLength
  · rw [if_pos hi, hi, Nat.mod_self]
  · rw [if_neg hi, Nat.mod_eq_of_lt (by omega)]

/-- **`fifo_get` takes off the oldest byte.** -/
theorem waiting_fifoGet {f : SerialFIFO} (hok : FifoOk f) (h : f.count ≠ 0) :
    waiting f = (fifoGet f).1 :: waiting (fifoGet f).2 ∧ FifoOk (fifoGet f).2 := by
  obtain ⟨n, hn⟩ := Nat.exists_eq_succ_of_ne_zero h
  have htail := next_slot hok.tail
  have hcount := hok.count
  rw [fifoGet, if_neg h]
  dsimp only
  refine ⟨?_, by dsimp only; omega, ?_, ?_⟩
  · rw [waiting, waiting, hn, htail, window_mod, window_succ, Nat.mod_eq_of_lt hok.tail]
    rfl
  · dsimp only
    rw [htail]
    exact Nat.mod_lt _ (by decide)
  · dsimp only
    rw [hok.head, htail, Nat.mod_add_mod, hn]
    congr 1
    omega

/-- **`fifo_put` adds the newest byte**, if there is room. -/
theorem waiting_fifoStore {f : SerialFIFO} (hok : FifoOk f) (c : BitVec 8)
    (h : f.count < uartFifoLength) :
    waiting { fifoStore f c with count := f.count + 1 } = waiting f ++ [c] ∧
      FifoOk { fifoStore f c with count := f.count + 1 } := by
  have hhead : f.head < uartFifoLength := by
    rw [hok.head]
    exact Nat.mod_lt _ (by decide)
  refine ⟨?_, h, hok.tail, ?_⟩
  · rw [waiting, waiting, fifoStore]
    dsimp only
    rw [hok.head, window_update_succ f.data c h]
  · rw [fifoStore]
    dsimp only
    rw [next_slot hhead, hok.head, Nat.mod_add_mod, Nat.add_assoc]

/-! ## The invariant -/

/-- What was sent, then `shifting`, then what waits is in the order of what was written.  While the
holding register counts as full, it has the last byte written, which may be the last one in the FIFO
but was neither sent nor shifted. -/
structure Ordered (v : Transmitter) (shifting written : List (BitVec 8)) : Prop where
  /-- The FIFO is in order. -/
  fifoOk : FifoOk v.fifo
  /-- It is empty when it is not in use. -/
  disabled : v.enabled = false → v.fifo.count = 0
  /-- Nothing waits: what was sent and is shifted was written. -/
  of_empty : v.empty = true →
    v.fifo.count = 0 ∧ (v.sent ++ shifting).Sublist written
  /-- Something waits, or did before a flush. -/
  of_full : v.empty = false → ∃ before queue, written = before ++ [v.thr] ∧
    (v.sent ++ shifting ++ queue).Sublist before ∧
    (waiting v.fifo = queue ++ [v.thr] ∨ (waiting v.fifo = [] ∧ queue = []))

/-- The byte in the shift register, while it waits there. -/
def shifting (v : Transmitter) : List (BitVec 8) := if v.retrying then [v.tsr] else []

/-- The invariant of the transmitter. -/
def Inv (v : Transmitter) (written : List (BitVec 8)) : Prop := Ordered v (shifting v) written

namespace Ordered

variable {v : Transmitter} {sh sh' written : List (BitVec 8)}

/-- **What was sent, is shifted and waits was written in that order.** -/
theorem sublist (h : Ordered v sh written) : (v.sent ++ sh ++ waiting v.fifo).Sublist written := by
  cases he : v.empty with
  | true =>
    obtain ⟨hc, hs⟩ := h.of_empty he
    rw [waiting_eq_nil hc, List.append_nil]
    exact hs
  | false =>
    obtain ⟨before, queue, hw, hs, hq⟩ := h.of_full he
    rw [hw]
    rcases hq with hq | ⟨hq, rfl⟩
    · rw [hq, ← List.append_assoc]
      exact hs.append (List.Sublist.refl _)
    · rw [List.append_nil] at hs
      rw [hq, List.append_nil]
      exact hs.trans (List.sublist_append_left _ _)

/-- A byte in the shift register may be given up. -/
theorem mono (h : Ordered v sh written) (hle : sh'.Sublist sh) : Ordered v sh' written := by
  refine ⟨h.fifoOk, h.disabled, fun he ↦ ?_, fun he ↦ ?_⟩
  · obtain ⟨hc, hs⟩ := h.of_empty he
    exact ⟨hc, ((List.Sublist.refl _).append hle).trans hs⟩
  · obtain ⟨before, queue, hw, hs, hq⟩ := h.of_full he
    exact ⟨before, queue, hw,
      (((List.Sublist.refl _).append hle).append (List.Sublist.refl _)).trans hs, hq⟩

end Ordered

/-! ## The operations -/

section

variable {v : Transmitter} {written : List (BitVec 8)}

theorem Inv.shifting_eq_nil (hr : v.retrying = false) : shifting v = [] := by
  simp [shifting, hr]

/-- Loading from the FIFO takes the first byte that waits. -/
theorem Ordered.load_fifo (h : Ordered v [] written) (hr : v.retrying = false)
    (he : v.enabled = true) (hcount : v.fifo.count ≠ 0) :
    Ordered v.load [v.load.tsr] written := by
  have hfull : v.empty = false := by
    by_contra hempty
    exact hcount (h.of_empty (by simpa using hempty)).1
  obtain ⟨before, queue, hw, hs, hq⟩ := h.of_full hfull
  obtain ⟨hget, hok⟩ := waiting_fifoGet h.fifoOk hcount
  have hq' : waiting v.fifo = queue ++ [v.thr] :=
    hq.resolve_right fun hnil ↦ waiting_ne_nil hcount hnil.1
  rw [Transmitter.load, if_neg (by simp [hr]), if_pos he]
  refine ⟨hok, fun hno ↦ ?_, fun hempty ↦ ?_, fun hempty ↦ ?_⟩
  · exact absurd (he.symm.trans hno) (by decide)
  · -- the byte was the last one: the one in the holding register
    have hc : (fifoGet v.fifo).2.count = 0 := by simpa [hfull] using hempty
    rw [hget, waiting_eq_nil hc] at hq'
    obtain ⟨rfl, hlast⟩ : queue = [] ∧ (fifoGet v.fifo).1 = v.thr := by
      cases queue with
      | nil => simpa using hq'
      | cons q qs => simp at hq'
    rw [List.append_nil, List.append_nil] at hs
    refine ⟨hc, ?_⟩
    dsimp only
    rw [hw, hlast]
    exact hs.append (List.Sublist.refl _)
  · have hc : (fifoGet v.fifo).2.count ≠ 0 := by simpa [hfull] using hempty
    rw [hget] at hq'
    cases queue with
    | nil =>
      obtain ⟨-, hnil⟩ : (fifoGet v.fifo).1 = v.thr ∧ waiting (fifoGet v.fifo).2 = [] := by
        simpa using hq'
      exact absurd hnil (waiting_ne_nil hc)
    | cons q qs =>
      obtain ⟨hfirst, hrest⟩ : (fifoGet v.fifo).1 = q ∧
          waiting (fifoGet v.fifo).2 = qs ++ [v.thr] := by simpa using hq'
      refine ⟨before, qs, hw, ?_, .inl hrest⟩
      dsimp only
      rw [hfirst]
      simpa using hs

/-- Loading without a FIFO takes the byte in the holding register. -/
theorem Ordered.load_register (h : Ordered v [] written) (hr : v.retrying = false)
    (he : v.enabled = false) (hfull : v.empty = false) :
    Ordered v.load [v.load.tsr] written := by
  have hc := h.disabled he
  obtain ⟨before, queue, hw, hs, -⟩ := h.of_full hfull
  rw [Transmitter.load, if_neg (by simp [hr]), if_neg (by simp [he])]
  refine ⟨h.fifoOk, fun _ ↦ hc, fun _ ↦ ⟨hc, ?_⟩, fun hno ↦ by simp at hno⟩
  dsimp only
  rw [hw]
  rw [List.append_nil] at hs
  exact ((List.sublist_append_left _ _).trans hs).append (List.Sublist.refl _)

/-- **Loading keeps the order**, if there is a byte to load. -/
theorem Inv.load (h : Inv v written) (hin : v.HasInput) :
    Ordered v.load [v.load.tsr] written := by
  cases hr : v.retrying with
  | true =>
    have hsh : shifting v = [v.tsr] := by simp [shifting, hr]
    rw [Transmitter.load, if_pos hr]
    rw [Inv, hsh] at h
    exact h
  | false =>
    rw [Inv, Inv.shifting_eq_nil hr] at h
    cases he : v.enabled with
    | true => exact h.load_fifo hr he (by simpa [Transmitter.HasInput, hr, he] using hin)
    | false => exact h.load_register hr he (by simpa [Transmitter.HasInput, hr, he] using hin)

/-- Sending the byte in the shift register keeps the order. -/
theorem Ordered.send (h : Ordered v [v.tsr] written) : Inv v.send written := by
  refine ⟨h.fifoOk, h.disabled, fun he ↦ ?_, fun he ↦ ?_⟩
  · obtain ⟨hc, hs⟩ := h.of_empty he
    exact ⟨hc, by simpa [Transmitter.send, shifting] using hs⟩
  · obtain ⟨before, queue, hw, hs, hq⟩ := h.of_full he
    exact ⟨before, queue, hw, by simpa [Transmitter.send, shifting] using hs, hq⟩

/-- So does putting it off or giving it up. -/
theorem Ordered.putOff (h : Ordered v [v.tsr] written) (retrying : Bool) :
    Inv (v.putOff retrying) written := by
  have hle : (shifting (v.putOff retrying)).Sublist [v.tsr] := by
    cases retrying with
    | false => exact List.nil_sublist _
    | true => exact List.Sublist.refl _
  have hm := h.mono hle
  exact ⟨hm.fifoOk, hm.disabled, hm.of_empty, hm.of_full⟩

/-- **Storing a byte keeps the order**, if the FIFO has room for it. -/
theorem Inv.store (h : Inv v written) (c : BitVec 8)
    (hroom : v.enabled = true → v.fifo.count < uartFifoLength) :
    Inv (v.store c) (written ++ [c]) ∧ (v.store c).HasInput := by
  have hsub := h.sublist
  cases he : v.enabled with
  | true =>
    have hlt := hroom he
    obtain ⟨hstore, hok⟩ := waiting_fifoStore h.fifoOk c hlt
    have hfifo : (v.store c).fifo = { fifoStore v.fifo c with count := v.fifo.count + 1 } := by
      simp only [Transmitter.store, he, if_true]
      exact if_pos hlt
    constructor
    · refine ⟨hfifo ▸ hok, fun hno ↦ ?_, fun hno ↦ by simp [Transmitter.store] at hno, fun _ ↦ ?_⟩
      · simp [Transmitter.store, he] at hno
      · exact ⟨written, waiting v.fifo, rfl, hsub, .inl (by rw [hfifo, hstore]; rfl)⟩
    · right
      rw [if_pos (show (v.store c).enabled = true from he), hfifo]
      exact Nat.succ_ne_zero _
  | false =>
    have hc := h.disabled he
    have hfifo : (v.store c).fifo = v.fifo := by simp [Transmitter.store, he]
    constructor
    · refine ⟨hfifo ▸ h.fifoOk, fun _ ↦ by rw [hfifo, hc],
        fun hno ↦ by simp [Transmitter.store] at hno, fun _ ↦ ?_⟩
      rw [waiting_eq_nil hc] at hsub
      exact ⟨written, [], rfl, hsub, .inr ⟨by rw [hfifo, waiting_eq_nil hc], rfl⟩⟩
    · right
      rw [if_neg (show ¬(v.store c).enabled = true by simp [Transmitter.store, he])]
      rfl

/-- **Flushing the FIFO keeps the order.** -/
theorem Inv.setFifo (h : Inv v written) (flush enabled : Bool)
    (hkeep : flush = false → enabled = v.enabled) : Inv (v.setFifo flush enabled) written := by
  cases flush with
  | false =>
    rw [hkeep rfl]
    exact h
  | true =>
    have hnil : waiting (fifoClear v.fifo) = [] := waiting_eq_nil rfl
    refine ⟨fifoOk_fifoClear _, fun _ ↦ rfl, fun he ↦ ⟨rfl, (h.of_empty he).2⟩, fun he ↦ ?_⟩
    obtain ⟨before, queue, hw, hs, -⟩ := h.of_full he
    refine ⟨before, [], hw, ?_, .inr ⟨hnil, rfl⟩⟩
    rw [List.append_nil]
    exact (List.sublist_append_left _ _).trans hs

end

/-! ## Runs -/

/-- Loopback is off. -/
def LoopOff (s : SerialState) : Prop := anyBit s.mcr uartMcrLoop = false

/-- A step that leaves loopback off. -/
def StepLoopOff (y : System) (a : Label) (y' : System) : Prop := Step y a y' ∧ LoopOff y'.serial

/-- The steps that keep the order: a byte is written to the FIFO only while there is room in it, and
the transmit timer is handled only while a byte waits, in the shift register or to be loaded. -/
def KeepsOrder (y : System) : Label → Prop
  | .portOut addr _ _ => addr % 8 = 0 → anyBit y.serial.lcr uartLcrDlab = false →
      fifoEnabled y.serial = true → y.serial.xmitFifo.count < uartFifoLength
  | .timer completed _ => completed.transmit = true → 0 < y.serial.tsrRetry ∨
      if fifoEnabled y.serial then y.serial.xmitFifo.count ≠ 0 else thrEmpty y.serial = false
  | _ => True

/-- The invariant of the system. -/
def SystemInv (y : System) : Prop := LoopOff y.serial ∧ Inv (view y.serial) y.written

theorem serialUpdateMsl_mcr (s : SerialState) : (serialUpdateMsl s).mcr = s.mcr := by
  simp only [serialUpdateMsl]
  split <;> rfl

theorem storeThr_mcr (s : SerialState) (val : BitVec 8) : (storeThr s val).mcr = s.mcr := by
  simp only [storeThr]
  split <;> rfl

theorem systemInv_init (now : BitVec 64) : SystemInv (System.init now) := by
  refine ⟨?_, ?_⟩
  · have hloop : anyBit uartMcrOut2 uartMcrLoop = false := by decide
    change anyBit (serialPreInit now).mcr uartMcrLoop = false
    rw [serialPreInit, serialUpdateMsl_mcr]
    exact hloop
  · change Inv (view (serialPreInit now)) []
    rw [view_serialPreInit]
    exact ⟨fifoOk_fifoClear _, fun _ ↦ rfl, fun _ ↦ ⟨rfl, List.Sublist.refl _⟩,
      fun h ↦ by simp at h⟩

/-- Running the transmitter keeps the order, if there is a byte to send. -/
theorem inv_serialXmit {s : SerialState} {written : List (BitVec 8)} (t : Times) (hloop : LoopOff s)
    (h : Inv (view s) written) (hin : (view s).HasInput) : Inv (view (serialXmit s t)) written := by
  have hload := h.load hin
  rcases view_serialXmit s t hloop with hsend | ⟨retrying, hput⟩
  · rw [hsend]
    exact hload.send
  · rw [hput]
    exact hload.putOff retrying

/-- **One step that keeps the order.** -/
theorem SystemInv.next {y : System} {a : Label} (h : SystemInv y) (hkeep : KeepsOrder y a)
    (hloop : LoopOff (y.next a).serial) : SystemInv (y.next a) := by
  refine ⟨hloop, ?_⟩
  obtain ⟨hoff, hinv⟩ := h
  cases a with
  | portIn addr now =>
    change Inv (view (serialIoportRead y.serial now addr).2) y.written
    rw [view_serialIoportRead]
    exact hinv
  | portOut addr val t =>
    change Inv (view (serialIoportWrite y.serial t addr val))
      (y.written ++ transmitted y.serial addr val)
    rcases view_serialIoportWrite y.serial t addr val with
      ⟨haddr, hdlab, hw⟩ | ⟨hnone, flush, enabled, hw, hflush, -⟩
    · rw [hw, transmitted, if_pos ⟨haddr, hdlab⟩]
      obtain ⟨hstore, hin⟩ := hinv.store val (hkeep haddr hdlab)
      rw [← view_storeThr] at hstore hin
      have hoff' : LoopOff (storeThr y.serial val) := by rw [LoopOff, storeThr_mcr]; exact hoff
      exact inv_serialXmit t hoff' hstore hin
    · rw [hw, hnone, List.append_nil]
      exact hinv.setFifo flush enabled hflush
  | timer completed t =>
    obtain ⟨s', hview, hmcr, -, htimer⟩ := view_serialTimerInterrupt y.serial completed t y.ring
    change Inv (view (serialTimerInterrupt y.serial completed t y.ring).1) y.written
    rw [htimer]
    split
    · rename_i htransmit
      have hoff' : LoopOff s' := by rw [LoopOff, hmcr]; exact hoff
      have hin : (view y.serial).HasInput := by
        rcases hkeep htransmit with hretry | hwait
        · exact .inl (by simpa [view] using hretry)
        · exact .inr hwait
      rw [← hview] at hinv hin
      exact inv_serialXmit t hoff' hinv hin
    · exact hinv
  | character now =>
    change Inv (view (serialCharacterInterrupt y.serial now y.ring).1) y.written
    rw [view_serialCharacterInterrupt]
    exact hinv
  | enqueue c => exact hinv

/-- **UART output is never invented, repeated or reordered**: in every run with loopback off whose
steps keep the order, the bytes handed to the console are a subsequence of those written to the
transmit register. -/
theorem run_sent_sublist {now : BitVec 64} {as : List Label} {y : System}
    (h : Run (Guarded KeepsOrder StepLoopOff) (System.init now) as y) :
    (sent y.serial).Sublist y.written := by
  have hinv : SystemInv y := by
    refine h.invariant_guarded (systemInv_init now) ?_
    rintro s a t hs hkeep ⟨rfl, hloop⟩
    exact hs.next hkeep hloop
  have hsub := hinv.2.sublist
  exact ((List.sublist_append_left _ _).trans (List.sublist_append_left _ _)).trans hsub

/-- Times that do not matter. -/
def noTimes : Times := { newXmitTs := 0, received := 0, lastXmitTs := 0 }

/-- The transmit timer alone. -/
def transmitCompleted : Completed :=
  { fifoTimeout := false, transmit := true, modemStatus := false, moreChars := false }

instance (s : SerialState) : Decidable (LoopOff s) := inferInstanceAs (Decidable (_ = _))

instance (y : System) : (a : Label) → Decidable (KeepsOrder y a)
  | .portOut _ _ _ => inferInstanceAs (Decidable (_ → _ → _ → _))
  | .timer completed _ => inferInstanceAs (Decidable (completed.transmit = true →
      0 < y.serial.tsrRetry ∨
        if fifoEnabled y.serial then y.serial.xmitFifo.count ≠ 0 else thrEmpty y.serial = false))
  | .portIn _ _ | .character _ | .enqueue _ => inferInstanceAs (Decidable True)

/-- A run is the fold of its labels, if they leave loopback off. -/
theorem stepLoopOff_foldl {C : System → Label → Prop} {y : System} {as : List Label}
    (h : AllEnabled (fun y a ↦ C y a ∧ LoopOff (y.next a).serial) System.next y as) :
    Run (Guarded C StepLoopOff) y as (as.foldl System.next y) := by
  refine (run_guarded_foldl h).mono ?_
  rintro s a t ⟨hc, hloop, rfl⟩
  exact ⟨hc, rfl, hloop⟩

/-- A guest that writes 20 bytes to the FIFO: 16 are sent, one is put off and three wait.  The timer
completes twice, which sends the one put off and one of those that wait; the others are flushed.
Then it writes a byte, turns the FIFO off and writes another. -/
def throttledAndFlushed : List Label :=
  let bytes := (List.range 20).map fun i ↦ .portOut 0 (0x41 + BitVec.ofNat 8 i) noTimes
  .portOut 2 0x01 noTimes :: bytes ++ [.timer transmitCompleted noTimes,
    .timer transmitCompleted noTimes, .portOut 2 0x05 noTimes, .portOut 0 0x61 noTimes,
    .portOut 2 0x00 noTimes, .portOut 0 0x62 noTimes]

set_option maxRecDepth 4000 in
/-- Each of its steps keeps the order. -/
theorem throttledAndFlushed_run : Run (Guarded KeepsOrder StepLoopOff) (System.init 0)
    throttledAndFlushed (throttledAndFlushed.foldl System.next (System.init 0)) :=
  stepLoopOff_foldl (by decide +kernel)

/-- The theorem for that guest: what is sent is what it wrote, without the two bytes flushed. -/
theorem run_sent_sublist_throttledAndFlushed :
    let y := throttledAndFlushed.foldl System.next (System.init 0)
    (sent y.serial).Sublist y.written ∧ (sent y.serial).length + 2 = y.written.length :=
  ⟨run_sent_sublist throttledAndFlushed_run, by decide +kernel⟩

/-- **A flushed byte goes out as a zero.**  The guest enables the FIFO and writes 18 bytes, of which
16 are sent, one waits in the shift register and one in the FIFO; it flushes the FIFO, and the
transmit timer, armed for the two, expires twice. -/
theorem not_sent_sublist_after_flush :
    ¬ ∀ now as y, Run StepLoopOff (System.init now) as y → (sent y.serial).Sublist y.written := by
  intro h
  let as : List Label := .portOut 2 0x01 noTimes :: List.replicate 18 (.portOut 0 0x41 noTimes) ++
    [.portOut 2 0x05 noTimes, .timer transmitCompleted noTimes, .timer transmitCompleted noTimes]
  have hrun : Run (Guarded (fun _ _ ↦ True) StepLoopOff) (System.init 0) as _ :=
    stepLoopOff_foldl (by decide)
  have hsub := h 0 as _ (hrun.mono fun _ _ _ hs ↦ hs.2)
  have hzero : 0 ∈ sent (as.foldl System.next (System.init 0)).serial := by decide
  exact absurd (hsub.subset hzero) (by decide)

end Serial
end CamkesVm
