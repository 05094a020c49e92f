import CamkesVm.Lib.QueueHistory
import CamkesVm.Serial.DataReady

/-!
# The two FIFOs as queues

The UART has a FIFO for each direction, and one set of functions for both.  They differ in what a
put does to a FIFO that is full: the receive FIFO refuses the byte, and the transmit FIFO writes it
over the oldest one.  In writing it moves `head` on but leaves `tail` and `count` as they are, so
that from then on the three do not agree: the FIFO yields its newest byte first, and after it has
been emptied bytes that were never written.

`xmitOps` and `recvOps` say what each event does to the FIFOs, one call of `fifo_put`, `fifo_get` or
`fifo_clear` after the other (`xmitFifo_next`, `recvFifo_next`).  A run of the system then has a
history for each FIFO, and `run_intact_iff` says when both are in order throughout it.

## What is here

* `FifoId`, `fifoPut`, `queue` — the functions as the source has them, for both FIFOs at once, and a
  FIFO as an implementation of a queue in the sense of the library.
* `PutSafe`, `represents` — one call, and when it does what a queue does.
* `Aligned`, `not_aligned_fifoPut` — what a put on a full transmit FIFO breaks.
* `puts`, `stores`, `loads`, `clears`, `xmitOps`, `recvOps` — the table of calls by event, with one
  proof for each FIFO that it is right.
* `Traced`, `Intact`, `Traced.Roomy`, `run_intact_iff` — the device with two histories, the law, the
  condition, and the runs.
-/

set_option autoImplicit false

namespace CamkesVm
namespace Serial

open Transition Cyclic QueueHistory

/-! ## The functions of the FIFOs -/

/-- The number of a FIFO. -/
inductive FifoId
  /-- `XMIT_FIFO` -/
  | xmit
  /-- `RECV_FIFO` -/
  | recv
  deriving DecidableEq

/-- `fifo_put`, on the FIFO itself. -/
def fifoPut (fifo : FifoId) (f : SerialFIFO) (chr : BitVec 8) : SerialFIFO :=
  -- receive overruns do not overwrite FIFO contents
  let f := if fifo = .xmit ∨ f.count < uartFifoLength then fifoStore f chr else f
  if f.count < uartFifoLength then { f with count := f.count + 1 } else f

theorem fifoPut_of_room (fifo : FifoId) {f : SerialFIFO} (h : f.count < uartFifoLength)
    (chr : BitVec 8) : fifoPut fifo f chr = { fifoStore f chr with count := f.count + 1 } := by
  have hstores : fifo = .xmit ∨ f.count < uartFifoLength := .inr h
  have hcounts : (fifoStore f chr).count < uartFifoLength := h
  simp only [fifoPut, if_pos hstores, if_pos hcounts]
  rfl

theorem fifoPut_xmit_of_full {f : SerialFIFO} (h : ¬f.count < uartFifoLength) (chr : BitVec 8) :
    fifoPut .xmit f chr = fifoStore f chr := by
  have hcounts : ¬(fifoStore f chr).count < uartFifoLength := h
  simp only [fifoPut, true_or, if_true, if_neg hcounts]

theorem fifoPut_recv_of_full {f : SerialFIFO} (h : ¬f.count < uartFifoLength) (chr : BitVec 8) :
    fifoPut .recv f chr = f := by
  have hstores : ¬(FifoId.recv = .xmit ∨ f.count < uartFifoLength) := by simp [h]
  simp only [fifoPut, if_neg hstores, if_neg h]

theorem fifoPutXmit_xmitFifo (s : SerialState) (chr : BitVec 8) :
    (fifoPutXmit s chr).xmitFifo = fifoPut .xmit s.xmitFifo chr := by
  simp only [fifoPutXmit, fifoPut, true_or, if_true]

/-- A FIFO as an implementation of a queue. -/
def queue (fifo : FifoId) : Impl SerialFIFO (BitVec 8) where
  put := fifoPut fifo
  get := fifoGet
  clear := fifoClear
  takes f := fifo = .xmit ∨ f.count < uartFifoLength
  empty f := f.count = 0

/-- A byte can be put in without harm. -/
def PutSafe (fifo : FifoId) (f : SerialFIFO) : Prop := fifo = .recv ∨ f.count < uartFifoLength

/-- **The FIFO is a queue**, as long as no byte is put into the transmit FIFO while it is full. -/
theorem represents (fifo : FifoId) :
    Represents (queue fifo) FifoOk (PutSafe fifo) waiting where
  put := by
    intro f c hok hsafe
    change FifoOk (fifoPut fifo f c) ∧ waiting (fifoPut fifo f c) = waiting f ++
      if decide (fifo = .xmit ∨ f.count < uartFifoLength) then [c] else []
    by_cases hc : f.count < uartFifoLength
    · obtain ⟨hstore, hok'⟩ := waiting_fifoStore hok c hc
      rw [fifoPut_of_room fifo hc, if_pos (decide_eq_true (.inr hc))]
      exact ⟨hok', hstore⟩
    · obtain rfl := hsafe.resolve_right hc
      rw [fifoPut_recv_of_full hc, if_neg (by simp [hc]), List.append_nil]
      exact ⟨hok, rfl⟩
  get := by
    intro f hok hempty
    obtain ⟨hget, hok'⟩ := waiting_fifoGet hok (of_decide_eq_false hempty)
    exact ⟨hok', hget⟩
  get_empty := by
    intro f hempty
    change (fifoGet f).2 = f
    rw [fifoGet, if_pos (of_decide_eq_true hempty)]
  clear := fun f ↦ ⟨fifoOk_fifoClear f, waiting_eq_nil rfl⟩

/-! ## A full FIFO -/

theorem fifoOk_head_lt {f : SerialFIFO} (h : FifoOk f) : f.head < uartFifoLength := by
  rw [h.head]
  exact Nat.mod_lt _ (by decide)

/-- **A put on a full FIFO** that is in order replaces the oldest byte, or none. -/
theorem waiting_fifoPut_of_full (fifo : FifoId) {f : SerialFIFO} (hok : FifoOk f)
    (h : f.count = uartFifoLength) (c : BitVec 8) :
    (waiting (fifoPut fifo f c)).length = (waiting f).length ∧
      (waiting (fifoPut fifo f c)).tail = (waiting f).tail := by
  have hfull : ¬f.count < uartFifoLength := by omega
  cases fifo with
  | recv =>
    rw [fifoPut_recv_of_full hfull]
    exact ⟨rfl, rfl⟩
  | xmit =>
    -- the slot that is written is the one that is read next
    have hslot : f.head = f.tail % uartFifoLength := by rw [hok.head, h, Nat.add_mod_right]
    rw [fifoPut_xmit_of_full hfull, waiting, waiting, length_window, length_window]
    refine ⟨rfl, ?_⟩
    change (window uartFifoLength (Function.update f.data f.head c) f.tail f.count).tail = _
    rw [h, hslot]
    exact tail_window_update f.data f.tail c

/-- The read end, the length and the write end agree. -/
def Aligned (f : SerialFIFO) : Prop := f.head = (f.tail + f.count) % uartFifoLength

instance (f : SerialFIFO) : Decidable (Aligned f) := inferInstanceAs (Decidable (_ = _))

/-- Getting a byte does not change whether they do. -/
theorem aligned_fifoGet_iff {f : SerialFIFO} (h : f.tail < uartFifoLength) :
    Aligned (fifoGet f).2 ↔ Aligned f := by
  rw [fifoGet]
  split
  · exact Iff.rfl
  · rename_i hc
    rw [Aligned, Aligned]
    dsimp only
    rw [next_slot h, Nat.mod_add_mod, Nat.add_assoc, Nat.add_sub_cancel' (by omega)]

/-- **A put on a full transmit FIFO** undoes it. -/
theorem not_aligned_fifoPut {f : SerialFIFO} (hok : FifoOk f) (h : ¬f.count < uartFifoLength)
    (c : BitVec 8) : ¬Aligned (fifoPut .xmit f c) := by
  have hcount : f.count = uartFifoLength := by
    have hle := hok.count
    omega
  have htail := hok.tail
  have hhead : f.head = f.tail := by
    rw [hok.head, hcount, Nat.add_mod_right, Nat.mod_eq_of_lt htail]
  rw [fifoPut_xmit_of_full h, Aligned, fifoStore]
  dsimp only
  rw [next_slot (fifoOk_head_lt hok), hhead, hcount, Nat.add_mod_right]
  have hmove : (f.tail + 0) % uartFifoLength ≠ (f.tail + 1) % uartFifoLength :=
    slot_ne Nat.zero_lt_one (by decide)
  exact hmove.symm

/-! ## What an event does to the FIFOs -/

section

variable (s : SerialState)

/-- The bytes put into the receive FIFO, if it is in use. -/
def puts (cs : List (BitVec 8)) : List (Op (BitVec 8)) :=
  if fifoEnabled s then cs.map .put else []

/-- What storing a byte in the transmit register does to the transmit FIFO. -/
def stores (val : BitVec 8) : List (Op (BitVec 8)) := if fifoEnabled s then [.put val] else []

/-- What running the transmitter does to it. -/
def loads : List (Op (BitVec 8)) := if s.tsrRetry ≤ 0 ∧ fifoEnabled s = true then [.get] else []

/-- What a write to FIFO control does to a FIFO, with the bit that resets it. -/
def clears (reset : BitVec 8) (val : BitVec 8) : List (Op (BitVec 8)) :=
  if s.fcr ≠ val ∧ anyBit (fcrValue s val) reset = true then [.clear] else []

end

/-- What an event does to the transmit FIFO. -/
def xmitOps (y : System) : Label → List (Op (BitVec 8))
  | .portOut addr val _ =>
    if addr % 8 = 0 ∧ anyBit y.serial.lcr uartLcrDlab = false then
      stores y.serial val ++ loads (storeThr y.serial val)
    else if addr % 8 = 2 then clears y.serial uartFcrXfr val
    else []
  | .timer completed _ => if completed.transmit then loads y.serial else []
  | _ => []

/-- What an event does to the receive FIFO. -/
def recvOps (y : System) : Label → List (Op (BitVec 8))
  | .portIn addr _ =>
    if addr % 8 = 0 ∧ anyBit y.serial.lcr uartLcrDlab = false ∧ fifoEnabled y.serial = true then
      [.get]
    else []
  | .portOut addr val _ =>
    if addr % 8 = 2 then clears y.serial uartFcrRfr val
    else puts y.serial (loopedOut y.serial addr val)
  | .timer completed t =>
    puts y.serial ((if completed.transmit then looped y.serial else []) ++
      dequeued y.ring (y.next (.timer completed t)).ring)
  | .character now => puts y.serial (dequeued y.ring (y.next (.character now)).ring)
  | .enqueue _ => []

/-! ## The transmit FIFO -/

theorem xmitFifo_of_view {s s' : SerialState} (h : view s' = view s) : s'.xmitFifo = s.xmitFifo :=
  congrArg Transmitter.fifo h

theorem xmitFifo_storeThr (s : SerialState) (val : BitVec 8) :
    (storeThr s val).xmitFifo = (queue .xmit).run (stores s val) s.xmitFifo := by
  have hview : (storeThr s val).xmitFifo = ((view s).store val).fifo :=
    congrArg Transmitter.fifo (view_storeThr s val)
  rw [hview, Transmitter.store, stores]
  cases he : fifoEnabled s with
  | true =>
    have hput := fifoPutXmit_xmitFifo s val
    simp only [fifoPutXmit] at hput
    simp only [view, he, if_true]
    exact hput
  | false => simp [view, he]

theorem xmitFifo_xmitLoad (s : SerialState) :
    (xmitLoad s).xmitFifo = (queue .xmit).run (loads s) s.xmitFifo := by
  rw [xmitLoad, loads]
  by_cases hr : s.tsrRetry ≤ 0
  · by_cases he : fifoEnabled s = true
    · rw [if_pos hr, if_pos he, if_pos ⟨hr, he⟩]
      rfl
    · rw [if_pos hr, if_neg he, if_neg fun h ↦ he h.2]
      rfl
  · rw [if_neg hr, if_neg fun h ↦ hr h.1]
    rfl

/-- Running the transmitter loads a byte, whether it is sent then or not. -/
theorem xmitFifo_serialXmit (s : SerialState) (t : Times) :
    (serialXmit s t).xmitFifo = (queue .xmit).run (loads s) s.xmitFifo := by
  have hload : (view (serialXmit s t)).fifo = (view s).load.fifo := by
    cases hloop : anyBit s.mcr uartMcrLoop with
    | true => rw [view_serialXmit_loop s t hloop]
    | false =>
      rcases view_serialXmit s t hloop with hsend | ⟨retrying, hput⟩
      · rw [hsend]
        rfl
      · rw [hput]
        rfl
  rw [← xmitFifo_xmitLoad]
  rw [← view_xmitLoad] at hload
  exact hload

theorem xmitFifo_writeFcr (s : SerialState) (val : BitVec 8) :
    (writeFcr s val).xmitFifo = (queue .xmit).run (clears s uartFcrXfr val) s.xmitFifo := by
  rw [clears]
  by_cases hval : s.fcr = val
  · rw [writeFcr, if_pos hval, if_neg fun h ↦ h.1 hval]
    rfl
  · have hset : (writeFcr s val).xmitFifo =
        ((view s).setFifo (anyBit (fcrValue s val) uartFcrXfr)
          (anyBit (fcrValue s val &&& 0xc9) uartFcrFe)).fifo := by
      rw [writeFcr_eq hval, ← view_fcrSet]
      rfl
    rw [hset]
    cases hreset : anyBit (fcrValue s val) uartFcrXfr with
    | true =>
      rw [if_pos ⟨hval, rfl⟩]
      rfl
    | false =>
      rw [if_neg fun h ↦ Bool.false_ne_true h.2]
      rfl

/-- The transmitter knows whether a byte is loaded. -/
theorem loads_of_view {s s' : SerialState} (h : view s' = view s) : loads s' = loads s := by
  have henabled : fifoEnabled s' = fifoEnabled s := congrArg Transmitter.enabled h
  have hretrying : decide (0 < s'.tsrRetry) = decide (0 < s.tsrRetry) :=
    congrArg Transmitter.retrying h
  have hretry : s'.tsrRetry ≤ 0 ↔ s.tsrRetry ≤ 0 := by
    rw [decide_eq_decide] at hretrying
    omega
  simp only [loads, henabled, hretry]

theorem xmitFifo_serialIoportWrite (s : SerialState) (t : Times) {addr : ℕ} (val : BitVec 8)
    (hne : addr % 8 ≠ 2) (hnot : ¬(addr % 8 = 0 ∧ anyBit s.lcr uartLcrDlab = false)) :
    (serialIoportWrite s t addr val).xmitFifo = s.xmitFifo := by
  rcases view_serialIoportWrite s t addr val with
    ⟨haddr, hdlab, -⟩ | ⟨-, flush, enabled, hset, -, hflush⟩
  · exact absurd ⟨haddr, hdlab⟩ hnot
  · have hfifo : (serialIoportWrite s t addr val).xmitFifo =
        ((view s).setFifo flush enabled).fifo :=
      congrArg Transmitter.fifo hset
    rw [hfifo, hflush hne]
    rfl

/-- **What an event does to the transmit FIFO** is what `xmitOps` says. -/
theorem xmitFifo_next (y : System) (a : Label) :
    (y.next a).serial.xmitFifo = (queue .xmit).run (xmitOps y a) y.serial.xmitFifo := by
  cases a with
  | portIn addr now => exact xmitFifo_of_view (view_serialIoportRead y.serial now addr)
  | portOut addr val t =>
    change (serialIoportWrite y.serial t addr val).xmitFifo = _
    rw [xmitOps]
    split
    · rename_i hthr
      have hwrite : serialIoportWrite y.serial t addr val =
          serialXmit (storeThr y.serial val) t := by
        rw [serialIoportWrite, hthr.1]
        exact if_neg (by simp [hthr.2])
      rw [hwrite, xmitFifo_serialXmit, xmitFifo_storeThr, Impl.run_append]
    · rename_i hnot
      split
      · rename_i haddr
        rw [serialIoportWrite, haddr]
        exact xmitFifo_writeFcr y.serial val
      · rename_i hne
        exact xmitFifo_serialIoportWrite y.serial t val hne hnot
  | timer completed t =>
    obtain ⟨s', hview, -, -, htimer⟩ := view_serialTimerInterrupt y.serial completed t y.ring
    change (serialTimerInterrupt y.serial completed t y.ring).1.xmitFifo = _
    rw [xmitOps]
    cases htransmit : completed.transmit with
    | true =>
      rw [htransmit, if_pos rfl] at htimer
      rw [xmitFifo_of_view htimer, xmitFifo_serialXmit, loads_of_view hview,
        xmitFifo_of_view hview]
      rfl
    | false =>
      rw [htransmit, if_neg Bool.false_ne_true] at htimer
      exact xmitFifo_of_view htimer
  | character now =>
    exact xmitFifo_of_view (view_serialCharacterInterrupt y.serial now y.ring)
  | enqueue c => rfl

/-! ## The receive FIFO -/

/-- Characters that come in are put into the FIFO, if it is in use. -/
theorem fifo_foldl_accept (r : Receiver) (cs : List (BitVec 8)) :
    (cs.foldl Receiver.accept r).fifo =
      (queue .recv).run (if r.enabled then cs.map .put else []) r.fifo := by
  induction cs generalizing r with
  | nil => rw [List.map_nil, ite_self]; rfl
  | cons c cs ih =>
    rw [List.foldl_cons, ih, Receiver.accept_enabled]
    cases he : r.enabled with
    | true =>
      have hput : (r.accept c).fifo = fifoPut .recv r.fifo c := by
        rw [Receiver.accept, if_pos he]
        split
        · rename_i hc
          exact (fifoPut_of_room .recv hc c).symm
        · rename_i hc
          exact (fifoPut_recv_of_full hc c).symm
      rw [hput]
      rfl
    | false =>
      have hkept : (r.accept c).fifo = r.fifo := by
        rw [Receiver.accept, if_neg (by simp [he])]
      rw [hkept]
      rfl

theorem recvFifo_writeFcr (s : SerialState) (val : BitVec 8) :
    ∃ itl, (writeFcr s val).recvFifo =
      { (queue .recv).run (clears s uartFcrRfr val) s.recvFifo with itl := itl } := by
  rw [clears]
  by_cases hval : s.fcr = val
  · rw [writeFcr, if_pos hval, if_neg fun h ↦ h.1 hval]
    exact ⟨s.recvFifo.itl, rfl⟩
  · obtain ⟨itl, hset⟩ := receiver_fcrSet s (fcrValue s val)
    have hwrite : (writeFcr s val).recvFifo =
        ((receiver s).setFifo (anyBit (fcrValue s val) uartFcrRfr)
          (anyBit (fcrValue s val &&& 0xc9) uartFcrFe) itl).fifo := by
      rw [writeFcr_eq hval, ← hset]
      rfl
    refine ⟨itl, hwrite.trans ?_⟩
    cases hreset : anyBit (fcrValue s val) uartFcrRfr with
    | true =>
      rw [if_pos ⟨hval, rfl⟩]
      rfl
    | false =>
      rw [if_neg fun h ↦ Bool.false_ne_true h.2]
      rfl

/-- Reading the receive register gets a byte, if the FIFO is in use. -/
theorem recvFifo_readRbr (s : SerialState) (now : BitVec 64) :
    (readRbr s now).2.recvFifo =
      (queue .recv).run (if fifoEnabled s then [.get] else []) s.recvFifo := by
  have hread : (readRbr s now).2.recvFifo = (receiver s).read.2.fifo :=
    congrArg Receiver.fifo (receiver_readRbr s now).2
  rw [hread, Receiver.read]
  cases he : fifoEnabled s with
  | true =>
    rw [if_pos (show (receiver s).enabled = true from he)]
    rfl
  | false =>
    rw [if_neg (show ¬(receiver s).enabled = true by simp [receiver, he])]
    rfl

theorem recvFifo_serialIoportRead {s : SerialState} (hs : Sane s) (now : BitVec 64) (addr : ℕ) :
    (serialIoportRead s now addr).2.recvFifo = (queue .recv).run
      (if addr % 8 = 0 ∧ anyBit s.lcr uartLcrDlab = false ∧ fifoEnabled s = true then [.get]
        else []) s.recvFifo := by
  by_cases hrbr : addr % 8 = 0 ∧ anyBit s.lcr uartLcrDlab = false
  · have hread : serialIoportRead s now addr = readRbr s now := by
      rw [serialIoportRead, hrbr.1]
      exact if_neg (by simp [hrbr.2])
    rw [hread, recvFifo_readRbr]
    simp only [hrbr, true_and]
  · rw [if_neg fun h ↦ hrbr ⟨h.1, h.2.1⟩]
    rcases receiver_serialIoportRead hs now addr with ⟨haddr, hdlab, -⟩ | ⟨-, hsame | hclear⟩
    · exact absurd ⟨haddr, hdlab⟩ hrbr
    · exact congrArg Receiver.fifo hsame
    · exact congrArg Receiver.fifo hclear

/-- **What an event does to the receive FIFO** is what `recvOps` says, the trigger level aside. -/
theorem recvFifo_next {y : System} (hs : Sane y.serial) (a : Label) :
    ∃ itl, (y.next a).serial.recvFifo =
      { (queue .recv).run (recvOps y a) y.serial.recvFifo with itl := itl } := by
  have hself : ∀ {f f' : SerialFIFO}, f' = f → ∃ itl, f' = { f with itl := itl } :=
    fun {f _} h ↦ ⟨f.itl, h⟩
  -- what comes in is put into the FIFO
  have hputs : ∀ cs, receiver (y.next a).serial = cs.foldl Receiver.accept (receiver y.serial) →
      (y.next a).serial.recvFifo = (queue .recv).run (puts y.serial cs) y.serial.recvFifo :=
    fun cs h ↦ (congrArg Receiver.fifo h).trans (fifo_foldl_accept (receiver y.serial) cs)
  cases a with
  | portIn addr now => exact hself (recvFifo_serialIoportRead hs now addr)
  | portOut addr val t =>
    rw [recvOps]
    split
    · rename_i haddr
      have hwrite : (y.next (.portOut addr val t)).serial = writeFcr y.serial val := by
        change serialIoportWrite y.serial t addr val = _
        rw [serialIoportWrite, haddr]
        rfl
      rw [hwrite]
      exact recvFifo_writeFcr y.serial val
    · rename_i hne
      exact hself (hputs _ (receiver_serialIoportWrite_of_ne hs t val hne))
  | timer completed t =>
    obtain ⟨cs, hring, hreceiver⟩ := receiver_serialTimerInterrupt hs completed t y.ring
    have hdequeued : dequeued y.ring (y.next (.timer completed t)).ring = cs := dequeued_eq hring
    rw [recvOps, hdequeued]
    exact hself (hputs _ hreceiver)
  | character now =>
    obtain ⟨cs, hring, hreceiver⟩ := receiver_serialCharacterInterrupt y.serial now y.ring
    have hdequeued : dequeued y.ring (y.next (.character now)).ring = cs := dequeued_eq hring
    rw [recvOps, hdequeued]
    exact hself (hputs _ hreceiver)
  | enqueue c => exact hself rfl

/-! ## Runs -/

/-- Every step of the system keeps the device sane. -/
theorem Sane.system_next {y : System} (h : Sane y.serial) (a : Label) :
    Sane (y.next a).serial := by
  cases a with
  | portIn addr now => exact h.serialIoportRead now addr
  | portOut addr val t => exact h.serialIoportWrite t addr val
  | timer completed t => exact h.serialTimerInterrupt completed t y.ring
  | character now => exact h.serialCharacterInterrupt now y.ring
  | enqueue c => exact h

/-- The system, with what went through each FIFO since it was last cleared. -/
structure Traced where
  /-- The system. -/
  system : System
  /-- The history of the transmit FIFO. -/
  xmit : History (BitVec 8)
  /-- The history of the receive FIFO. -/
  recv : History (BitVec 8)

/-- What has to hold of a FIFO and its history. -/
structure Intact (fifo : FifoId) (f : SerialFIFO) (h : History (BitVec 8)) : Prop where
  /-- It holds no more than it has room for. -/
  count : f.count ≤ uartFifoLength
  /-- The write end is a slot. -/
  head : f.head < uartFifoLength
  /-- The read end is a slot. -/
  tail : f.tail < uartFifoLength
  /-- The two ends and the length agree. -/
  aligned : Aligned f
  /-- The bytes got from it and those in it are the ones it accepted, in that order. -/
  order : InOrder waiting f h
  /-- When it is full, a put changes at most the oldest byte or the newest. -/
  full : f.count = uartFifoLength → ∀ c,
    (waiting (fifoPut fifo f c)).length = (waiting f).length ∧
      ((waiting (fifoPut fifo f c)).tail = (waiting f).tail ∨
        (waiting (fifoPut fifo f c)).dropLast = (waiting f).dropLast)

theorem intact_iff {fifo : FifoId} {f : SerialFIFO} {h : History (BitVec 8)} :
    Intact fifo f h ↔ FifoOk f ∧ InOrder waiting f h := by
  constructor
  · rintro ⟨hcount, -, htail, haligned, horder, -⟩
    exact ⟨⟨hcount, htail, haligned⟩, horder⟩
  · rintro ⟨hok, horder⟩
    refine ⟨hok.count, fifoOk_head_lt hok, hok.tail, hok.head, horder, fun hfull c ↦ ?_⟩
    obtain ⟨hlength, htail⟩ := waiting_fifoPut_of_full fifo hok hfull c
    exact ⟨hlength, .inl htail⟩

namespace Traced

/-- One event. -/
def next (y : Traced) (a : Label) : Traced where
  system := y.system.next a
  xmit := (queue .xmit).history (xmitOps y.system a) y.system.serial.xmitFifo y.xmit
  recv := (queue .recv).history (recvOps y.system a) y.system.serial.recvFifo y.recv

/-- The step relation of `Traced.next`: anything can happen at any time. -/
abbrev Step : Traced → Label → Traced → Prop := Does (fun _ _ ↦ True) next

/-- The system after `serial_pre_init`. -/
def init (now : BitVec 64) : Traced where
  system := System.init now
  xmit := .empty
  recv := .empty

/-- Both FIFOs are. -/
structure Intact (y : Traced) : Prop where
  /-- The transmit FIFO is. -/
  xmit : Serial.Intact .xmit y.system.serial.xmitFifo y.xmit
  /-- The receive FIFO is. -/
  recv : Serial.Intact .recv y.system.serial.recvFifo y.recv

/-- **No byte is written to the transmit register while the transmit FIFO is full.** -/
def Roomy (y : Traced) : Label → Prop
  | .portOut addr _ _ => addr % 8 = 0 → anyBit y.system.serial.lcr uartLcrDlab = false →
      fifoEnabled y.system.serial = true → y.system.serial.xmitFifo.count < uartFifoLength
  | _ => True

variable {y : Traced}

theorem allSafe_loads (s : SerialState) (f : SerialFIFO) :
    (queue .xmit).AllSafe (PutSafe .xmit) (loads s) f := by
  rw [loads]
  split <;> exact trivial

theorem allSafe_clears (s : SerialState) (val : BitVec 8) (f : SerialFIFO) :
    (queue .xmit).AllSafe (PutSafe .xmit) (clears s uartFcrXfr val) f := by
  rw [clears]
  split <;> exact trivial

/-- Then each byte that is put into it has room, -/
theorem allSafe_xmitOps {a : Label} (h : y.Roomy a) :
    (queue .xmit).AllSafe (PutSafe .xmit) (xmitOps y.system a) y.system.serial.xmitFifo := by
  cases a with
  | portOut addr val t =>
    rw [xmitOps]
    split
    · rename_i hthr
      rw [stores]
      split
      · rename_i he
        exact ⟨.inr (h hthr.1 hthr.2 he), allSafe_loads _ _⟩
      · exact allSafe_loads _ _
    · split
      · exact allSafe_clears _ _ _
      · exact trivial
  | timer completed t =>
    rw [xmitOps]
    split
    · exact allSafe_loads _ _
    · exact trivial
  | portIn addr now => exact trivial
  | character now => exact trivial
  | enqueue c => exact trivial

/-- and otherwise its two ends no longer agree. -/
theorem not_aligned_next {a : Label} (hok : FifoOk y.system.serial.xmitFifo) (h : ¬y.Roomy a) :
    ¬Aligned (y.next a).system.serial.xmitFifo := by
  cases a with
  | portOut addr val t =>
    rw [Roomy] at h
    push Not at h
    obtain ⟨haddr, hdlab, he, hfull⟩ := h
    have hput : ¬Aligned (fifoPut .xmit y.system.serial.xmitFifo val) :=
      not_aligned_fifoPut hok (not_lt.mpr hfull) val
    have htail : (fifoPut .xmit y.system.serial.xmitFifo val).tail < uartFifoLength := by
      rw [fifoPut_xmit_of_full (not_lt.mpr hfull)]
      exact hok.tail
    change ¬Aligned (y.system.next (.portOut addr val t)).serial.xmitFifo
    rw [xmitFifo_next, xmitOps, if_pos ⟨haddr, hdlab⟩, stores, if_pos he, loads]
    split
    · exact fun hno ↦ hput ((aligned_fifoGet_iff htail).mp hno)
    · exact hput
  | portIn addr now => exact absurd trivial h
  | timer completed t => exact absurd trivial h
  | character now => exact absurd trivial h
  | enqueue c => exact absurd trivial h

/-- **One event**: the FIFOs stay intact if and only if there is room. -/
theorem intact_next_iff (hs : Sane y.system.serial) (h : y.Intact) (a : Label) :
    y.Roomy a ↔ (y.next a).Intact := by
  constructor
  · intro hroomy
    obtain ⟨hxmit, hxmit'⟩ := intact_iff.mp h.xmit
    obtain ⟨hrecv, hrecv'⟩ := intact_iff.mp h.recv
    refine ⟨intact_iff.mpr ?_, intact_iff.mpr ?_⟩
    · change FifoOk (y.system.next a).serial.xmitFifo ∧
        InOrder waiting (y.system.next a).serial.xmitFifo _
      rw [xmitFifo_next]
      exact (represents .xmit).run hxmit hxmit' (allSafe_xmitOps hroomy)
    · obtain ⟨itl, hnext⟩ := recvFifo_next hs a
      obtain ⟨hok, horder⟩ := (represents .recv).run hrecv hrecv'
        (Impl.allSafe_of_forall _ (fun f ↦ .inl rfl) (recvOps y.system a) _)
      change FifoOk (y.system.next a).serial.recvFifo ∧
        InOrder waiting (y.system.next a).serial.recvFifo _
      rw [hnext]
      exact ⟨⟨hok.count, hok.tail, hok.head⟩, horder⟩
  · intro hnext
    by_contra hroomy
    exact not_aligned_next (intact_iff.mp h.xmit).1 hroomy hnext.xmit.aligned

theorem intact_init (now : BitVec 64) : (init now).Intact := by
  have hcleared : ∀ fifo f, Serial.Intact fifo (fifoClear f) .empty := fun fifo f ↦
    intact_iff.mpr ⟨fifoOk_fifoClear f, (waiting_eq_nil rfl).symm⟩
  have hxmit : (init now).system.serial.xmitFifo = fifoClear zeroFifo :=
    congrArg Transmitter.fifo (view_serialPreInit now)
  have hrecv : (init now).system.serial.recvFifo = fifoClear zeroFifo :=
    congrArg Receiver.fifo (receiver_serialPreInit now)
  constructor
  · rw [hxmit]
    exact hcleared .xmit zeroFifo
  · rw [hrecv]
    exact hcleared .recv zeroFifo

/-- **When the FIFOs are in order**: in the runs in which no byte is written to the transmit
register while the transmit FIFO is full, and in those only, both FIFOs are intact in every
state. -/
theorem run_intact_iff (now : BitVec 64) (as : List Label) (y : Traced) :
    Run (Guarded Roomy Step) (init now) as y ↔
      Run (Guarded (fun y _ ↦ y.Intact) Step) (init now) as y ∧ y.Intact := by
  refine Run.guarded_iff_of_invariant (J := fun y ↦ Sane y.system.serial) (intact_init now)
    (sane_serialPreInit now) ?_ ?_
  · rintro y a - hs - ⟨-, rfl⟩
    exact hs.system_next a
  · rintro y a - hs hintact ⟨-, rfl⟩
    exact intact_next_iff hs hintact a

/-- **A byte too many.**  With the FIFOs in use the guest writes to the transmit register until 16
bytes are sent, one more is loaded and 16 are in the FIFO, and then once more. -/
theorem not_intact_overrun :
    ¬∀ now as y, Run Step (init now) as y → y.Intact := by
  intro h
  have hrun : Run Step (init 0)
      (.portOut 2 0x01 noTimes :: List.replicate 34 (.portOut 0 0x41 noTimes)) _ :=
    run_foldl (by decide)
  exact absurd (h 0 _ _ hrun).xmit.aligned (by decide +kernel)

end Traced

end Serial
end CamkesVm
