import CamkesVm.Serial.Emits

/-!
# Output to a driver that keeps to the rules

A driver sets the device up, and from the first byte it sends leaves FIFO control and loopback
alone.  It sends only after it has read the line status with `THRE` set: one byte for each such
read, or as many as the FIFO holds if that is in use (`WellBehaved`).  For such a driver nothing
should be lost: the bytes written are those sent, then the one in the shift register while it waits
there, then those that wait in the FIFO or the holding register (`Lossless`).

They are, as long as no completion of the transmit timer is handled while no byte waits
(`NotStale`), and that is exact: such a completion always sends a byte that was not written
(`run_lossless_iff`).  It does happen (`not_lossless`).  A write arms the timer again while a
completion is recorded; that completion sends the byte in the shift register and, with it gone, the
next write sends the rest.  The timer is still armed, and nothing is left for it to send.

## What is here

* `queued`, `Exact`, `Tidy` — the abstract transmitter when nothing is lost, and its operations.
* `burst`, `WellBehaved`, `DriverStep` — the driver, as a condition on its accesses.
* `held`, `Lossless`, `NotStale` — the law, and the condition on a completion and the state before
  it.
* `Kept` — what holds whether or not something was lost, with a lemma for each kind of event. Since
  the line status was read with `THRE` set, the FIFO has got no more bytes than the driver has
  written, so there is room for the rest of its burst.
* `run_lossless_iff`, `not_lossless` — the runs, and one in which a zero goes out.
-/

set_option autoImplicit false

namespace CamkesVm
namespace Serial

open Transition TimerService EffectLog

/-! ## The transmitter, exactly -/

namespace Transmitter

variable (v : Transmitter)

/-- The bytes that wait to be loaded. -/
def queued : List (BitVec 8) :=
  if v.enabled then waiting v.fifo else if v.empty then [] else [v.thr]

/-- Every byte written was sent, waits in the shift register or waits to be loaded. -/
def Exact (written : List (BitVec 8)) : Prop := written = v.sent ++ shifting v ++ v.queued

/-- The holding register and the FIFO agree on whether anything waits. -/
structure Tidy : Prop where
  /-- The FIFO is in order. -/
  fifoOk : FifoOk v.fifo
  /-- It is empty when it is not in use. -/
  disabled : v.enabled = false → v.fifo.count = 0
  /-- When it is in use, the holding register counts as empty exactly when it is. -/
  enabled : v.enabled = true → (v.empty = true ↔ v.fifo.count = 0)

variable {v} {written : List (BitVec 8)}

theorem queued_of_not_hasInput (hin : ¬v.HasInput) :
    v.retrying = false ∧ v.queued = [] := by
  rw [HasInput, not_or] at hin
  obtain ⟨hr, hq⟩ := hin
  refine ⟨by simpa using hr, ?_⟩
  rw [queued]
  cases he : v.enabled with
  | true => exact waiting_eq_nil (by simpa [he] using hq)
  | false =>
    have hempty : v.empty = true := by simpa [he] using hq
    simp [hempty]

/-- **Loading keeps the transmitter tidy.** -/
theorem Tidy.load (h : v.Tidy) : v.load.Tidy := by
  rw [Transmitter.load]
  split
  · exact h
  · split
    · rename_i he
      refine ⟨?_, fun hno ↦ absurd he (by simp [show v.enabled = false from hno]), fun _ ↦ ?_⟩
      · by_cases hc : v.fifo.count = 0
        · rw [show (fifoGet v.fifo).2 = v.fifo by rw [fifoGet, if_pos hc]]
          exact h.fifoOk
        · exact (waiting_fifoGet h.fifoOk hc).2
      · have hempty := h.enabled he
        dsimp only
        rw [Bool.or_eq_true, decide_eq_true_eq, or_iff_right_iff_imp, hempty]
        intro hc
        rw [fifoGet, if_pos hc]
        exact hc
    · rename_i he
      exact ⟨h.fifoOk, h.disabled, fun hyes ↦ absurd hyes he⟩

/-- Loading takes nothing back. -/
theorem load_le (v : Transmitter) : v.load.fifo.count ≤ v.fifo.count ∧
    (v.empty = true → v.load.empty = true) ∧ v.load.enabled = v.enabled := by
  rw [Transmitter.load]
  split
  · exact ⟨le_refl _, id, rfl⟩
  · split
    · refine ⟨?_, fun h ↦ by simp [h], rfl⟩
      dsimp only
      rw [fifoGet]
      split
      · exact le_refl _
      · exact Nat.sub_le _ _
    · exact ⟨le_refl _, fun _ ↦ rfl, rfl⟩

theorem Tidy.send (h : v.Tidy) : v.send.Tidy := ⟨h.fifoOk, h.disabled, h.enabled⟩

theorem Tidy.putOff (h : v.Tidy) (retrying : Bool) : (v.putOff retrying).Tidy :=
  ⟨h.fifoOk, h.disabled, h.enabled⟩

/-- **So does storing a byte**, if the FIFO has room for it. -/
theorem Tidy.store (h : v.Tidy) (c : BitVec 8)
    (hroom : v.enabled = true → v.fifo.count < uartFifoLength) : (v.store c).Tidy := by
  cases he : v.enabled with
  | true =>
    have hlt := hroom he
    have hfifo : (v.store c).fifo = { fifoStore v.fifo c with count := v.fifo.count + 1 } := by
      simp only [Transmitter.store, he, if_true]
      exact if_pos hlt
    refine ⟨hfifo ▸ (waiting_fifoStore h.fifoOk c hlt).2, fun hno ↦ ?_, fun _ ↦ ?_⟩
    · simp [Transmitter.store, he] at hno
    · rw [hfifo]
      simp [Transmitter.store]
  | false =>
    have hfifo : (v.store c).fifo = v.fifo := by simp [Transmitter.store, he]
    refine ⟨hfifo ▸ h.fifoOk, fun _ ↦ hfifo ▸ h.disabled he, fun hyes ↦ ?_⟩
    simp [Transmitter.store, he] at hyes

/-- **Setting up an empty FIFO keeps the transmitter tidy.** -/
theorem Tidy.setFifo (h : v.Tidy) (hempty : v.empty = true) (hc : v.fifo.count = 0)
    (flush enabled : Bool) : (v.setFifo flush enabled).Tidy := by
  have hcount : (v.setFifo flush enabled).fifo.count = 0 := by
    cases flush with
    | false => exact hc
    | true => rfl
  refine ⟨?_, fun _ ↦ hcount, fun _ ↦ iff_of_true hempty hcount⟩
  cases flush with
  | false => exact h.fifoOk
  | true => exact fifoOk_fifoClear _

/-- **Loading moves the first byte that waits to the shift register**, if one waits. -/
theorem Exact.load (h : v.Exact written) (ht : v.Tidy) (hin : v.HasInput) :
    written = v.load.sent ++ [v.load.tsr] ++ v.load.queued := by
  cases hr : v.retrying with
  | true =>
    have hsh : shifting v = [v.tsr] := by simp [shifting, hr]
    rw [Transmitter.load, if_pos hr, ← hsh]
    exact h
  | false =>
    rw [Exact, Inv.shifting_eq_nil hr, List.append_nil] at h
    rw [Transmitter.load, if_neg (by simp [hr])]
    cases he : v.enabled with
    | true =>
      have hcount : v.fifo.count ≠ 0 := by simpa [HasInput, hr, he] using hin
      have hget := (waiting_fifoGet ht.fifoOk hcount).1
      rw [queued, if_pos he, hget] at h
      rw [if_pos rfl]
      simpa [queued, he] using h
    | false =>
      have hfull : v.empty = false := by simpa [HasInput, hr, he] using hin
      rw [queued, if_neg (by simp [he]), if_neg (by simp [hfull])] at h
      rw [if_neg Bool.false_ne_true]
      simpa [queued, he] using h

/-- **Storing a byte** adds it to those that wait, if there is room for it. -/
theorem Exact.store (h : v.Exact written) (ht : v.Tidy) (c : BitVec 8)
    (hroom : v.enabled = true → v.fifo.count < uartFifoLength)
    (hfree : v.enabled = false → v.empty = true) :
    (v.store c).Exact (written ++ [c]) ∧ (v.store c).HasInput := by
  have hsh : shifting (v.store c) = shifting v := rfl
  have hsent : (v.store c).sent = v.sent := rfl
  cases he : v.enabled with
  | true =>
    have hlt := hroom he
    have hfifo : (v.store c).fifo = { fifoStore v.fifo c with count := v.fifo.count + 1 } := by
      simp only [Transmitter.store, he, if_true]
      exact if_pos hlt
    have he' : (v.store c).enabled = true := he
    have hwait := (waiting_fifoStore ht.fifoOk c hlt).1
    refine ⟨?_, .inr ?_⟩
    · rw [Exact, queued, if_pos he] at h
      rw [Exact, queued, if_pos he', hsh, hsent, hfifo, hwait, h, List.append_assoc]
    · rw [if_pos he', hfifo]
      exact Nat.succ_ne_zero _
  | false =>
    have he' : ¬(v.store c).enabled = true := by simp [Transmitter.store, he]
    have hempty := hfree he
    refine ⟨?_, .inr ?_⟩
    · rw [Exact, queued, if_neg (by simp [he]), if_pos hempty, List.append_nil] at h
      rw [Exact, queued, if_neg he', hsh, hsent, h]
      rfl
    · rw [if_neg he']
      rfl

/-- Sending the byte in the shift register. -/
theorem exact_send (h : written = v.sent ++ [v.tsr] ++ v.queued) : v.send.Exact written := by
  rw [Exact, Inv.shifting_eq_nil rfl, List.append_nil]
  exact h

/-- Putting it off. -/
theorem exact_putOff (h : written = v.sent ++ [v.tsr] ++ v.queued) :
    (v.putOff true).Exact written := h

/-- **With no byte to load, what is sent was not written.** -/
theorem not_exact_load_send (h : v.Exact written) (hin : ¬v.HasInput) :
    ¬v.load.send.Exact written := by
  obtain ⟨hr, hq⟩ := queued_of_not_hasInput hin
  intro h'
  have hsent : v.load.sent = v.sent := by
    rw [Transmitter.load]
    split
    · rfl
    · split <;> rfl
  rw [Exact, Inv.shifting_eq_nil hr, hq, List.append_nil, List.append_nil] at h
  have hlen := congrArg List.length h'
  rw [h, send, hsent] at hlen
  simp only [List.length_append, List.length_singleton] at hlen
  omega

end Transmitter

/-! ## The driver -/

/-- How many bytes may be sent for one reading of the line status with `THRE` set. -/
def burst (s : SerialState) : ℕ := if fifoEnabled s then uartFifoLength else 1

/-- The rules a driver keeps to.  It writes FIFO control, and changes loopback, only before it sends
its first byte; and it sends only with loopback off, and what its last reading of the line status
allows. -/
def WellBehaved (y : Machine) : Event → Prop
  | .portOut addr val _ =>
    (transmitted y.serial addr val = [] ∨
      LoopOff y.serial ∧ y.sinceLsr.any (fun n ↦ decide (n < burst y.serial)) = true) ∧
    (addr % 8 = 2 → y.written = []) ∧
    (addr % 8 = 4 → y.written = [] ∨ anyBit val uartMcrLoop = anyBit y.serial.mcr uartMcrLoop)
  | _ => True

instance (y : Machine) : (e : Event) → Decidable (WellBehaved y e)
  | .portOut _ _ _ => inferInstanceAs (Decidable ((_ ∨ _ ∧ _) ∧ (_ → _) ∧ (_ → _ ∨ _)))
  | .portIn _ _ | .expire _ | .timer _ _ | .enqueue _ | .signal | .character _ =>
    inferInstanceAs (Decidable True)

/-- A step of the machine with such a driver. -/
abbrev DriverStep : Machine → Event → Machine → Prop :=
  Does (fun y e ↦ y.Enabled e ∧ WellBehaved y e) Machine.next

/-- The bytes that were written and not sent: the one in the shift register while it waits there,
and those in the FIFO or the holding register. -/
def held (s : SerialState) : List (BitVec 8) :=
  (if 0 < s.tsrRetry then [s.tsr] else []) ++
    if fifoEnabled s then waiting s.xmitFifo else if thrEmpty s then [] else [s.thr]

/-- **Nothing is lost**: the bytes written are those sent, then those held. -/
def Lossless (y : Machine) : Prop := y.written = sent y.serial ++ held y.serial

/-- There is a byte to send. -/
def Waits (s : SerialState) : Prop :=
  0 < s.tsrRetry ∨ if fifoEnabled s then s.xmitFifo.count ≠ 0 else thrEmpty s = false

/-- The transmit timer is handled only while there is a byte to send. -/
def NotStale (y : Machine) : Event → Prop
  | .timer completed _ => completed.transmit = true → Waits y.serial
  | _ => True

theorem hasInput_view (s : SerialState) : (view s).HasInput ↔ Waits s := by
  rw [Transmitter.HasInput, Waits]
  exact or_congr decide_eq_true_iff Iff.rfl

theorem exact_view (y : Machine) : (view y.serial).Exact y.written ↔ Lossless y := by
  have hsh : shifting (view y.serial) = if 0 < y.serial.tsrRetry then [y.serial.tsr] else [] := by
    simp [shifting, view]
  rw [Transmitter.Exact, Lossless, held, hsh, List.append_assoc]
  rfl

/-! ## What holds of every run with such a driver -/

/-- What holds whether or not something was lost. -/
structure Kept (y : Machine) : Prop where
  /-- The device is sane. -/
  sane : Sane y.serial
  /-- The transmitter is tidy. -/
  tidy : (view y.serial).Tidy
  /-- Since the line status was read with `THRE` set, no more bytes have come to wait in the FIFO
  than were written, and without it none waits in the holding register before one is written. -/
  credit : ∀ n, y.sinceLsr = some n →
    (fifoEnabled y.serial = true → y.serial.xmitFifo.count ≤ n) ∧
    (fifoEnabled y.serial = false → n = 0 → thrEmpty y.serial = true)
  /-- Once a byte was sent loopback is off. -/
  loopOff : y.written ≠ [] → LoopOff y.serial
  /-- Before that the transmitter is idle, and its timer is neither armed nor recorded. -/
  idle : y.written = [] → thrEmpty y.serial = true ∧ y.serial.xmitFifo.count = 0 ∧
    y.timers.armed .transmit = false ∧ y.timers.recorded .transmit = false

/-- An event that does not touch the transmitter. -/
theorem Kept.of_view {y y' : Machine} (h : Kept y) (hview : view y'.serial = view y.serial)
    (hsane : Sane y'.serial)
    (hloop : y.written ≠ [] → LoopOff y.serial → LoopOff y'.serial)
    (hquiet : Quiet y → Quiet y') (hwritten : y'.written = y.written)
    (hcredit : y'.sinceLsr = y.sinceLsr ∨ y'.sinceLsr = some 0 ∧ thrEmpty y.serial = true) :
    Kept y' := by
  have hthre : thrEmpty y'.serial = thrEmpty y.serial := congrArg Transmitter.empty hview
  have hfe : fifoEnabled y'.serial = fifoEnabled y.serial := congrArg Transmitter.enabled hview
  have hfifo : y'.serial.xmitFifo = y.serial.xmitFifo := congrArg Transmitter.fifo hview
  refine ⟨hsane, hview ▸ h.tidy, fun n hn ↦ ?_, fun hne ↦ ?_, fun hnil ↦ ?_⟩
  · rw [hfe, hfifo, hthre]
    rcases hcredit with hsame | ⟨hzero, hempty⟩
    · exact h.credit n (hsame.symm.trans hn)
    · have hn0 : n = 0 := Option.some.inj (hn.symm.trans hzero)
      rw [hn0]
      exact ⟨fun he ↦ ((h.tidy.enabled he).mp hempty).le, fun _ _ ↦ hempty⟩
  · rw [hwritten] at hne
    exact hloop hne (h.loopOff hne)
  · obtain ⟨hempty, hcount, hq⟩ := h.idle (hwritten.symm.trans hnil)
    rw [hthre, hfifo]
    exact ⟨hempty, hcount, hquiet hq⟩

theorem kept_init (now : BitVec 64) : Kept (Machine.init now) := by
  have hview := view_serialPreInit now
  have hempty : thrEmpty (serialPreInit now) = true := congrArg Transmitter.empty hview
  have hcount : (serialPreInit now).xmitFifo.count = 0 :=
    congrArg (fun v : Transmitter ↦ v.fifo.count) hview
  refine ⟨sane_serialPreInit now, ?_, fun n hn ↦ (by cases hn), fun hne ↦ absurd rfl hne,
    fun _ ↦ ⟨hempty, hcount, rfl, rfl⟩⟩
  change (view (serialPreInit now)).Tidy
  rw [hview]
  exact ⟨fifoOk_fifoClear _, fun _ ↦ rfl, fun hno ↦ by cases hno⟩

theorem lossless_init (now : BitVec 64) : Lossless (Machine.init now) := by
  rw [← exact_view]
  change (view (serialPreInit now)).Exact []
  rw [view_serialPreInit]
  rfl

/-- What running the transmitter does to it: the byte loaded is sent, or put off. -/
theorem view_serialXmit_of_sane {s : SerialState} (t : Times) (hs : Sane s) (hloop : LoopOff s) :
    view (serialXmit s t) = (view s).load.send ∨
      view (serialXmit s t) = (view s).load.putOff true := by
  rcases lt_or_ge s.charsSent maxCharsSent with hc | hc
  · exact .inl (view_serialXmit_send s t hloop hc)
  · exact .inr (view_serialXmit_putOff s t hloop hc hs.tsrRetry hs.pollMsl)

/-- What is known after a byte is loaded and then sent or put off. -/
theorem after_load {v v' : Transmitter} (hv : v' = v.load.send ∨ v' = v.load.putOff true) :
    (v.Tidy → v'.Tidy) ∧ v'.fifo.count ≤ v.fifo.count ∧ (v.empty = true → v'.empty = true) ∧
      v'.enabled = v.enabled ∧
      ∀ written, v.Exact written → v.Tidy → v.HasInput → v'.Exact written := by
  obtain ⟨hcount, hempty, henabled⟩ := v.load_le
  rcases hv with rfl | rfl
  · exact ⟨fun h ↦ h.load.send, hcount, hempty, henabled,
      fun written h ht hin ↦ Transmitter.exact_send (h.load ht hin)⟩
  · exact ⟨fun h ↦ h.load.putOff true, hcount, hempty, henabled,
      fun written h ht hin ↦ Transmitter.exact_putOff (h.load ht hin)⟩

/-- A guest that has not used up its burst finds room for a byte. -/
theorem Kept.room {y : Machine} (h : Kept y) {n : ℕ} (hsince : y.sinceLsr = some n)
    (hlt : n < burst y.serial) :
    ((view y.serial).enabled = true → (view y.serial).fifo.count < uartFifoLength) ∧
      ((view y.serial).enabled = false → (view y.serial).empty = true) := by
  obtain ⟨henabled, hdisabled⟩ := h.credit n hsince
  rw [burst] at hlt
  constructor
  · intro he
    rw [if_pos (show fifoEnabled y.serial = true from he)] at hlt
    exact lt_of_le_of_lt (henabled he) hlt
  · intro he
    rw [if_neg (by simp [show fifoEnabled y.serial = false from he]), Nat.lt_one_iff] at hlt
    exact hdisabled he hlt

/-- The byte that is stored is one more in the FIFO, at most. -/
theorem count_store_le {x : Transmitter} {val : BitVec 8} {n : ℕ} (he : x.enabled = true)
    (hroom : x.fifo.count < uartFifoLength) (hle : x.fifo.count ≤ n) :
    (x.store val).fifo.count ≤ n + 1 := by
  simp only [Transmitter.store, he, if_true]
  rw [if_pos (show (fifoStore x.fifo val).count < uartFifoLength from hroom)]
  exact Nat.succ_le_succ hle

/-- **A byte is written.** -/
theorem Kept.write {y : Machine} (h : Kept y) {addr : ℕ} {val : BitVec 8} {t : Times}
    (hwell : WellBehaved y (.portOut addr val t)) (haddr : addr % 8 = 0)
    (hdlab : anyBit y.serial.lcr uartLcrDlab = false) :
    Kept (y.next (.portOut addr val t)) ∧
      (Lossless y → Lossless (y.next (.portOut addr val t))) := by
  have hbytes : transmitted y.serial addr val = [val] := if_pos ⟨haddr, hdlab⟩
  obtain ⟨hloop, hn⟩ := hwell.1.resolve_left (by simp [hbytes])
  obtain ⟨n, hsince, hlt⟩ := (Option.any_eq_true _ _).mp hn
  rw [decide_eq_true_eq] at hlt
  obtain ⟨hroom, hfree⟩ := h.room hsince hlt
  -- the byte is stored, and then the transmitter is run
  have hwrite : serialIoportWrite y.serial t addr val = serialXmit (storeThr y.serial val) t := by
    simp only [serialIoportWrite, haddr, hdlab, Bool.false_eq_true, if_false]
  have hem : Emits [.fifoTimeout, .transmit] y.serial (serialIoportWrite y.serial t addr val) :=
    .serialIoportWrite _ _ t addr val h.sane (by omega) (.inr ⟨by decide, by decide⟩)
  have hstore := view_storeThr y.serial val
  have hstored := Emits.storeThr [] y.serial val
  have hloop' := hstored.loopOff hloop
  have hafter := after_load (view_serialXmit_of_sane t (hstored.sane h.sane) hloop')
  rw [← hwrite, hstore] at hafter
  obtain ⟨htidy, hcount, hempty, henab, hexact⟩ := hafter
  refine ⟨⟨hem.sane h.sane, htidy (h.tidy.store val hroom), ?_, fun _ ↦ ?_, fun hnil ↦ ?_⟩,
    fun hy ↦ ?_⟩
  · intro m hm
    obtain ⟨n', hn', hm'⟩ := Option.map_eq_some_iff.mp hm
    rw [hbytes] at hm'
    have hmn : m = n + 1 := by
      rw [← hm', Option.some.inj (hn'.symm.trans hsince)]
      rfl
    refine ⟨fun he ↦ ?_, fun _ hzero ↦ by omega⟩
    have he' : (view y.serial).enabled = true := henab.symm.trans he
    rw [hmn]
    exact hcount.trans (count_store_le he' (hroom he') ((h.credit n hsince).1 he'))
  · exact hem.loopOff hloop
  · simp [Machine.next, hbytes] at hnil
  · obtain ⟨hst, hin⟩ := Transmitter.Exact.store ((exact_view y).mpr hy) h.tidy val hroom hfree
    rw [← exact_view]
    change (view (serialIoportWrite y.serial t addr val)).Exact
      (y.written ++ transmitted y.serial addr val)
    rw [hbytes]
    exact hexact _ hst (h.tidy.store val hroom) hin

/-- A call that does not touch the transmitter loses nothing. -/
theorem Lossless.of_view {y y' : Machine} (h : Lossless y) (hview : view y'.serial = view y.serial)
    (hwritten : y'.written = y.written) : Lossless y' := by
  rw [← exact_view] at h ⊢
  rw [hview, hwritten]
  exact h

/-- Setting up the FIFO before the first byte. -/
theorem Transmitter.Exact.setFifo {v : Transmitter} (h : v.Exact []) (hempty : v.empty = true)
    (hc : v.fifo.count = 0) (flush enabled : Bool) : (v.setFifo flush enabled).Exact [] := by
  have hcount : (v.setFifo flush enabled).fifo.count = 0 := by
    cases flush with
    | false => exact hc
    | true => rfl
  have hempty' : (v.setFifo flush enabled).empty = true := hempty
  have hqueued : (v.setFifo flush enabled).queued = [] := by
    rw [queued, if_pos hempty', waiting_eq_nil hcount, ite_self]
  rw [Exact, eq_comm, List.append_eq_nil_iff] at h
  rw [Exact, hqueued, List.append_nil]
  exact h.1.symm

/-- **A write to modem control** that leaves loopback alone. -/
theorem Kept.portOut_mcr {y : Machine} (h : Kept y) {addr : ℕ} {val : BitVec 8} {t : Times}
    (hmcr : addr % 8 = 4)
    (hloop : y.written = [] ∨ anyBit val uartMcrLoop = anyBit y.serial.mcr uartMcrLoop)
    (hwritten : (y.next (.portOut addr val t)).written = y.written)
    (hsince : (y.next (.portOut addr val t)).sinceLsr = y.sinceLsr) :
    Kept (y.next (.portOut addr val t)) ∧
      (Lossless y → Lossless (y.next (.portOut addr val t))) := by
  have hserial : (y.next (.portOut addr val t)).serial = { y.serial with mcr := val &&& 0x1f } :=
    serialIoportWrite_mcr hmcr t val
  have hview : view (y.next (.portOut addr val t)).serial = view y.serial := by
    rw [hserial]
    rfl
  refine ⟨h.of_view hview ?_ ?_ ?_ hwritten (.inl hsince), fun hy ↦ hy.of_view hview hwritten⟩
  · rw [hserial]
    exact ⟨h.sane.tsrRetry, h.sane.pollMsl, h.sane.msr⟩
  · intro hne hoff
    have hbits : anyBit (val &&& 0x1f) uartMcrLoop = anyBit val uartMcrLoop :=
      anyBit_and_of_subset val (by decide)
    rw [LoopOff, hserial]
    exact hbits.trans ((hloop.resolve_left hne).trans hoff)
  · intro hq
    have htimers : (y.next (.portOut addr val t)).timers = y.timers :=
      timers_withSerial_mcr hmcr t val
    rwa [Quiet, htimers]

/-- **A write that sets the FIFO up**, before the first byte. -/
theorem Kept.portOut_setFifo {y : Machine} (h : Kept y) {addr : ℕ} {val : BitVec 8} {t : Times}
    {enabled : Bool} (hnil : y.written = [])
    (hem : Emits [] y.serial (serialIoportWrite y.serial t addr val))
    (hview : view (serialIoportWrite y.serial t addr val) =
      (view y.serial).setFifo true enabled)
    (hwritten : (y.next (.portOut addr val t)).written = y.written) :
    Kept (y.next (.portOut addr val t)) ∧
      (Lossless y → Lossless (y.next (.portOut addr val t))) := by
  obtain ⟨hempty, hcount, hq⟩ := h.idle hnil
  have hempty' : thrEmpty (serialIoportWrite y.serial t addr val) = true :=
    (congrArg Transmitter.empty hview).trans hempty
  have hcount' : (serialIoportWrite y.serial t addr val).xmitFifo.count = 0 :=
    congrArg (fun v : Transmitter ↦ v.fifo.count) hview
  refine ⟨⟨hem.sane h.sane, ?_, fun n _ ↦ ?_, fun hne ↦ ?_, fun _ ↦ ?_⟩, fun hy ↦ ?_⟩
  · change (view (serialIoportWrite y.serial t addr val)).Tidy
    rw [hview]
    exact h.tidy.setFifo hempty hcount true enabled
  · exact ⟨fun _ ↦ hcount'.le.trans (Nat.zero_le n), fun _ _ ↦ hempty'⟩
  · exact absurd (hwritten.trans hnil) hne
  · exact ⟨hempty', hcount', Quiet.withSerial hq hem List.not_mem_nil⟩
  · rw [← exact_view] at hy ⊢
    rw [hnil] at hy
    rw [hwritten, hnil]
    change (view (serialIoportWrite y.serial t addr val)).Exact []
    rw [hview]
    exact hy.setFifo hempty hcount true enabled

/-- **Any other port write.** -/
theorem Kept.portOut {y : Machine} (h : Kept y) {addr : ℕ} {val : BitVec 8} {t : Times}
    (hwell : WellBehaved y (.portOut addr val t)) (hbytes : transmitted y.serial addr val = []) :
    Kept (y.next (.portOut addr val t)) ∧
      (Lossless y → Lossless (y.next (.portOut addr val t))) := by
  have hwritten : (y.next (.portOut addr val t)).written = y.written := by
    simp [Machine.next, hbytes]
  have hsince : (y.next (.portOut addr val t)).sinceLsr = y.sinceLsr := by
    simp [Machine.next, hbytes]
  by_cases hmcr : addr % 8 = 4
  · exact h.portOut_mcr hmcr (hwell.2.2 hmcr) hwritten hsince
  · have hem : Emits [] y.serial (serialIoportWrite y.serial t addr val) :=
      .serialIoportWrite _ _ t addr val h.sane hmcr (.inl hbytes)
    rcases view_serialIoportWrite y.serial t addr val with
      ⟨haddr, hdlab, -⟩ | ⟨-, flush, enabled, hview, hkeep, hflush⟩
    · simp [transmitted, haddr, hdlab] at hbytes
    · cases flush with
      | false =>
        have hview' : view (y.next (.portOut addr val t)).serial = view y.serial := by
          rw [hkeep rfl] at hview
          exact hview
        exact ⟨h.of_view hview' (hem.sane h.sane) (fun _ ↦ hem.loopOff)
          (fun hq ↦ hq.withSerial hem List.not_mem_nil) hwritten (.inl hsince),
          fun hy ↦ hy.of_view hview' hwritten⟩
      | true =>
        -- the FIFO is set up, so nothing was written yet
        have haddr : addr % 8 = 2 := by
          by_contra hne
          exact absurd (hflush hne) (by decide)
        exact h.portOut_setFifo (hwell.2.1 haddr) hem hview hwritten

/-- Timer completions other than the transmitter's lose nothing. -/
theorem Kept.timer_others {y : Machine} (h : Kept y) {completed : Completed} (t : Times)
    (htr : completed.transmit = false) :
    Kept (y.next (.timer completed t)) ∧
      (Lossless y → Lossless (y.next (.timer completed t))) := by
  obtain ⟨s', -, -, -, htimer⟩ :=
    view_serialTimerInterrupt y.serial completed t y.buffer.contents
  rw [← GetcharBuf.serialTimerInterrupt_fst, htr, if_neg Bool.false_ne_true] at htimer
  have hem : Emits [.fifoTimeout, .moreChars] y.serial
      (GetcharBuf.serialTimerInterrupt y.serial completed t y.buffer).1 := by
    rw [GetcharBuf.serialTimerInterrupt_fst]
    exact .serialTimerInterrupt _ _ _ _ _ h.sane (by decide) (by decide) (by simp [htr])
  have hview : view (y.next (.timer completed t)).serial = view y.serial := htimer
  refine ⟨h.of_view hview (hem.sane h.sane) (fun _ ↦ hem.loopOff) (fun hq ↦ ?_) rfl (.inl rfl),
    fun hy ↦ hy.of_view hview rfl⟩
  have hq' : Quiet { y with timers := y.timers.collect completed.has } :=
    ⟨hq.1, by simp [Timers.collect, hq.2]⟩
  exact hq'.withSerial hem (by decide)

/-- **The completion of the transmit timer**: nothing is lost exactly if a byte waits. -/
theorem Kept.timer_transmit {y : Machine} (h : Kept y) {completed : Completed} {t : Times}
    (hen : y.Enabled (.timer completed t)) (htr : completed.transmit = true) :
    Kept (y.next (.timer completed t)) ∧
      (Lossless y →
        (NotStale y (.timer completed t) ↔ Lossless (y.next (.timer completed t)))) := by
  obtain ⟨s', hview, hmcr, hchars, htimer⟩ :=
    view_serialTimerInterrupt y.serial completed t y.buffer.contents
  rw [← GetcharBuf.serialTimerInterrupt_fst, htr, if_pos rfl] at htimer
  -- a completion is recorded, so a byte was written and loopback is off
  have hne : y.written ≠ [] := by
    intro hnil
    have hquiet := (h.idle hnil).2.2.2
    rw [hen.2.2.1 htr] at hquiet
    exact absurd hquiet (by decide)
  have hoff := h.loopOff hne
  have hem : Emits [.fifoTimeout, .moreChars, .transmit] y.serial
      (GetcharBuf.serialTimerInterrupt y.serial completed t y.buffer).1 := by
    rw [GetcharBuf.serialTimerInterrupt_fst]
    exact .serialTimerInterrupt _ _ _ _ _ h.sane (by decide) (by decide) fun _ ↦ by decide
  have hoff' : LoopOff s' := by
    rw [LoopOff, hmcr]
    exact hoff
  have hsend : view (y.next (.timer completed t)).serial = (view y.serial).load.send := by
    rw [← hview, ← view_serialXmit_send s' t hoff' (by rw [hchars]; decide)]
    exact htimer
  obtain ⟨htidy, hcount, hempty, henab, hexact⟩ := after_load (.inl hsend)
  refine ⟨⟨hem.sane h.sane, htidy h.tidy, fun n hn ↦ ?_, fun _ ↦ ?_, fun hnil ↦ absurd hnil hne⟩,
    fun hy ↦ ?_⟩
  · obtain ⟨henabled, hdisabled⟩ := h.credit n hn
    exact ⟨fun he ↦ hcount.trans (henabled (henab.symm.trans he)),
      fun he hzero ↦ hempty (hdisabled (henab.symm.trans he) hzero)⟩
  · exact hem.loopOff hoff
  · rw [← exact_view] at hy ⊢
    refine ⟨fun hwaits ↦ hexact _ hy h.tidy ((hasInput_view _).mpr (hwaits htr)), fun hex ↦ ?_⟩
    rw [hsend] at hex
    intro _
    by_contra hno
    exact Transmitter.not_exact_load_send hy (fun hin ↦ hno ((hasInput_view _).mp hin)) hex

/-- **Timer completions**: nothing is lost exactly if the transmit timer is not stale. -/
theorem Kept.timer {y : Machine} (h : Kept y) {completed : Completed} {t : Times}
    (hen : y.Enabled (.timer completed t)) :
    Kept (y.next (.timer completed t)) ∧
      (Lossless y →
        (NotStale y (.timer completed t) ↔ Lossless (y.next (.timer completed t)))) := by
  cases htr : completed.transmit with
  | false =>
    obtain ⟨hkept, hlossless⟩ := h.timer_others t htr
    exact ⟨hkept, fun hy ↦
      iff_of_true (fun hyes ↦ absurd (htr.symm.trans hyes) Bool.false_ne_true) (hlossless hy)⟩
  | true => exact h.timer_transmit hen htr

/-- **One step**, of any kind. -/
theorem Kept.next {y : Machine} {e : Event} (h : Kept y) (hen : y.Enabled e)
    (hwell : WellBehaved y e) :
    Kept (y.next e) ∧ (Lossless y → (NotStale y e ↔ Lossless (y.next e))) := by
  cases e with
  | portIn addr now =>
    have hem : Emits [.fifoTimeout] y.serial (serialIoportRead y.serial now addr).2 :=
      .serialIoportRead _ _ now addr h.sane (by decide)
    have hview := view_serialIoportRead y.serial now addr
    refine ⟨h.of_view hview (hem.sane h.sane) (fun _ ↦ hem.loopOff)
      (fun hq ↦ hq.withSerial hem (by decide)) rfl ?_,
      fun hy ↦ iff_of_true trivial (hy.of_view hview rfl)⟩
    change (if addr % 8 = 5 ∧ thrEmpty y.serial = true then some 0 else y.sinceLsr) = y.sinceLsr ∨
      (if addr % 8 = 5 ∧ thrEmpty y.serial = true then some 0 else y.sinceLsr) = some 0 ∧ _
    split
    · rename_i hlsr
      exact .inr ⟨rfl, hlsr.2⟩
    · exact .inl rfl
  | portOut addr val t =>
    have hstep : Kept (y.next (.portOut addr val t)) ∧
        (Lossless y → Lossless (y.next (.portOut addr val t))) := by
      by_cases hbytes : addr % 8 = 0 ∧ anyBit y.serial.lcr uartLcrDlab = false
      · exact h.write hwell hbytes.1 hbytes.2
      · exact h.portOut hwell (if_neg hbytes)
    exact ⟨hstep.1, fun hy ↦ iff_of_true trivial (hstep.2 hy)⟩
  | expire timer =>
    refine ⟨h.of_view rfl h.sane (fun _ ↦ id) (fun hq ↦ ?_) rfl (.inl rfl),
      fun hy ↦ iff_of_true trivial hy⟩
    have hne : Timer.transmit ≠ timer := by
      rintro rfl
      rw [Machine.Enabled, hq.1] at hen
      exact absurd hen Bool.false_ne_true
    exact ⟨(Function.update_of_ne hne _ _).trans hq.1, (Function.update_of_ne hne _ _).trans hq.2⟩
  | timer completed t => exact h.timer hen
  | enqueue c =>
    exact ⟨h.of_view rfl h.sane (fun _ ↦ id) id rfl (.inl rfl), fun hy ↦ iff_of_true trivial hy⟩
  | signal =>
    exact ⟨h.of_view rfl h.sane (fun _ ↦ id) id rfl (.inl rfl), fun hy ↦ iff_of_true trivial hy⟩
  | character now =>
    have hem : Emits [.fifoTimeout, .moreChars] y.serial
        (GetcharBuf.serialCharacterInterrupt y.serial now y.buffer).1 := by
      rw [GetcharBuf.serialCharacterInterrupt_fst]
      exact .serialCharacterInterrupt _ _ now _ (by decide) (by decide)
    have hview : view (GetcharBuf.serialCharacterInterrupt y.serial now y.buffer).1 =
        view y.serial := by
      rw [GetcharBuf.serialCharacterInterrupt_fst]
      exact view_serialCharacterInterrupt y.serial now _
    exact ⟨h.of_view hview (hem.sane h.sane) (fun _ ↦ hem.loopOff)
      (fun hq ↦ hq.withSerial hem (by decide)) rfl (.inl rfl),
      fun hy ↦ iff_of_true trivial (hy.of_view hview rfl)⟩

/-! ## Runs -/

/-- **When nothing is lost**: in the runs in which no completion of the transmit timer is handled
while no byte waits, and in those only, nothing is lost in any state. -/
theorem run_lossless_iff (now : BitVec 64) (es : List Event) (y : Machine) :
    Run (Guarded NotStale DriverStep) (Machine.init now) es y ↔
      Run (Guarded (fun y _ ↦ Lossless y) DriverStep) (Machine.init now) es y ∧ Lossless y :=
  Run.guarded_iff_of_invariant (lossless_init now) (kept_init now)
    (fun _ _ _ h _ hs ↦ hs.2 ▸ (h.next hs.1.1 hs.1.2).1)
    (fun _ _ _ h hy hs ↦ hs.2 ▸ (h.next hs.1.1 hs.1.2).2 hy)

instance (y : Machine) : Decidable (Lossless y) := inferInstanceAs (Decidable (_ = _))

set_option maxRecDepth 4000 in
/-- **A zero goes out that was never written.**  The driver enables the FIFO, reads the line status
and writes 16 bytes, which are sent; it reads the line status again and writes three more.  The
first is put off, and its timer expires before the second is written; the third is written between
the next expiry and its handling. -/
theorem not_lossless :
    ¬∀ now es y, Run DriverStep (Machine.init now) es y → Lossless y := by
  intro h
  let write (c : BitVec 8) : Event := .portOut 0 c noTimes
  let handle : Event := .timer transmitCompleted noTimes
  let es : List Event := [.portOut 2 0x01 noTimes, .portIn 5 0] ++ List.replicate 16 (write 0x41) ++
    [.portIn 5 0, write 0x42, .expire .transmit, write 0x43, handle, .expire .transmit, write 0x44,
      handle, .expire .transmit, handle]
  have hlossless := h 0 es _ (run_foldl (by decide))
  exact absurd hlossless (by decide)

end Serial
end CamkesVm
