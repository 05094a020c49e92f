import CamkesVm.Lib.Coalesced
import CamkesVm.Rtc.Output

/-!
# Register C as an account

A bit of register C stands for a cause of interrupts: the periodic timer, the alarm, the end of an
update cycle; and the top bit for an interrupt whatever its cause.  A cause that arises sets its
bit.  A read returns the register and clears it, so the causes are merged until the guest reads.

`account` writes down what arose and what the reads said, in order.  Nothing is lost in it and
nothing is made up: a cause is in the first read after it arose, and in a read only if it arose
since it was in one last.  A read returns the flags of the causes since the read before, and nothing
else (`run_accounted`).  Writes to the register do nothing, and changing what is enabled does not
withdraw a cause.

## What is here

* `Cause`, `Cause.flag`, `Cause.told` — the bits as causes.
* `arises`, `ReadsC`, `moments`, `account` — what an event adds to the account. What arises is said
  from the state before the event and from register B, without a look at what the handlers then do.
* `regC_next` — the step lemma: register C after an event is what the account makes of it.
* `Machine.ledger`, `posts`, `run_ledger` — a run as signals and takings of a word, to which the
  general theory applies.
* `run_accounted`, with a run over two cycles as its example.

The top bit has entries of its own: it arises together with a cause that is enabled at that moment.
-/

set_option autoImplicit false

namespace CamkesVm
namespace Rtc

open Transition Coalesced

/-! ## Causes -/

/-- What a bit of register C stands for. -/
inductive Cause
  /-- The periodic interrupt. -/
  | periodic
  /-- The alarm. -/
  | alarm
  /-- The end of an update cycle. -/
  | updateEnded
  /-- An interrupt that is enabled. -/
  | irq
  deriving DecidableEq

namespace Cause

/-- The number of the bit. -/
def bit : Cause → ℕ
  | .periodic => 6
  | .alarm => 5
  | .updateEnded => 4
  | .irq => 7

/-- The bit. -/
def flag : Cause → BitVec 8
  | .periodic => regCPf
  | .alarm => regCAf
  | .updateEnded => regCUf
  | .irq => regCIrqf

/-- All causes. -/
def all : List Cause := [.periodic, .alarm, .updateEnded, .irq]

theorem flag_eq (c : Cause) : c.flag = BitVec.twoPow 8 c.bit := by cases c <;> decide

theorem bit_injective : Function.Injective bit := by
  intro c c' h
  cases c <;> cases c' <;> first | rfl | exact absurd h (by decide)

theorem mem_all (c : Cause) : c ∈ all := by cases c <;> decide

end Cause

/-- The causes a value of register C tells of. -/
def told (b : BitVec 8) : List Cause := Cause.all.filter fun c ↦ b.getLsbD c.bit

theorem told_exact : Exact Cause.flag fun word (_ : Unit) ↦ told word :=
  exact_bits Cause.flag_eq Cause.bit_injective (fun c ↦ by cases c <;> decide)
    (by decide) Cause.mem_all fun _ _ ↦ rfl

/-! ## What an event does -/

/-- The causes that arise in an event. -/
def arises (s : RTCState) : Event → List Cause
  | .timer .periodic _ => if s.anyBit rtcRegB regBPie then [.periodic, .irq] else []
  | .timer .second2 _ =>
    (if alarmDue s then [.alarm, .irq] else []) ++ .updateEnded ::
      if s.anyBit rtcRegB regBUie then [.irq] else []
  | _ => []

/-- An event is a read of register C. -/
def ReadsC (s : RTCDevice) : Event → Prop
  | .portIn addr => addr % 2 ≠ 0 ∧ s.cmosIndex = rtcRegC
  | _ => False

instance (s : RTCDevice) : (e : Event) → Decidable (ReadsC s e)
  | .portIn _ => inferInstanceAs (Decidable (_ ∧ _))
  | .portOut _ _ _ | .expire _ | .timer _ _ => inferInstanceAs (Decidable False)

/-- What an event adds to the account: what a read of register C returns, or what arises. -/
def moments (s : RTCDevice) (e : Event) : List (Moment Cause) :=
  match e with
  | .portIn addr =>
    if ReadsC s e then .taken :: (told (cmosIoportRead s addr).1).map .ran else []
  | _ => (arises s.toRTCState e).map .signalled

/-- The account of some events. -/
def account (T : FieldTypes) : Machine → List Event → List (Moment Cause)
  | _, [] => []
  | y, e :: es => moments y.rtc e ++ account T (y.next T e) es

theorem account_concat (T : FieldTypes) (y : Machine) (es : List Event) (e : Event) :
    account T y (es ++ [e]) = account T y es ++ moments (es.foldl (Machine.next T) y).rtc e := by
  induction es generalizing y with
  | nil => simp [account]
  | cons e' es ih => rw [List.cons_append, account, ih, ← List.append_assoc, ← account,
      List.foldl_cons]

/-- A read of register C returns it. -/
theorem cmosIoportRead_regC {s : RTCDevice} {addr : ℕ} (h : ReadsC s (.portIn addr)) :
    (cmosIoportRead s addr).1 = s.cmosData rtcRegC := by
  rw [cmosIoportRead, if_neg h.1]
  dsimp only
  rw [if_pos h.2, h.2]
  split <;> rfl

/-- The flags of some causes are added to a register. -/
def flagged (b : BitVec 8) (cs : List Cause) : BitVec 8 := cs.foldl (fun b c ↦ b ||| c.flag) b

theorem flagged_append (b : BitVec 8) (cs cs' : List Cause) :
    flagged b (cs ++ cs') = flagged (flagged b cs) cs' := List.foldl_append

/-- **A completion of the periodic timer**. -/
theorem regC_periodicPulse (s : RTCState) (now : BitVec 64) :
    (periodicPulse s).cmosData rtcRegC =
      flagged (s.cmosData rtcRegC) (arises s (.timer .periodic now)) := by
  have hraise : (if s.anyBit rtcRegB regBPie
      then (s.setCmos rtcRegC (s.cmosData rtcRegC ||| 0xc0)).emit (.setIrqLevel 1)
      else s).cmosData rtcRegC =
        flagged (s.cmosData rtcRegC) (arises s (.timer .periodic now)) := by
    rw [arises]
    split
    · rw [emit_cmosData, setCmos_self]
      exact (BitVec.or_assoc _ regCPf regCIrqf).symm
    · rfl
  rw [← hraise, periodicPulse]
  generalize (if s.anyBit rtcRegB regBPie
    then (s.setCmos rtcRegC (s.cmosData rtcRegC ||| 0xc0)).emit (.setIrqLevel 1) else s) = s₁
  split <;> rfl

theorem regC_rtcUpdateSecond (T : FieldTypes) (s : RTCState) :
    (rtcUpdateSecond T s).cmosData rtcRegC = s.cmosData rtcRegC := by
  rw [rtcUpdateSecond]
  split
  · rfl
  · dsimp only
    split
    · rw [emit_cmosData, setCmos_of_ne _ (by decide)]
    · rfl

/-- **The end of an update cycle**. -/
theorem regC_rtcUpdateSecond2 (T : FieldTypes) (s : RTCState) (now : BitVec 64) :
    (rtcUpdateSecond2 T s).cmosData rtcRegC =
      flagged (s.cmosData rtcRegC) (arises s (.timer .second2 now)) := by
  obtain ⟨halarm, huie⟩ := due_copied T s (!s.anyBit rtcRegB regBSet)
  have hcopy : (if !s.anyBit rtcRegB regBSet then rtcCopyDate T s else s).cmosData rtcRegC =
      s.cmosData rtcRegC := by
    split
    · exact rtcCopyDate_cmosData_of_notMem T s (by decide)
    · rfl
  rw [arises, ← halarm, ← huie, ← hcopy, rtcUpdateSecond2]
  generalize (if !s.anyBit rtcRegB regBSet then rtcCopyDate T s else s) = s₁
  have hdue : (if alarmDue s₁
      then (s₁.setCmos rtcRegC (s₁.cmosData rtcRegC ||| 0xa0)).emit (.setIrqLevel 1)
      else s₁).cmosData rtcRegC =
        flagged (s₁.cmosData rtcRegC) (if alarmDue s₁ then [.alarm, .irq] else []) := by
    split
    · rw [emit_cmosData, setCmos_self]
      exact (BitVec.or_assoc _ regCAf regCIrqf).symm
    · rfl
  have hregB : (if alarmDue s₁
      then (s₁.setCmos rtcRegC (s₁.cmosData rtcRegC ||| 0xa0)).emit (.setIrqLevel 1)
      else s₁).anyBit rtcRegB regBUie = s₁.anyBit rtcRegB regBUie := by
    split
    · rw [RTCState.anyBit, emit_cmosData, setCmos_of_ne _ (by decide)]
      rfl
    · rfl
  rw [flagged_append, ← hdue, ← hregB]
  dsimp only
  rw [← alarmDue]
  generalize (if alarmDue s₁
    then (s₁.setCmos rtcRegC (s₁.cmosData rtcRegC ||| 0xa0)).emit (.setIrqLevel 1) else s₁) = s₂
  have hend : (s₂.setCmos rtcRegC (s₂.cmosData rtcRegC ||| regCUf)).anyBit rtcRegB regBUie =
      s₂.anyBit rtcRegB regBUie := by
    rw [RTCState.anyBit, setCmos_of_ne _ (by decide)]
    rfl
  have hreg := setCmos_self s₂ rtcRegC (s₂.cmosData rtcRegC ||| regCUf)
  rw [hend, emit_cmosData, setCmos_of_ne _ (by decide)]
  split
  · rw [hreg, emit_cmosData, setCmos_self]
    rfl
  · exact hreg

/-- **Register C after an event.** -/
theorem regC_next (T : FieldTypes) {y : Machine} (hnone : y.rtc.irqCoalesced = 0) (e : Event) :
    (y.next T e).rtc.cmosData rtcRegC =
      if ReadsC y.rtc e then 0
      else flagged (y.rtc.cmosData rtcRegC) (arises y.rtc.toRTCState e) := by
  rw [Machine.core_next T hnone e]
  by_cases hread : ReadsC y.rtc e
  · rw [if_pos hread]
    cases e with
    | portIn addr =>
      change (if ReadsC y.rtc (.portIn addr) then _ else _ : RTCState).cmosData rtcRegC = 0
      rw [if_pos hread]
      exact setCmos_self _ _ _
    | portOut addr data now => exact hread.elim
    | expire timer => exact hread.elim
    | timer timer now => exact hread.elim
  · rw [if_neg hread]
    cases e with
    | portIn addr =>
      change (if ReadsC y.rtc (.portIn addr) then _ else _ : RTCState).cmosData rtcRegC = _
      rw [if_neg hread]
      rfl
    | portOut addr data now =>
      dsimp only
      split
      · rfl
      · exact congrArg Prod.fst (line_storeCmos T _ data _)
    | expire timer => rfl
    | timer timer now =>
      cases timer with
      | periodic => exact regC_periodicPulse _ now
      | coalesced => rfl
      | second => exact regC_rtcUpdateSecond T _
      | second2 => exact regC_rtcUpdateSecond2 T _ now

/-! ## Runs -/

/-- Register C and the account of it, as a word that is taken. -/
def Machine.ledger (y : Machine) (h : List (Moment Cause)) : Coalesced.State 8 Cause :=
  { word := y.rtc.cmosData rtcRegC, history := h }

/-- An event as signals, or as the taking of the word. -/
def posts (s : RTCDevice) (e : Event) : List (Coalesced.Event Cause Unit) :=
  if ReadsC s e then [.handle ()] else (arises s.toRTCState e).map .signal

/-- **One event** is that much of a run of the word. -/
theorem ledger_next (T : FieldTypes) {y : Machine} (hnone : y.rtc.irqCoalesced = 0) (e : Event)
    (h : List (Moment Cause)) :
    (posts y.rtc e).foldl (State.next Cause.flag fun word _ ↦ told word) (y.ledger h) =
      (y.next T e).ledger (h ++ moments y.rtc e) := by
  rw [Machine.ledger, Machine.ledger, regC_next T hnone, posts]
  by_cases hread : ReadsC y.rtc e
  · rw [if_pos hread, if_pos hread]
    cases e with
    | portIn addr =>
      rw [moments, if_pos hread, cmosIoportRead_regC hread]
      rfl
    | portOut addr data now => exact hread.elim
    | expire timer => exact hread.elim
    | timer timer now => exact hread.elim
  · rw [if_neg hread, if_neg hread, foldl_signal]
    congr 2
    cases e with
    | portIn addr =>
      rw [moments, if_neg hread]
      rfl
    | portOut addr data now => rfl
    | expire timer => rfl
    | timer timer now => rfl

theorem regC_init (T : FieldTypes) (tm : RtcTimeDate) (now : ℤ) :
    (Machine.init T tm now).rtc.cmosData rtcRegC = 0 := by
  change (rtcReset (rtcInitfn T { zeroState with baseYear := 1900 } tm now)).cmosData rtcRegC = 0
  have hinit : (rtcInitfn T { zeroState with baseYear := 1900 } tm now).cmosData rtcRegC = 0 := rfl
  rw [rtcReset, emit_cmosData, setCmos_self, setCmos_of_ne _ (by decide), hinit]
  exact BitVec.zero_and

/-- **A run of the machine** is one of the word. -/
theorem run_ledger {T : FieldTypes} {tm : RtcTimeDate} {now : ℤ} {es : List Event} {y : Machine}
    (h : Run (Machine.Step T) (Machine.init T tm now) es y) :
    ∃ ps, Run (Coalesced.Step Cause.flag fun word (_ : Unit) ↦ told word) Coalesced.idle ps
      (y.ledger (account T (Machine.init T tm now) es)) := by
  induction h with
  | nil =>
    refine ⟨[], ?_⟩
    rw [Machine.ledger, regC_init]
    exact .nil
  | @snoc es y z e hrun hstep ih =>
    obtain ⟨ps, hps⟩ := ih
    refine ⟨ps ++ posts y.rtc e, hps.append ?_⟩
    rw [account_concat, ← hrun.eq_foldl, hstep.2,
      ← ledger_next T (Machine.run_irqCoalesced T hrun)]
    exact run_foldl (.of_forall fun _ _ ↦ trivial)

/-- **Register C is an exact account of the causes of interrupts**, in every run: each cause is in
the first read after it arose; a read tells of a cause only if it arose since it was told last; and
a read returns the flags of the causes that arose since the read before. -/
theorem run_accounted {T : FieldTypes} {tm : RtcTimeDate} {now : ℤ} {es : List Event}
    {y : Machine} (h : Run (Machine.Step T) (Machine.init T tm now) es y) :
    Complete (account T (Machine.init T tm now) es) ∧
      Exclusive (account T (Machine.init T tm now) es) ∧
      ∀ addr, ReadsC y.rtc (.portIn addr) → (cmosIoportRead y.rtc addr).1 =
        merged Cause.flag (waiting (account T (Machine.init T tm now) es)) := by
  obtain ⟨ps, hps⟩ := run_ledger h
  obtain ⟨hcomplete, hexclusive⟩ := run_complete_exclusive told_exact hps
  refine ⟨hcomplete, hexclusive, fun addr hread ↦ ?_⟩
  rw [cmosIoportRead_regC hread]
  exact run_word hps

/-- The guest enables the interrupt at the end of an update cycle and selects register C; it reads
it after one cycle, and another cycle goes by. -/
def twoCycles : List Event :=
  [.portOut 0x70 11 0, .portOut 0x71 0x12 0, .portOut 0x70 12 0, .expire .second2,
    .timer .second2 0, .portIn 0x71, .expire .second, .timer .second 0, .expire .second2,
    .timer .second2 0]

/-- The machine after that. -/
def afterTwoCycles : Machine :=
  twoCycles.foldl (Machine.next intFields) (Machine.init intFields exampleDate 0)

set_option maxRecDepth 4000 in
theorem twoCycles_run :
    Run (Machine.Step intFields) (Machine.init intFields exampleDate 0) twoCycles afterTwoCycles :=
  run_foldl (by decide)

set_option maxRecDepth 4000 in
theorem run_accounted_twoCycles :
    account intFields (Machine.init intFields exampleDate 0) twoCycles =
        [.signalled .updateEnded, .signalled .irq, .taken, .ran .updateEnded, .ran .irq,
          .signalled .updateEnded, .signalled .irq] ∧
      ReadsC afterTwoCycles.rtc (.portIn 0x71) ∧ (cmosIoportRead afterTwoCycles.rtc 0x71).1 = 0x90 ∧
      Complete (account intFields (Machine.init intFields exampleDate 0) twoCycles) ∧
      Exclusive (account intFields (Machine.init intFields exampleDate 0) twoCycles) := by
  have haccount : account intFields (Machine.init intFields exampleDate 0) twoCycles =
      [.signalled .updateEnded, .signalled .irq, .taken, .ran .updateEnded, .ran .irq,
        .signalled .updateEnded, .signalled .irq] := rfl
  have hreads : ReadsC afterTwoCycles.rtc (.portIn 0x71) := by decide
  obtain ⟨hcomplete, hexclusive, hread⟩ := run_accounted twoCycles_run
  refine ⟨haccount, hreads, ?_, hcomplete, hexclusive⟩
  rw [hread 0x71 hreads, haccount]
  rfl

end Rtc
end CamkesVm
