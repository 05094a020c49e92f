import CamkesVm.Pit.Channel

/-!
# The PIT: every division has a divisor

Three functions divide by the count of a channel: `pit_get_count`, `pit_get_out` and
`pit_get_next_transition_time`.  The model divides in the natural numbers, where everything can be
divided by 0.  This file has the functions of `CamkesVm.Pit.State` again with the divisions of C,
which have no value there, and with the bytes that are read as the `int`s they are: a call either
has a result or is undefined.

Nothing is ever undefined, and the results are those of the model (`checked_run`).  Once a count has
been loaded into a channel it is in `[1, 65536]` (`Counted.access`).  `pit_pre_init` works out the
output of the first channel before it has loaded any, but in mode 0, which divides by nothing.

## How it is put together

* The functions of `Checked` have the names of those of the model, in a namespace of their own, and
  differ from them in two things: they return an `Option`, and a division is `none` where its
  divisor is 0. They are written from the source once more, and not obtained from the model.
* For each function there is one lemma that it has a result, that of the model, wherever the count
  is at least 1 (`pitGetCount_eq`, `pitGetOut_eq` and so on). Modes 0, 1, 4 and 5 ask for no
  divisor.
* `Counted` is the invariant of a channel, and `next_eq` puts the two together for one event.

The bytes a read returns are compared as well: an `int` that is not a byte would be cut on the way
to the guest.
-/

set_option autoImplicit false

namespace CamkesVm
namespace Pit

open Transition

/-! ## The functions, with the divisions of C -/

namespace Checked

/-- `a % b` -/
def mod (a b : ℕ) : Option ℕ := if b = 0 then none else some (a % b)

/-- `ROUND_DOWN(n, b)` -/
def roundDown (n b : ℕ) : Option ℕ := do
  let r ← mod n b
  return n - r

/-- `pit_get_count` -/
def pitGetCount (s : PITChannelState) (now : BitVec 64) : Option ℤ :=
  let d := ticks s now
  match s.mode with
  | 0 | 1 | 4 | 5 => some (((s.count : ℤ) - d) % 65536)
  | 3 => do
    let r ← mod (2 * d % 2 ^ 64) s.count
    return s.count - r
  | _ => do
    let r ← mod d s.count
    return s.count - r

/-- `pit_get_out` -/
def pitGetOut (s : PITChannelState) (currentTime : BitVec 64) : Option ℕ :=
  let d := ticks s currentTime
  match s.mode with
  | 1 => some (if d < s.count then 1 else 0)
  | 2 => do
    let r ← mod d s.count
    return if r = 0 ∧ d ≠ 0 then 1 else 0
  | 3 => do
    let r ← mod d s.count
    return if r < (s.count + 1) / 2 then 1 else 0
  | 4 | 5 => some (if d = s.count then 1 else 0)
  | _ => some (if s.count ≤ d then 1 else 0)

/-- The switch of `pit_get_next_transition_time`: the tick of the next transition, if any. -/
def nextTransition (s : PITChannelState) (currentTime : BitVec 64) : Option (Option ℕ) :=
  let d := ticks s currentTime
  match s.mode with
  | 2 => do
    let base ← roundDown d s.count
    return some (if d - base = 0 ∧ d ≠ 0 then base + s.count else base + s.count + 1)
  | 3 => do
    let base ← roundDown d s.count
    let period2 := (s.count + 1) / 2
    return some (if d - base < period2 then base + period2 else base + s.count)
  | 4 | 5 =>
    some (if d < s.count then some s.count else if d = s.count then some (s.count + 1) else none)
  | _ => some (if d < s.count then some s.count else none)

/-- `pit_get_next_transition_time` -/
def pitGetNextTransitionTime (s : PITChannelState) (currentTime : BitVec 64) :
    Option (BitVec 64) := do
  match ← nextTransition s currentTime with
  | none => return -1
  | some next =>
    let nextTime := s.countLoadTime + BitVec.ofNat 64 (muldivu64 next nsInS pitFreq)
    return if nextTime ≤ currentTime then currentTime + 1 else nextTime

/-- `pit_irq_timer_update`, of channel `i`. -/
def pitIrqTimerUpdate (pit : PITCommonState) (i : Fin 3) (currentTime : BitVec 64) :
    Option PITCommonState :=
  let s := pit.channels i
  if !s.irqTimer || s.irqDisabled then some pit
  else do
    let expireTime ← pitGetNextTransitionTime s currentTime
    let irqLevel ← pitGetOut s currentTime
    let pit := (pit.emit (.setIrqLevel irqLevel)).setChannel i
      { s with nextTransitionTime := expireTime }
    return pit.emit (if expireTime ≠ -1 then .oneshotAbsolute expireTime else .stop)

/-- `pit_timer_interrupt` -/
def pitTimerInterrupt (pit : PITCommonState) : Option PITCommonState :=
  pitIrqTimerUpdate pit 0 (pit.channels 0).nextTransitionTime

/-- `pit_irq_control` -/
def pitIrqControl (pit : PITCommonState) (enable : Bool) (now : BitVec 64) :
    Option PITCommonState :=
  let s := pit.channels 0
  if enable then pitIrqTimerUpdate (pit.setChannel 0 { s with irqDisabled := false }) 0 now
  else some ((pit.setChannel 0 { s with irqDisabled := true }).emit .stop)

/-- `pit_load_count`, of channel `i`. -/
def pitLoadCount (pit : PITCommonState) (i : Fin 3) (val : ℕ) (now : BitVec 64) :
    Option PITCommonState :=
  let val := if val = 0 then 0x10000 else val
  let s := { pit.channels i with countLoadTime := now, count := val }
  pitIrqTimerUpdate (pit.setChannel i s) i now

/-- `pit_latch_count` -/
def pitLatchCount (s : PITChannelState) (now : BitVec 64) : Option PITChannelState :=
  if s.countLatched = 0 then do
    let count ← pitGetCount s now
    return { s with latchedCount := BitVec.ofInt 16 count, countLatched := s.rwMode }
  else some s

/-- The read back command on channel `i`. -/
def readBack (s : PITChannelState) (i : Fin 3) (val : BitVec 8) (now now' : BitVec 64) :
    Option PITChannelState :=
  if val &&& (2 <<< i.val) ≠ 0 then do
    let s ← (if val &&& 0x20 = 0 then pitLatchCount s now else some s)
    if val &&& 0x10 = 0 ∧ s.statusLatched = false then
      let out ← pitGetOut s now'
      return { s with
        status := BitVec.ofNat 8 out <<< 7 ||| BitVec.ofNat 8 s.rwMode <<< 4 |||
          BitVec.ofNat 8 s.mode <<< 1 ||| BitVec.ofNat 8 s.bcd
        statusLatched := true }
    else return s
  else some s

/-- A command for one channel. -/
def command (s : PITChannelState) (val : BitVec 8) (now : BitVec 64) : Option PITChannelState :=
  let access := val.toNat / 16 % 4
  if access = 0 then pitLatchCount s now
  else
    some { s with
      rwMode := access
      readState := access
      writeState := access
      mode := val.toNat / 2 % 8
      bcd := val.toNat % 2 }

/-- `pit_ioport_write` -/
def pitIoportWrite (pit : PITCommonState) (clock clock' : Fin 3 → BitVec 64) (addr : ℕ)
    (val : BitVec 8) : Option PITCommonState :=
  match addr % 4 with
  | 0 => writeCount 0
  | 1 => writeCount 1
  | 2 => writeCount 2
  | _ =>
    match val.toNat / 64 with
    | 0 => one 0
    | 1 => one 1
    | 2 => one 2
    | _ => do
      let pit ← back pit 0
      let pit ← back pit 1
      back pit 2
where
  /-- The turn of channel `i` in the loop of the read back command. -/
  back (pit : PITCommonState) (i : Fin 3) : Option PITCommonState := do
    return pit.setChannel i (← readBack (pit.channels i) i val (clock i) (clock' i))
  /-- A command for channel `i`. -/
  one (i : Fin 3) : Option PITCommonState := do
    return pit.setChannel i (← command (pit.channels i) val (clock i))
  /-- A byte of a count for channel `i`. -/
  writeCount (i : Fin 3) : Option PITCommonState :=
    let s := pit.channels i
    if s.writeState = rwStateMsb then pitLoadCount pit i (val.toNat * 256) (clock i)
    else if s.writeState = rwStateWord0 then
      some (pit.setChannel i { s with writeLatch := val, writeState := rwStateWord1 })
    else if s.writeState = rwStateWord1 then do
      let pit ← pitLoadCount pit i (s.writeLatch.toNat + val.toNat * 256) (clock i)
      return pit.setChannel i { pit.channels i with writeState := rwStateWord0 }
    else pitLoadCount pit i val.toNat (clock i)

/-- A read of a channel, with `ret` an `int`. -/
def readChannel (s : PITChannelState) (now : BitVec 64) : Option (ℤ × PITChannelState) :=
  if s.statusLatched then some (s.status.toNat, { s with statusLatched := false })
  else if s.countLatched ≠ 0 then
    if s.countLatched = rwStateMsb then
      some ((s.latchedCount.toNat : ℤ) / 256, { s with countLatched := 0 })
    else if s.countLatched = rwStateWord0 then
      some ((s.latchedCount.toNat : ℤ) % 256, { s with countLatched := rwStateMsb })
    else some ((s.latchedCount.toNat : ℤ) % 256, { s with countLatched := 0 })
  else do
    let count ← pitGetCount s now
    if s.readState = rwStateMsb then return (count / 256 % 256, s)
    else if s.readState = rwStateWord0 then
      return (count % 256, { s with readState := rwStateWord1 })
    else if s.readState = rwStateWord1 then
      return (count / 256 % 256, { s with readState := rwStateWord0 })
    else return (count % 256, s)

/-- `pit_ioport_read` -/
def pitIoportRead (pit : PITCommonState) (now : BitVec 64) (addr : ℕ) :
    Option (ℤ × PITCommonState) :=
  match addr % 4 with
  | 0 => read 0
  | 1 => read 1
  | 2 => read 2
  | _ => some (0, pit)
where
  /-- A read of channel `i`. -/
  read (i : Fin 3) : Option (ℤ × PITCommonState) := do
    let (ret, s) ← readChannel (pit.channels i) now
    return (ret, pit.setChannel i s)

/-- `pit_reset_common` -/
def pitResetCommon (pit : PITCommonState) (clock : Fin 3 → BitVec 64) : Option PITCommonState := do
  let pit ← reset pit 0
  let pit ← reset pit 1
  reset pit 2
where
  /-- The turn of channel `i` in the loop. -/
  reset (pit : PITCommonState) (i : Fin 3) : Option PITCommonState :=
    let s := { pit.channels i with
      mode := 3, gate := decide (i ≠ 2), countLoadTime := clock i, count := 0x10000 }
    if i = 0 ∧ s.irqDisabled = false then do
      let time ← pitGetNextTransitionTime s s.countLoadTime
      return pit.setChannel i { s with nextTransitionTime := time }
    else some (pit.setChannel i s)

/-- `pit_reset` -/
def pitReset (pit : PITCommonState) (clock : Fin 3 → BitVec 64) : Option PITCommonState := do
  let pit ← pitResetCommon pit clock
  let s := pit.channels 0
  return if s.irqDisabled then pit else pit.emit (.oneshotAbsolute s.nextTransitionTime)

/-- `pit_pre_init` -/
def pitPreInit (now : BitVec 64) (clock : Fin 3 → BitVec 64) : Option PITCommonState := do
  let pit : PITCommonState := { channels := fun _ ↦ zeroChannel, log := [] }
  let pit := pit.setChannel 0 { pit.channels 0 with irqTimer := true }
  let pit ← pitIrqControl pit true now
  pitReset pit clock

/-- One event. -/
def next (pit : PITCommonState) : Label → Option PITCommonState
  | .portIn addr now => (pitIoportRead pit now addr).map Prod.snd
  | .portOut addr val clock clock' => pitIoportWrite pit clock clock' addr val
  | .timer => pitTimerInterrupt pit

/-! ## Where there is a divisor -/

section

variable {s : PITChannelState}

theorem mod_of_ne {a b : ℕ} (h : b ≠ 0) : mod a b = some (a % b) := if_neg h

theorem roundDown_of_ne {n b : ℕ} (h : b ≠ 0) : roundDown n b = some (Pit.roundDown n b) := by
  rw [roundDown, mod_of_ne h]
  rfl

theorem pitGetCount_eq (h : s.count ≠ 0) (now : BitVec 64) :
    pitGetCount s now = some (Pit.pitGetCount s now : ℤ) := by
  have hle : ∀ a, a % s.count ≤ s.count := fun a ↦
    Nat.le_of_lt (Nat.mod_lt a (Nat.pos_of_ne_zero h))
  have hsub : ∀ a, (s.count : ℤ) - (a % s.count : ℕ) = (s.count - a % s.count : ℕ) := fun a ↦
    (Int.ofNat_sub (hle a)).symm
  have hwrap : ∀ a : ℤ, ((a % 65536).toNat : ℤ) = a % 65536 := fun a ↦ by omega
  rw [pitGetCount, Pit.pitGetCount, mod_of_ne h, mod_of_ne h]
  generalize s.mode = mode
  match mode with
  | 0 | 1 | 4 | 5 => simp only [hwrap]
  | 2 | 3 | _ + 6 => simp only [Option.bind_eq_bind, Option.bind_some, hsub, pure]

theorem pitGetOut_eq (h : s.count ≠ 0) (time : BitVec 64) :
    pitGetOut s time = some (Pit.pitGetOut s time) := by
  rw [pitGetOut, Pit.pitGetOut, mod_of_ne h]
  generalize s.mode = mode
  match mode with
  | 0 | 1 | 4 | 5 | _ + 6 => simp only
  | 2 | 3 => simp only [Option.bind_eq_bind, Option.bind_some, pure]

theorem nextTransition_eq (h : s.count ≠ 0) (time : BitVec 64) :
    nextTransition s time = some (Pit.nextTransition s time) := by
  rw [nextTransition, Pit.nextTransition, roundDown_of_ne h]
  generalize s.mode = mode
  match mode with
  | 0 | 1 | 4 | 5 | _ + 6 => simp only
  | 2 | 3 => simp only [Option.bind_eq_bind, Option.bind_some, pure]

theorem pitGetNextTransitionTime_eq (h : s.count ≠ 0) (time : BitVec 64) :
    pitGetNextTransitionTime s time = some (Pit.pitGetNextTransitionTime s time) := by
  rw [pitGetNextTransitionTime, Pit.pitGetNextTransitionTime, nextTransition_eq h]
  cases Pit.nextTransition s time <;> rfl

theorem pitIrqTimerUpdate_eq {pit : PITCommonState} {i : Fin 3} (h : (pit.channels i).count ≠ 0)
    (time : BitVec 64) :
    pitIrqTimerUpdate pit i time = some (Pit.pitIrqTimerUpdate pit i time) := by
  rw [pitIrqTimerUpdate, Pit.pitIrqTimerUpdate, pitGetNextTransitionTime_eq h, pitGetOut_eq h]
  exact (apply_ite some _ _ _).symm

/-- A load needs no count before it. -/
theorem pitLoadCount_eq (pit : PITCommonState) (i : Fin 3) (val : ℕ) (now : BitVec 64) :
    pitLoadCount pit i val now = some (Pit.pitLoadCount pit i val now) := by
  refine pitIrqTimerUpdate_eq ?_ now
  rw [channels_setChannel_self]
  dsimp only
  split
  · decide
  · assumption

theorem pitLatchCount_eq (h : s.count ≠ 0) (now : BitVec 64) :
    pitLatchCount s now = some (Pit.pitLatchCount s now) := by
  rw [pitLatchCount, Pit.pitLatchCount, pitGetCount_eq h]
  exact (apply_ite some _ _ _).symm

theorem command_eq (h : s.count ≠ 0) (val : BitVec 8) (now : BitVec 64) :
    command s val now = some (Pit.command s val now) := by
  rw [command, Pit.command, pitLatchCount_eq h]
  exact (apply_ite some _ _ _).symm

theorem readBack_eq (h : s.count ≠ 0) (i : Fin 3) (val : BitVec 8) (now now' : BitVec 64) :
    readBack s i val now now' = some (Pit.readBack s i val now now') := by
  have hcount : (if val &&& 0x20 = 0 then Pit.pitLatchCount s now else s).count ≠ 0 := by
    split
    · rw [Pit.pitLatchCount]
      split <;> exact h
    · exact h
  rw [readBack, Pit.readBack, pitLatchCount_eq h, ← apply_ite some]
  dsimp only [Option.bind_eq_bind, Option.bind_some]
  rw [pitGetOut_eq hcount]
  split
  · exact (apply_ite some _ _ _).symm
  · rfl

theorem readChannel_eq (h : s.count ≠ 0) (now : BitVec 64) :
    readChannel s now =
      some (((Pit.readChannel s now).1.toNat : ℤ), (Pit.readChannel s now).2) := by
  have hbyte : ∀ b : BitVec 16, ((b.setWidth 8).toNat : ℤ) = b.toNat % 256 := fun b ↦ by
    rw [BitVec.toNat_setWidth]
    omega
  have hshift : ∀ b : BitVec 16, ((b >>> 8).toNat : ℤ) % 256 = b.toNat / 256 := fun b ↦ by
    rw [BitVec.toNat_ushiftRight, Nat.shiftRight_eq_div_pow]
    omega
  have hlow : ∀ n : ℕ, ((BitVec.ofNat 16 n).toNat : ℤ) % 256 = n % 256 := fun n ↦ by
    rw [BitVec.toNat_ofNat]
    omega
  have hhigh : ∀ n : ℕ, ((BitVec.ofNat 16 n).toNat : ℤ) / 256 = n / 256 % 256 := fun n ↦ by
    rw [BitVec.toNat_ofNat]
    omega
  rw [readChannel, Pit.readChannel, pitGetCount_eq h]
  dsimp only [Option.bind_eq_bind, Option.bind_some]
  repeat' split
  all_goals simp only [hbyte, hshift, hlow, hhigh, pure]

/-! ## Events -/

variable {pit : PITCommonState}

theorem writeCount_eq (pit : PITCommonState) (clock : Fin 3 → BitVec 64) (val : BitVec 8)
    (i : Fin 3) : pitIoportWrite.writeCount pit clock val i =
      some (Pit.pitIoportWrite.writeCount pit clock val i) := by
  simp only [pitIoportWrite.writeCount, Pit.pitIoportWrite.writeCount, pitLoadCount_eq]
  repeat' split
  all_goals rfl

theorem one_eq (clock : Fin 3 → BitVec 64) (val : BitVec 8) {i : Fin 3}
    (h : (pit.channels i).count ≠ 0) :
    pitIoportWrite.one pit clock val i = some (Pit.pitIoportWrite.one pit clock val i) := by
  rw [pitIoportWrite.one, command_eq h]
  rfl

theorem read_eq (now : BitVec 64) {i : Fin 3} (h : (pit.channels i).count ≠ 0) :
    pitIoportRead.read pit now i =
      some (((Pit.pitIoportRead.read pit now i).1.toNat : ℤ),
        (Pit.pitIoportRead.read pit now i).2) := by
  rw [pitIoportRead.read, readChannel_eq h]
  rfl

/-- The loop of the read back command goes over the channels one by one. -/
theorem back_eq (clock clock' : Fin 3 → BitVec 64) (val : BitVec 8)
    (h : ∀ i, (pit.channels i).count ≠ 0) :
    (do
      let pit ← pitIoportWrite.back clock clock' val pit 0
      let pit ← pitIoportWrite.back clock clock' val pit 1
      pitIoportWrite.back clock clock' val pit 2) =
    some { pit with
      channels := fun i ↦ Pit.readBack (pit.channels i) i val (clock i) (clock' i) } := by
  have hback : ∀ (pit : PITCommonState) (i : Fin 3), (pit.channels i).count ≠ 0 →
      pitIoportWrite.back clock clock' val pit i =
        some (pit.setChannel i (Pit.readBack (pit.channels i) i val (clock i) (clock' i))) := by
    intro pit i h
    rw [pitIoportWrite.back, readBack_eq h]
    rfl
  rw [hback pit 0 (h 0), Option.bind_eq_bind, Option.bind_some, hback (pit.setChannel 0 _) 1 (h 1),
    Option.bind_some, hback ((pit.setChannel 0 _).setChannel 1 _) 2 (h 2)]
  refine congrArg (fun c ↦ some ({ pit with channels := c } : PITCommonState)) (funext fun i ↦ ?_)
  fin_cases i <;> rfl

/-- **Events are defined**, and do what the model says, where all counts are loaded. -/
theorem next_eq (h : ∀ i, (pit.channels i).count ≠ 0) (a : Label) :
    next pit a = some (pit.next a) := by
  cases a with
  | portIn addr now =>
    rw [next, pitIoportRead, PITCommonState.next, Pit.pitIoportRead, read_eq now (h 0),
      read_eq now (h 1), read_eq now (h 2)]
    generalize addr % 4 = k
    match k with
    | 0 | 1 | 2 | _ + 3 => rfl
  | portOut addr val clock clock' =>
    rw [next, pitIoportWrite, PITCommonState.next, Pit.pitIoportWrite, writeCount_eq,
      writeCount_eq, writeCount_eq, one_eq clock val (h 0), one_eq clock val (h 1),
      one_eq clock val (h 2), back_eq clock clock' val h]
    generalize addr % 4 = k
    match k with
    | 0 | 1 | 2 => rfl
    | _ + 3 =>
      generalize val.toNat / 64 = l
      match l with
      | 0 | 1 | 2 | _ + 3 => rfl
  | timer => exact pitIrqTimerUpdate_eq (h 0) _

/-- A byte that is read is that of the model. -/
theorem pitIoportRead_eq (h : ∀ i, (pit.channels i).count ≠ 0) (now : BitVec 64) (addr : ℕ) :
    pitIoportRead pit now addr = some (((Pit.pitIoportRead pit now addr).1.toNat : ℤ),
      (Pit.pitIoportRead pit now addr).2) := by
  rw [pitIoportRead, Pit.pitIoportRead, read_eq now (h 0), read_eq now (h 1), read_eq now (h 2)]
  generalize addr % 4 = k
  rcases k with _ | _ | _ | k <;> rfl

/-- **Initialisation is defined.**  When the output is worked out for the first time the count is
still 0, but so is the mode. -/
theorem pitPreInit_eq (now : BitVec 64) (clock : Fin 3 → BitVec 64) :
    pitPreInit now clock = some (Pit.pitPreInit now clock) := by
  have hreset : ∀ pit : PITCommonState, pitResetCommon pit clock =
      some (Pit.pitResetCommon pit clock) := by
    intro pit
    have hone : ∀ (pit : PITCommonState) (i : Fin 3), pitResetCommon.reset clock pit i =
        some (pit.setChannel i ((Pit.pitResetCommon pit clock).channels i)) := by
      intro pit i
      rw [pitResetCommon.reset, Pit.pitResetCommon]
      dsimp only
      rw [pitGetNextTransitionTime_eq (show 0x10000 ≠ 0 by decide)]
      split <;> rfl
    rw [pitResetCommon, hone, Option.bind_eq_bind, Option.bind_some, hone, Option.bind_some, hone]
    refine congrArg (fun c ↦ some ({ pit with channels := c } : PITCommonState)) (funext fun i ↦ ?_)
    fin_cases i <;> rfl
  have hcontrol : ∀ pit : PITCommonState, (pit.channels 0).mode = 0 →
      pitIrqControl pit true now = some (Pit.pitIrqControl pit true now) := by
    intro pit hmode
    simp only [pitIrqControl, Pit.pitIrqControl, if_true, pitIrqTimerUpdate, Pit.pitIrqTimerUpdate,
      channels_setChannel_self, pitGetNextTransitionTime, Pit.pitGetNextTransitionTime,
      nextTransition, Pit.nextTransition, pitGetOut, Pit.pitGetOut, hmode]
    split
    · rfl
    · split <;> rfl
  rw [pitPreInit, Pit.pitPreInit]
  dsimp only
  rw [hcontrol _ rfl, Option.bind_eq_bind, Option.bind_some, pitReset, hreset]
  rfl

end

end Checked

/-! ## Counts -/

/-- A count that can be divided by. -/
def Counted (s : PITChannelState) : Prop := 1 ≤ s.count ∧ s.count ≤ 65536

theorem Counted.ne {s : PITChannelState} (h : Counted s) : s.count ≠ 0 := Nat.ne_of_gt h.1

theorem SameCounting.counted {s s' : PITChannelState} (h : SameCounting s s') (hs : Counted s) :
    Counted s' := by
  rw [Counted, h.count]
  exact hs

theorem counted_load (s : PITChannelState) {val : ℕ} (h : val ≤ 65536) (now : BitVec 64) :
    Counted (s.load val now) := by
  rw [Counted, (load_fields s val now).1]
  split <;> omega

theorem Counted.write {s : PITChannelState} (h : Counted s) (val : BitVec 8) (now : BitVec 64) :
    Counted (s.write val now) := by
  have hval := val.isLt
  have hlatch := s.writeLatch.isLt
  rw [PITChannelState.write]
  split
  · exact counted_load s (by omega) now
  · split
    · exact h
    · split
      · exact counted_load s (by omega) now
      · exact counted_load s (by omega) now

theorem Counted.command {s : PITChannelState} (h : Counted s) (val : BitVec 8) (now : BitVec 64) :
    Counted (command s val now) := by
  rw [Pit.command]
  split
  · exact (sameCounting_pitLatchCount s now).counted h
  · exact h

/-- **An access leaves a count that can be divided by.** -/
theorem Counted.access {i : Fin 3} {s : PITChannelState} (h : Counted s) (b : Access) :
    Counted (s.access i b) := by
  cases b with
  | read now => exact (sameCounting_readChannel s now).counted h
  | write val now => exact h.write val now
  | command val now => exact h.command val now
  | readBack val now now' => exact (sameCounting_readBack s i val now now').counted h
  | timer => exact (sameCounting_rearm s _).counted h

theorem counted_next {pit : PITCommonState} (h : ∀ i, Counted (pit.channels i)) (a : Label)
    (i : Fin 3) : Counted ((pit.next a).channels i) := by
  rw [channels_next]
  cases a.on i with
  | none => exact h i
  | some b => exact (h i).access b

theorem counted_pitPreInit (now : BitVec 64) (clock : Fin 3 → BitVec 64) (i : Fin 3) :
    Counted ((pitPreInit now clock).channels i) := by
  have hcommon : ∀ pit : PITCommonState, Counted ((pitResetCommon pit clock).channels i) := by
    intro pit
    rw [pitResetCommon]
    dsimp only
    split <;> exact (by decide : 1 ≤ 65536 ∧ 65536 ≤ 65536)
  rw [pitPreInit, pitReset]
  dsimp only
  split <;> exact hcommon _

/-- Nothing is undefined in a run, and it ends where the run of the model does. -/
theorem checked_foldlM {pit : PITCommonState} (h : ∀ i, Counted (pit.channels i))
    (as : List Label) : as.foldlM Checked.next pit = some (as.foldl PITCommonState.next pit) ∧
      ∀ i, Counted ((as.foldl PITCommonState.next pit).channels i) := by
  induction as generalizing pit with
  | nil => exact ⟨rfl, h⟩
  | cons a as ih =>
    rw [List.foldlM_cons, Checked.next_eq fun i ↦ (h i).ne]
    exact ih (counted_next h a)

/-- **The arithmetic of the PIT is always defined.**  From initialisation on, every event of every
run has a result, which is that of the model; the counts are in `[1, 65536]`, so that the output,
the count and the next transition of every channel are defined at any time; and every byte that can
be read is in `[0, 255]`. -/
theorem checked_run (now : BitVec 64) (clock : Fin 3 → BitVec 64) (as : List Label) :
    ∃ pit, ((Checked.pitPreInit now clock).bind fun pit ↦ as.foldlM Checked.next pit) = some pit ∧
      pit = as.foldl PITCommonState.next (pitPreInit now clock) ∧
      (∀ i, (1 ≤ (pit.channels i).count ∧ (pit.channels i).count ≤ 65536) ∧
        ∀ time, (Checked.pitGetCount (pit.channels i) time).isSome ∧
          (Checked.pitGetOut (pit.channels i) time).isSome ∧
          (Checked.pitGetNextTransitionTime (pit.channels i) time).isSome) ∧
      ∀ time addr, ∃ ret pit', Checked.pitIoportRead pit time addr = some (ret, pit') ∧
        0 ≤ ret ∧ ret ≤ 255 := by
  obtain ⟨hrun, hcounted⟩ := checked_foldlM (counted_pitPreInit now clock) as
  refine ⟨_, ?_, rfl, fun i ↦ ⟨hcounted i, fun time ↦ ?_⟩, fun time addr ↦ ?_⟩
  · rw [Checked.pitPreInit_eq, Option.bind_some, hrun]
  · rw [Checked.pitGetCount_eq (hcounted i).ne, Checked.pitGetOut_eq (hcounted i).ne,
      Checked.pitGetNextTransitionTime_eq (hcounted i).ne]
    exact ⟨rfl, rfl, rfl⟩
  · refine ⟨_, _, Checked.pitIoportRead_eq (fun i ↦ (hcounted i).ne) time addr, ?_⟩
    have hbyte :=
      (pitIoportRead (as.foldl PITCommonState.next (pitPreInit now clock)) time addr).1.isLt
    omega

end Pit
end CamkesVm
