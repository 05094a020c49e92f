import CamkesVm.Pit.Runs
import Mathlib.Tactic.FinCases
import Mathlib.Tactic.IntervalCases

/-!
# The PIT: one channel at a time

The three channels share a port, the one for commands, but no state: what an event does to a channel
depends on that channel alone.  `Access` is what an event can be to a channel and `Label.on` says
which access it is, if any, so that a run of the PIT is, for each channel, the sequence of its own
accesses (`channels_foldl_next`).  Accesses to the other channels do not appear in it.

## What is here

* `PITChannelState.rearm`, `PITChannelState.load`, `PITChannelState.write` — what the functions of
  the device do to their own channel, without the rest of the device and without its log.
* `Access`, `Label.on`, `PITChannelState.access` — the events of one channel. A command goes to the
  channel it names, and the read back command to each channel it selects; a completion of the timer
  is an event of the first.
* `channels_next`, `channels_foldl_next` — one event, and a run. From here on what concerns one
  channel is proved by induction on its accesses.
* `SameCounting` — the accesses that leave alone what a channel counts, which are most of them.

Nothing is lost by looking at a channel alone, since the log is the only thing the channels share,
and it is written and never read.
-/

set_option autoImplicit false

namespace CamkesVm
namespace Pit

/-! ## Accesses -/

/-- What `pit_irq_timer_update` does to its channel. -/
def PITChannelState.rearm (s : PITChannelState) (time : BitVec 64) : PITChannelState :=
  if !s.irqTimer || s.irqDisabled then s
  else { s with nextTransitionTime := pitGetNextTransitionTime s time }

/-- What `pit_load_count` does to its channel. -/
def PITChannelState.load (s : PITChannelState) (val : ℕ) (now : BitVec 64) : PITChannelState :=
  PITChannelState.rearm
    { s with countLoadTime := now, count := if val = 0 then 0x10000 else val } now

/-- What a data write does to its channel. -/
def PITChannelState.write (s : PITChannelState) (val : BitVec 8) (now : BitVec 64) :
    PITChannelState :=
  if s.writeState = rwStateMsb then s.load (val.toNat * 256) now
  else if s.writeState = rwStateWord0 then { s with writeLatch := val, writeState := rwStateWord1 }
  else if s.writeState = rwStateWord1 then
    { s.load (s.writeLatch.toNat + val.toNat * 256) now with writeState := rwStateWord0 }
  else s.load val.toNat now

/-- What an event can be to a channel. -/
inductive Access
  /-- A data read. -/
  | read (now : BitVec 64)
  /-- A data write. -/
  | write (val : BitVec 8) (now : BitVec 64)
  /-- A command for this channel. -/
  | command (val : BitVec 8) (now : BitVec 64)
  /-- A read back command, which is for all channels. -/
  | readBack (val : BitVec 8) (now now' : BitVec 64)
  /-- A completion of the interrupt timer. -/
  | timer
  deriving DecidableEq

/-- Which access an event is to channel `i`. -/
def Label.on (i : Fin 3) : Label → Option Access
  | .portIn addr now => if addr % 4 = i then some (.read now) else none
  | .portOut addr val clock clock' =>
    if addr % 4 = i then some (.write val (clock i))
    else if addr % 4 = 3 then
      if val.toNat / 64 = i then some (.command val (clock i))
      else if val.toNat / 64 = 3 then some (.readBack val (clock i) (clock' i))
      else none
    else none
  | .timer => if i = 0 then some .timer else none

/-- What an access does to channel `i`. -/
def PITChannelState.access (i : Fin 3) (s : PITChannelState) : Access → PITChannelState
  | .read now => (readChannel s now).2
  | .write val now => s.write val now
  | .command val now => Pit.command s val now
  | .readBack val now now' => Pit.readBack s i val now now'
  | .timer => s.rearm s.nextTransitionTime

/-! ## The channels are independent -/

section

variable {pit : PITCommonState} {i j : Fin 3}

theorem channels_setChannel (pit : PITCommonState) (i j : Fin 3) (s : PITChannelState) :
    (pit.setChannel i s).channels j = if i = j then s else pit.channels j := by
  split
  · rename_i h
    rw [h, channels_setChannel_self]
  · rename_i h
    exact channels_setChannel_of_ne pit i s (Ne.symm h)

theorem channels_pitIrqTimerUpdate (pit : PITCommonState) (i j : Fin 3) (time : BitVec 64) :
    (pitIrqTimerUpdate pit i time).channels j =
      if i = j then (pit.channels i).rearm time else pit.channels j := by
  simp only [pitIrqTimerUpdate, PITChannelState.rearm]
  split
  · split
    · rename_i h
      rw [h]
    · rfl
  · rw [channels_emit, channels_setChannel]
    rfl

theorem channels_pitLoadCount (pit : PITCommonState) (i j : Fin 3) (val : ℕ) (now : BitVec 64) :
    (pitLoadCount pit i val now).channels j =
      if i = j then (pit.channels i).load val now else pit.channels j := by
  rw [pitLoadCount]
  dsimp only
  rw [channels_pitIrqTimerUpdate, channels_setChannel_self, channels_setChannel]
  split <;> rfl

theorem channels_writeCount (pit : PITCommonState) (clock : Fin 3 → BitVec 64) (val : BitVec 8)
    (i j : Fin 3) : (pitIoportWrite.writeCount pit clock val i).channels j =
      if i = j then (pit.channels i).write val (clock i) else pit.channels j := by
  simp only [pitIoportWrite.writeCount, PITChannelState.write]
  split
  · rw [channels_pitLoadCount]
  · split
    · rw [channels_setChannel]
    · split
      · rw [channels_setChannel, channels_pitLoadCount, channels_pitLoadCount, if_pos rfl]
        split <;> rfl
      · rw [channels_pitLoadCount]

theorem channels_one (pit : PITCommonState) (clock : Fin 3 → BitVec 64) (val : BitVec 8)
    (i j : Fin 3) : (pitIoportWrite.one pit clock val i).channels j =
      if i = j then command (pit.channels i) val (clock i) else pit.channels j := by
  rw [pitIoportWrite.one, channels_setChannel]

theorem channels_read (pit : PITCommonState) (now : BitVec 64) (i j : Fin 3) :
    (pitIoportRead.read pit now i).2.channels j =
      if i = j then (readChannel (pit.channels i) now).2 else pit.channels j := by
  rw [pitIoportRead.read]
  exact channels_setChannel _ _ _ _

/-- **What an event does to a channel** depends on the channel alone. -/
theorem channels_next (pit : PITCommonState) (a : Label) (j : Fin 3) :
    (pit.next a).channels j =
      (a.on j).elim (pit.channels j) (PITChannelState.access j (pit.channels j)) := by
  cases a with
  | portIn addr now =>
    change (pitIoportRead pit now addr).2.channels j = _
    have haddr := Nat.mod_lt addr (show 0 < 4 by decide)
    rw [pitIoportRead, Label.on]
    generalize addr % 4 = k at haddr ⊢
    obtain hk | rfl := Nat.lt_succ_iff_lt_or_eq.mp haddr
    · interval_cases k
      all_goals
        refine (channels_read pit now _ j).trans ?_
        fin_cases j <;> rfl
    · fin_cases j <;> rfl
  | portOut addr val clock clock' =>
    change (pitIoportWrite pit clock clock' addr val).channels j = _
    have haddr := Nat.mod_lt addr (show 0 < 4 by decide)
    have hval : val.toNat / 64 < 4 := by omega
    rw [pitIoportWrite, Label.on]
    generalize addr % 4 = k at haddr ⊢
    obtain hk | rfl := Nat.lt_succ_iff_lt_or_eq.mp haddr
    · interval_cases k
      all_goals
        refine (channels_writeCount pit clock val _ j).trans ?_
        fin_cases j <;> rfl
    · generalize val.toNat / 64 = l at hval ⊢
      obtain hl | rfl := Nat.lt_succ_iff_lt_or_eq.mp hval
      · interval_cases l
        all_goals
          refine (channels_one pit clock val _ j).trans ?_
          fin_cases j <;> rfl
      · fin_cases j <;> rfl
  | timer =>
    change (pitIrqTimerUpdate pit 0 _).channels j = _
    rw [channels_pitIrqTimerUpdate, Label.on]
    fin_cases j <;> rfl

/-- **A run is, for each channel, the sequence of its accesses.** -/
theorem channels_foldl_next (pit : PITCommonState) (as : List Label) (j : Fin 3) :
    (as.foldl PITCommonState.next pit).channels j =
      (as.filterMap (Label.on j)).foldl (PITChannelState.access j) (pit.channels j) := by
  induction as generalizing pit with
  | nil => rfl
  | cons a as ih =>
    rw [List.foldl_cons, ih, channels_next]
    cases h : a.on j with
    | none => rw [List.filterMap_cons_none h, Option.elim_none]
    | some b => rw [List.filterMap_cons_some h, Option.elim_some, List.foldl_cons]

end

/-! ## What an access leaves alone -/

section

variable (s : PITChannelState)

/-- Reading a channel, latching it and its timer leave what it counts alone. -/
structure SameCounting (s s' : PITChannelState) : Prop where
  /-- The count. -/
  count : s'.count = s.count
  /-- The mode. -/
  mode : s'.mode = s.mode
  /-- The time of the load. -/
  countLoadTime : s'.countLoadTime = s.countLoadTime
  /-- The access mode. -/
  rwMode : s'.rwMode = s.rwMode
  /-- The byte that is written next. -/
  writeState : s'.writeState = s.writeState
  /-- The low byte that waits for its high byte. -/
  writeLatch : s'.writeLatch = s.writeLatch

theorem SameCounting.refl : SameCounting s s := ⟨rfl, rfl, rfl, rfl, rfl, rfl⟩

theorem sameCounting_rearm (time : BitVec 64) : SameCounting s (s.rearm time) := by
  rw [PITChannelState.rearm]
  split
  · exact .refl s
  · exact ⟨rfl, rfl, rfl, rfl, rfl, rfl⟩

theorem sameCounting_readChannel (now : BitVec 64) : SameCounting s (readChannel s now).2 := by
  rw [readChannel]
  repeat' split
  all_goals exact ⟨rfl, rfl, rfl, rfl, rfl, rfl⟩

theorem sameCounting_pitLatchCount (now : BitVec 64) : SameCounting s (pitLatchCount s now) := by
  rw [pitLatchCount]
  split
  · exact ⟨rfl, rfl, rfl, rfl, rfl, rfl⟩
  · exact .refl s

theorem sameCounting_readBack (i : Fin 3) (val : BitVec 8) (now now' : BitVec 64) :
    SameCounting s (readBack s i val now now') := by
  have hlatch : SameCounting s (if val &&& 0x20 = 0 then pitLatchCount s now else s) := by
    split
    · exact sameCounting_pitLatchCount s now
    · exact .refl s
  rw [readBack]
  generalize (if val &&& 0x20 = 0 then pitLatchCount s now else s) = s' at hlatch ⊢
  split
  · dsimp only
    split
    · exact ⟨hlatch.1, hlatch.2, hlatch.3, hlatch.4, hlatch.5, hlatch.6⟩
    · exact hlatch
  · exact .refl s

/-- A load sets the count and its time, and leaves the rest. -/
theorem load_fields (val : ℕ) (now : BitVec 64) :
    (s.load val now).count = (if val = 0 then 0x10000 else val) ∧
      (s.load val now).countLoadTime = now ∧ (s.load val now).mode = s.mode ∧
      (s.load val now).rwMode = s.rwMode ∧ (s.load val now).writeState = s.writeState ∧
      (s.load val now).writeLatch = s.writeLatch := by
  obtain ⟨h1, h2, h3, h4, h5, h6⟩ := sameCounting_rearm
    { s with countLoadTime := now, count := if val = 0 then 0x10000 else val } now
  exact ⟨h1, h3, h2, h4, h5, h6⟩

end

end Pit
end CamkesVm
