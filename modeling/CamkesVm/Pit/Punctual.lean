import CamkesVm.Pit.Checked
import CamkesVm.Pit.Load
import CamkesVm.Pit.Output
import CamkesVm.Pit.Transitions

/-!
# The PIT among the clock, the time server and its guest

`Timed` has the PIT, the time, and the time server's part in `TIMER_PIT`: its deadline, and whether
a completion is recorded.  A completion is collected first and handled then, and between its record,
its collection and its handling time passes, the guest may load another count, and the next
completion may be recorded.

The handler does not look at the clock.  It takes for the present the time the timer was armed for
last, which is the time of the completion only if the timer was not armed again since.  What it sets
the line to is the output at that time, and whether this is early is a matter of ticks: every output
has a tick at which it is there first (`firstAt`), and the output of a future time is not early if
it has been there since the load (`exists_outAt_iff`).

## What is here

* `Timed`, `Event`, `Timed.Step` — the system. Time only goes forward, an access may take some time,
  and a deadline that has passed is recorded at some later moment.
* `Timed.calls`, `Timed.levels` — the calls of `pit_get_out` in an event, and the levels it sets the
  line to.
* `Timed.Punctual` — no call is for a time before the load of its channel, and no level is set that
  the output has not had by then.
* `Timed.Sound` — the invariant: the times in the device are not in the future, but for the
  deadline.
* `run_punctual_iff` — exactly the completions that are handled after another count was loaded can
  be early, and `Timed.OnTime` says when they are.
-/

set_option autoImplicit false

namespace CamkesVm
namespace Pit

open Transition EffectLog Resample

/-! ## The first tick of an output -/

/-- The first tick at which the output is what it is after `e` ticks. -/
def firstAt (mode count e : ℕ) : ℕ :=
  match mode with
  | 2 => if e % count = 0 ∧ e ≠ 0 then count else 0
  | 3 => if e % count < (count + 1) / 2 then 0 else (count + 1) / 2
  | 4 | 5 => if e = count then count else 0
  | _ => if count ≤ e then count else 0

section

variable {mode count e : ℕ}

theorem outAt_firstAt (hcount : 1 ≤ count) :
    outAt mode count (firstAt mode count e) = outAt mode count e := by
  have hmod := Nat.mod_lt e hcount
  match mode with
  | 0 | _ + 6 =>
    simp only [firstAt, outAt]
    by_cases h : count ≤ e
    · rw [if_pos h, if_pos h, if_pos le_rfl]
    · rw [if_neg h, if_neg h, if_neg (by omega)]
  | 1 =>
    simp only [firstAt, outAt]
    by_cases h : count ≤ e
    · rw [if_pos h, if_neg (lt_irrefl _), if_neg (by omega)]
    · rw [if_neg h, if_pos (by omega), if_pos (by omega)]
  | 2 =>
    simp only [firstAt, outAt]
    by_cases h : e % count = 0 ∧ e ≠ 0
    · rw [if_pos h, if_pos h, if_pos ⟨Nat.mod_self count, by omega⟩]
    · rw [if_neg h, if_neg h, if_neg fun hno ↦ hno.2 rfl]
  | 3 =>
    simp only [firstAt, outAt]
    by_cases h : e % count < (count + 1) / 2
    · rw [if_pos h, if_pos h, Nat.zero_mod, if_pos (by omega)]
    · rw [if_neg h, if_neg h, Nat.mod_eq_of_lt (by omega), if_neg (lt_irrefl _)]
  | 4 | 5 =>
    simp only [firstAt, outAt]
    by_cases h : e = count
    · rw [if_pos h, if_pos h, if_pos rfl]
    · rw [if_neg h, if_neg h, if_neg (by omega)]

theorem firstAt_le {j : ℕ} (h : outAt mode count j = outAt mode count e) :
    firstAt mode count e ≤ j := by
  -- an output that is not the first one has been reached by tick `j`
  match mode with
  | 0 | _ + 6 =>
    simp only [firstAt, outAt] at h ⊢
    split <;> rename_i he
    · rw [if_pos he] at h
      by_contra hlt
      rw [if_neg hlt] at h
      exact absurd h (by decide)
    · exact Nat.zero_le j
  | 1 =>
    simp only [firstAt, outAt] at h ⊢
    split <;> rename_i he
    · rw [if_neg (Nat.not_lt.mpr he)] at h
      by_contra hlt
      rw [if_pos (Nat.not_le.mp hlt)] at h
      exact absurd h (by decide)
    · exact Nat.zero_le j
  | 2 =>
    simp only [firstAt, outAt] at h ⊢
    split <;> rename_i he
    · rw [if_pos he] at h
      by_cases hj : j % count = 0 ∧ j ≠ 0
      · exact Nat.le_of_dvd (Nat.pos_of_ne_zero hj.2) (Nat.dvd_of_mod_eq_zero hj.1)
      · rw [if_neg hj] at h
        exact absurd h (by decide)
    · exact Nat.zero_le j
  | 3 =>
    simp only [firstAt, outAt] at h ⊢
    split <;> rename_i he
    · exact Nat.zero_le j
    · rw [if_neg he] at h
      by_cases hj : j % count < (count + 1) / 2
      · rw [if_pos hj] at h
        exact absurd h (by decide)
      · exact (Nat.not_lt.mp hj).trans (Nat.mod_le j count)
  | 4 | 5 =>
    simp only [firstAt, outAt] at h ⊢
    split <;> rename_i he
    · rw [if_pos he] at h
      by_cases hj : j = count
      · exact hj.ge
      · rw [if_neg hj] at h
        exact absurd h (by decide)
    · exact Nat.zero_le j

/-- **The output after `e` ticks was there before**, if and only if its first tick was. -/
theorem exists_outAt_iff (hcount : 1 ≤ count) (d : ℕ) :
    (∃ j ≤ d, outAt mode count j = outAt mode count e) ↔ firstAt mode count e ≤ d :=
  ⟨fun ⟨_, hj, h⟩ ↦ (firstAt_le h).trans hj,
    fun h ↦ ⟨firstAt mode count e, h, outAt_firstAt hcount⟩⟩

/-- In the modes that count once and then end, the output is not high before the count. -/
theorem count_le_of_high (hmode : mode ≠ 1 ∧ mode ≠ 2 ∧ mode ≠ 3) (h : outAt mode count e = 1) :
    count ≤ e := by
  match mode with
  | 0 | _ + 6 =>
    simp only [outAt] at h
    by_contra hlt
    rw [if_neg hlt] at h
    exact absurd h (by decide)
  | 1 => exact absurd rfl hmode.1
  | 2 => exact absurd rfl hmode.2.1
  | 3 => exact absurd rfl hmode.2.2
  | 4 | 5 =>
    simp only [outAt] at h
    by_contra hlt
    rw [if_neg (by omega)] at h
    exact absurd h (by decide)

end

/-! ## The clock, the time server and the guest -/

/-- The deadline an effect leaves the time server with, if it is for the time server. -/
def Effect.deadline : Effect → Option (Option (BitVec 64))
  | .setIrqLevel _ => none
  | .oneshotAbsolute time => some (some time)
  | .stop => some none

/-- The PIT and what is around it. -/
structure Timed where
  /-- The PIT. -/
  pit : PITCommonState
  /-- The time. -/
  now : ℕ
  /-- When `TIMER_PIT` is to complete, as far as the time server knows. -/
  deadline : Option (BitVec 64)
  /-- A completion is recorded. -/
  recorded : Bool
  /-- A completion is collected, by `init_timer_completed`, and not handled yet. -/
  collected : Bool

/-- What can happen. -/
inductive Event
  /-- Time passes. -/
  | tick (now : ℕ)
  /-- The guest accesses a port, until `now`. -/
  | access (a : Label) (now : ℕ)
  /-- The deadline has passed, and the time server records a completion. -/
  | expire
  /-- The completion is collected. -/
  | collect
  /-- `pit_timer_interrupt` -/
  | handle

/-- The readings of the clock in an access are from `lo` to `hi`; a completion is not an access. -/
def Access.Within (lo hi : ℕ) : Access → Prop
  | .read now | .write _ now | .command _ now => lo ≤ now.toNat ∧ now.toNat ≤ hi
  | .readBack _ now now' =>
    (lo ≤ now.toNat ∧ now.toNat ≤ hi) ∧ lo ≤ now'.toNat ∧ now'.toNat ≤ hi
  | .timer => False

instance (lo hi : ℕ) : DecidablePred (Access.Within lo hi)
  | .read _ | .write _ _ | .command _ _ => inferInstanceAs (Decidable (_ ∧ _))
  | .readBack _ _ _ => inferInstanceAs (Decidable ((_ ∧ _) ∧ _ ∧ _))
  | .timer => inferInstanceAs (Decidable False)

namespace Timed

/-- The PIT has gone on to `pit`, and the time server has obeyed it. -/
def becomes (y : Timed) (pit : PITCommonState) : Timed :=
  { y with
    pit := pit
    deadline := latest Effect.deadline y.deadline (news y.pit.log pit.log) }

/-- When something can happen.  Times are what an `int64_t` can hold. -/
def Enabled (y : Timed) : Event → Prop
  | .tick now => y.now ≤ now ∧ now < 2 ^ 63
  | .access a now => y.collected = false ∧ (y.now ≤ now ∧ now < 2 ^ 63) ∧
    ∀ i, ∀ b ∈ a.on i, b.Within y.now now
  | .expire => ∃ d ∈ y.deadline, d.toNat ≤ y.now
  | .collect => y.collected = false ∧ y.recorded = true
  | .handle => y.collected = true

instance (y : Timed) : (e : Event) → Decidable (y.Enabled e)
  | .tick _ => inferInstanceAs (Decidable (_ ∧ _))
  | .access a now =>
    inferInstanceAs (Decidable (y.collected = false ∧ (y.now ≤ now ∧ now < 2 ^ 63) ∧
    ∀ i, ∀ b ∈ a.on i, b.Within y.now now))
  -- not by a search among all times
  | .expire => decidable_of_iff (y.deadline.any fun d ↦ d.toNat ≤ y.now) <| by
    simp [Enabled, Option.any_eq_true]
  | .collect => inferInstanceAs (Decidable (_ ∧ _))
  | .handle => inferInstanceAs (Decidable (_ = _))

/-- One event. -/
def next (y : Timed) : Event → Timed
  | .tick now => { y with now := now }
  | .access a now => { y.becomes (y.pit.next a) with now := now }
  | .expire => { y with deadline := none, recorded := true }
  | .collect => { y with recorded := false, collected := true }
  | .handle => { y.becomes (pitTimerInterrupt y.pit) with collected := false }

/-- The step relation. -/
abbrev Step : Timed → Event → Timed → Prop := Does Enabled next

/-- The PIT has been initialised, and it is `start`. -/
def init (now : BitVec 64) (clock : Fin 3 → BitVec 64) (start : ℕ) : Timed where
  pit := pitPreInit now clock
  now := start
  deadline := latest Effect.deadline none (pitPreInit now clock).log
  recorded := false
  collected := false

end Timed

/-! ## Calls of `pit_get_out` -/

/-- The calls of `pit_get_out` in `pit_irq_timer_update`: the channel and the time. -/
def updateCalls (s : PITChannelState) (time : BitVec 64) : List (PITChannelState × BitVec 64) :=
  if !s.irqTimer || s.irqDisabled then [] else [(s, time)]

/-- The calls in `pit_load_count`. -/
def loadCalls (s : PITChannelState) (val : ℕ) (now : BitVec 64) :
    List (PITChannelState × BitVec 64) :=
  updateCalls { s with countLoadTime := now, count := if val = 0 then 0x10000 else val } now

/-- The calls in an access to channel `i`. -/
def PITChannelState.calls (i : Fin 3) (s : PITChannelState) :
    Access → List (PITChannelState × BitVec 64)
  | .read _ | .command _ _ => []
  | .write val now =>
    if s.writeState = rwStateMsb then loadCalls s (val.toNat * 256) now
    else if s.writeState = rwStateWord0 then []
    else if s.writeState = rwStateWord1 then
      loadCalls s (s.writeLatch.toNat + val.toNat * 256) now
    else loadCalls s val.toNat now
  | .readBack val now now' =>
    if val &&& (2 <<< i.val) ≠ 0 then
      let s := if val &&& 0x20 = 0 then pitLatchCount s now else s
      if val &&& 0x10 = 0 ∧ s.statusLatched = false then [(s, now')] else []
    else []
  | .timer => updateCalls s s.nextTransitionTime

/-- The calls in an event of the PIT. -/
def PITCommonState.calls (pit : PITCommonState) (a : Label) : List (PITChannelState × BitVec 64) :=
  (List.finRange 3).flatMap fun i ↦ (a.on i).elim [] ((pit.channels i).calls i)

/-- The calls in an event. -/
def Timed.calls (y : Timed) : Event → List (PITChannelState × BitVec 64)
  | .access a _ => y.pit.calls a
  | .handle => y.pit.calls .timer
  | .tick _ | .expire | .collect => []

/-! ## Being early -/

/-- Since its load a channel has had the output `v` at some time up to `now`. -/
def PITChannelState.HasHad (s : PITChannelState) (now v : ℕ) : Prop :=
  ∃ t : BitVec 64, s.countLoadTime.toInt ≤ t.toInt ∧ t.toInt ≤ now ∧ pitGetOut s t = v

/-- The levels an event sets the line to. -/
def Timed.levels (y : Timed) (e : Event) : List ℕ :=
  (news y.pit.log (y.next e).pit.log).filterMap Effect.level

/-- **Nothing that an event does is early.** -/
structure Timed.Punctual (y : Timed) (e : Event) : Prop where
  /-- A level the line is set to has been the output of the first channel, since its load. -/
  level : ∀ v ∈ y.levels e, ((y.next e).pit.channels 0).HasHad (y.next e).now v
  /-- A count that counts once does not set it high before it has elapsed. -/
  elapsed : ((y.next e).pit.channels 0).mode ≠ 1 ∧ ((y.next e).pit.channels 0).mode ≠ 2 ∧
      ((y.next e).pit.channels 0).mode ≠ 3 → 1 ∈ y.levels e →
    ((y.next e).pit.channels 0).count ≤
      ticks ((y.next e).pit.channels 0) (BitVec.ofNat 64 (y.next e).now)
  /-- No output is worked out for a time before the load of its channel. -/
  calls : ∀ c ∈ y.calls e, c.1.countLoadTime.toInt ≤ c.2.toInt

/-- A completion is handled when it should be: the time the timer was armed for is not before the
load, and the output at that time has been there already. -/
def Timed.OnTime (y : Timed) : Event → Prop
  | .handle =>
    let s := y.pit.channels 0
    s.countLoadTime.toInt ≤ s.nextTransitionTime.toInt ∧
      firstAt s.mode s.count (ticks s s.nextTransitionTime) ≤ ticks s (BitVec.ofNat 64 y.now)
  | _ => True

instance (y : Timed) : (e : Event) → Decidable (y.OnTime e)
  | .handle => inferInstanceAs (Decidable (_ ∧ _))
  | .tick _ | .access _ _ | .expire | .collect => inferInstanceAs (Decidable True)

section

variable {s : PITChannelState} {now : ℕ}

theorem toInt_of_lt {t : BitVec 64} (h : t.toNat < 2 ^ 63) : t.toInt = t.toNat := by
  rw [BitVec.toInt_eq_toNat_cond, if_pos (by omega)]

theorem toNat_ofNat_of_lt {x : ℕ} (h : x < 2 ^ 63) : (BitVec.ofNat 64 x).toNat = x := by
  rw [BitVec.toNat_ofNat, Nat.mod_eq_of_lt (by omega)]

/-- The times since the load are a number of ticks that is not more than now. -/
theorem ticks_of_since (hload : s.countLoadTime.toNat ≤ now) (hnow : now < 2 ^ 63) {t : BitVec 64}
    (hlo : s.countLoadTime.toInt ≤ t.toInt) (hhi : t.toInt ≤ now) :
    ticks s t ≤ ticks s (BitVec.ofNat 64 now) := by
  rw [toInt_of_lt (by omega)] at hlo
  obtain ⟨ht, -⟩ := toInt_eq_toNat ((Int.natCast_nonneg _).trans hlo)
  have hofNat := toNat_ofNat_of_lt hnow
  rw [ticks_of_le (by omega : s.countLoadTime.toNat ≤ t.toNat),
    ticks_of_le (by omega : s.countLoadTime.toNat ≤ (BitVec.ofNat 64 now).toNat)]
  exact slow_mono (by omega)

/-- **The output of any time was there before**, if and only if its first tick was. -/
theorem hasHad_iff (hcount : 1 ≤ s.count) (hload : s.countLoadTime.toNat ≤ now)
    (hnow : now < 2 ^ 63) (time : BitVec 64) : s.HasHad now (pitGetOut s time) ↔
      firstAt s.mode s.count (ticks s time) ≤ ticks s (BitVec.ofNat 64 now) := by
  rw [← exists_outAt_iff hcount]
  constructor
  · rintro ⟨t, hlo, hhi, hout⟩
    exact ⟨ticks s t, ticks_of_since hload hnow hlo hhi, hout⟩
  · rintro ⟨j, hj, hout⟩
    have hofNat := toNat_ofNat_of_lt hnow
    rw [ticks_of_le (by omega : s.countLoadTime.toNat ≤ (BitVec.ofNat 64 now).toNat),
      hofNat] at hj
    obtain ⟨y, hy, hticks⟩ := exists_slow_eq (by decide) hj
    have ht : (BitVec.ofNat 64 (s.countLoadTime.toNat + y)).toNat = s.countLoadTime.toNat + y :=
      toNat_ofNat_of_lt (by omega)
    refine ⟨BitVec.ofNat 64 (s.countLoadTime.toNat + y), ?_, ?_, ?_⟩
    · rw [toInt_of_lt (by omega), toInt_of_lt (by omega), ht]
      omega
    · rw [toInt_of_lt (by omega), ht]
      omega
    · rw [pitGetOut_eq_outAt, ticks_of_le (by omega), ht, Nat.add_sub_cancel_left, hticks]
      exact hout

/-- The output at the load. -/
theorem hasHad_loadedOut (hcount : 1 ≤ s.count) (hload : s.countLoadTime.toNat ≤ now)
    (hnow : now < 2 ^ 63) : s.HasHad now (loadedOut s.mode) := by
  refine ⟨s.countLoadTime, le_rfl, ?_, pitGetOut_loaded hcount⟩
  rw [toInt_of_lt (by omega)]
  exact Int.ofNat_le.mpr hload

/-- What is to be so in the modes that count once. -/
theorem count_le_of_hasHad (hload : s.countLoadTime.toNat ≤ now) (hnow : now < 2 ^ 63)
    (hmode : s.mode ≠ 1 ∧ s.mode ≠ 2 ∧ s.mode ≠ 3) (h : s.HasHad now 1) :
    s.count ≤ ticks s (BitVec.ofNat 64 now) := by
  obtain ⟨t, hlo, hhi, hout⟩ := h
  exact (count_le_of_high hmode hout).trans (ticks_of_since hload hnow hlo hhi)

theorem SameCounting.pitGetOut {s' : PITChannelState} (h : SameCounting s s') (t : BitVec 64) :
    pitGetOut s' t = pitGetOut s t := by
  rw [pitGetOut_eq_outAt, pitGetOut_eq_outAt, ticks, ticks, h.mode, h.count, h.countLoadTime]

theorem SameCounting.hasHad {s' : PITChannelState} (h : SameCounting s s') (v : ℕ) :
    s'.HasHad now v ↔ s.HasHad now v := by
  simp only [PITChannelState.HasHad, h.countLoadTime, h.pitGetOut]

end

/-! ## What holds in every run -/

/-- What every event preserves. -/
structure Timed.Sound (y : Timed) : Prop where
  /-- Only the first channel has an interrupt timer. -/
  wired : Wired y.pit
  /-- All counts can be divided by. -/
  counted : ∀ i, Counted (y.pit.channels i)
  /-- All counts are loaded. -/
  loaded : ∀ i, (y.pit.channels i).countLoadTime.toNat ≤ y.now
  /-- The time is one. -/
  now_lt : y.now < 2 ^ 63

section

variable {i : Fin 3} {s : PITChannelState} {b : Access} {lo hi : ℕ}

/-- An access loads at its own time, or not at all. -/
theorem countLoadTime_access (h : s.countLoadTime.toNat ≤ lo) (hle : lo ≤ hi)
    (hb : b.Within lo hi) : (s.access i b).countLoadTime.toNat ≤ hi := by
  have hsame : ∀ {s'}, SameCounting s s' → s'.countLoadTime.toNat ≤ hi := fun hs ↦ by
    rw [hs.countLoadTime]
    exact h.trans hle
  cases b with
  | read now => exact hsame (sameCounting_readChannel s now)
  | write val now =>
    have hload : ∀ val, (s.load val now).countLoadTime.toNat ≤ hi := fun val ↦ by
      rw [(load_fields s val now).2.1]
      exact hb.2
    change (s.write val now).countLoadTime.toNat ≤ hi
    rw [PITChannelState.write]
    repeat' split
    · exact hload _
    · exact h.trans hle
    · exact hload _
    · exact hload _
  | command val now =>
    change (command s val now).countLoadTime.toNat ≤ hi
    rw [command]
    split
    · exact hsame (sameCounting_pitLatchCount s now)
    · exact h.trans hle
  | readBack val now now' => exact hsame (sameCounting_readBack s i val now now')
  | timer => exact hb.elim

theorem eq_of_mem_updateCalls {time : BitVec 64} {c : PITChannelState × BitVec 64}
    (hc : c ∈ updateCalls s time) : c = (s, time) := by
  rw [updateCalls] at hc
  split at hc
  · exact absurd hc List.not_mem_nil
  · exact List.mem_singleton.mp hc

/-- **No access works out an output for a time before the load.** -/
theorem calls_access (h : s.countLoadTime.toNat ≤ lo) (hi_lt : hi < 2 ^ 63) (hb : b.Within lo hi) :
    ∀ c ∈ s.calls i b, c.1.countLoadTime.toInt ≤ c.2.toInt := by
  have hload : ∀ val now, ∀ c ∈ loadCalls s val now, c.1.countLoadTime.toInt ≤ c.2.toInt := by
    intro val now c hc
    rw [eq_of_mem_updateCalls hc]
  intro c hc
  cases b with
  | read now => cases hc
  | write val now =>
    rw [PITChannelState.calls] at hc
    split at hc
    · exact hload _ now c hc
    · split at hc
      · cases hc
      · split at hc
        · exact hload _ now c hc
        · exact hload _ now c hc
  | command val now => cases hc
  | readBack val now now' =>
    have hlatch : (if val &&& 0x20 = 0 then pitLatchCount s now else s).countLoadTime =
        s.countLoadTime := by
      split
      · exact (sameCounting_pitLatchCount s now).countLoadTime
      · rfl
    rw [PITChannelState.calls] at hc
    generalize (if val &&& 0x20 = 0 then pitLatchCount s now else s) = s' at hlatch hc
    obtain ⟨-, hlo, hhi⟩ := hb
    have hlater : s.countLoadTime.toInt ≤ now'.toInt := by
      rw [toInt_of_lt (by omega), toInt_of_lt (by omega)]
      omega
    split at hc
    · dsimp only at hc
      split at hc
      · rw [List.mem_singleton.mp hc, hlatch]
        exact hlater
      · exact absurd hc List.not_mem_nil
    · exact absurd hc List.not_mem_nil
  | timer => exact hb.elim

end

section

variable {y : Timed}

/-- **One event.** -/
theorem Timed.Sound.next (h : y.Sound) {e : Event} (he : y.Enabled e) : (y.next e).Sound := by
  cases e with
  | tick now =>
    exact ⟨h.wired, h.counted, fun i ↦ (h.loaded i).trans he.1, he.2⟩
  | access a now =>
    obtain ⟨-, ⟨hle, hlt⟩, hwithin⟩ := he
    refine ⟨h.wired.next a, counted_next h.counted a, fun i ↦ ?_, hlt⟩
    change ((y.pit.next a).channels i).countLoadTime.toNat ≤ now
    rw [channels_next]
    cases hon : a.on i with
    | none => exact (h.loaded i).trans hle
    | some b => exact countLoadTime_access (h.loaded i) hle (hwithin i b hon)
  | expire => exact ⟨h.wired, h.counted, h.loaded, h.now_lt⟩
  | collect => exact ⟨h.wired, h.counted, h.loaded, h.now_lt⟩
  | handle =>
    refine ⟨h.wired.next .timer, counted_next h.counted .timer, fun i ↦ ?_, h.now_lt⟩
    change ((y.pit.next .timer).channels i).countLoadTime.toNat ≤ y.now
    rw [channels_next]
    cases hon : Label.timer.on i with
    | none => exact h.loaded i
    | some b =>
      have hb : b = .timer := by
        rw [Label.on] at hon
        split at hon
        · exact (Option.some.inj hon).symm
        · cases hon
      rw [hb]
      exact (sameCounting_rearm (y.pit.channels i) _).countLoadTime ▸ h.loaded i

/-- What an event sets the line to is what the PIT does. -/
theorem mem_levels (h : Wired y.pit) (v : ℕ) :
    (∀ a now, v ∈ y.levels (.access a now) ↔ sets y.pit a = some v) ∧
      (v ∈ y.levels .handle ↔ sets y.pit .timer = some v) :=
  ⟨fun a _ ↦ (sets_next h a).mem_news v, (sets_next h .timer).mem_news v⟩

/-- **Accesses are punctual**: what they set the line to is the output at the load. -/
theorem Timed.Sound.punctual_access (h : y.Sound) {a : Label} {now : ℕ}
    (he : y.Enabled (.access a now)) : y.Punctual (.access a now) := by
  have hnext := h.next he
  obtain ⟨-, ⟨hle, hlt⟩, hwithin⟩ := he
  have hlevel : ∀ v ∈ y.levels (.access a now),
      ((y.next (.access a now)).pit.channels 0).HasHad now v := by
    intro v hv
    rw [(mem_levels h.wired v).1] at hv
    cases a with
    | portIn addr now => exact absurd hv nofun
    | portOut addr val clock clock' =>
      rw [sets] at hv
      split at hv
      · rename_i hlast
        have hon : (Label.portOut addr val clock clock').on 0 = some (.write val (clock 0)) :=
          if_pos hlast.1
        have hchannel : ((y.next (.access (.portOut addr val clock clock') now)).pit.channels 0) =
            (y.pit.channels 0).write val (clock 0) := by
          change (y.pit.next _).channels 0 = _
          rw [channels_next, hon]
          rfl
        have hout := hasHad_loadedOut (hnext.counted 0).1 (hnext.loaded 0) hnext.now_lt
        rw [hchannel, mode_write] at hout
        rw [hchannel, ← Option.some.inj hv]
        exact hout
      · cases hv
    | timer => exact (hwithin 0 .timer rfl).elim
  refine ⟨hlevel, fun hmode hhigh ↦ ?_, fun c hc ↦ ?_⟩
  · exact count_le_of_hasHad (hnext.loaded 0) hnext.now_lt hmode (hlevel 1 hhigh)
  · obtain ⟨i, -, hi⟩ := List.mem_flatMap.mp hc
    cases hon : a.on i with
    | none =>
      rw [hon] at hi
      cases hi
    | some b =>
      rw [hon] at hi
      exact calls_access (h.loaded i) hlt (hwithin i b hon) c hi

/-- **A completion is punctual exactly if it is handled when it should be.** -/
theorem Timed.Sound.punctual_handle_iff (h : y.Sound) (he : y.Enabled .handle) :
    y.Punctual .handle ↔ y.OnTime .handle := by
  have hnext := h.next he
  have hsame : SameCounting (y.pit.channels 0) ((y.next .handle).pit.channels 0) := by
    change SameCounting (y.pit.channels 0) ((y.pit.next .timer).channels 0)
    rw [channels_next]
    exact sameCounting_rearm _ _
  have hcalls : y.calls .handle =
      [(y.pit.channels 0, (y.pit.channels 0).nextTransitionTime)] := by
    have hwired := h.wired.irqTimer
    change (y.pit.channels 0).calls 0 .timer ++ _ = _
    rw [PITChannelState.calls, updateCalls, hwired.1, hwired.2]
    rfl
  have hfirst := hasHad_iff (h.counted 0).1 (h.loaded 0) h.now_lt
    (y.pit.channels 0).nextTransitionTime
  constructor
  · rintro ⟨hlevel, -, hcall⟩
    refine ⟨hcall _ (by rw [hcalls]; exact List.mem_singleton_self _), hfirst.mp ?_⟩
    exact (hsame.hasHad _).mp (hlevel _ ((mem_levels h.wired _).2.mpr rfl))
  · rintro ⟨hafter, hthere⟩
    have hlevel : ∀ v ∈ y.levels .handle,
        ((y.next .handle).pit.channels 0).HasHad y.now v := by
      intro v hv
      rw [(mem_levels h.wired v).2] at hv
      rw [← Option.some.inj hv]
      exact (hsame.hasHad _).mpr (hfirst.mpr hthere)
    refine ⟨hlevel, fun hmode hhigh ↦ ?_, fun c hc ↦ ?_⟩
    · exact count_le_of_hasHad (hnext.loaded 0) hnext.now_lt hmode (hlevel 1 hhigh)
    · rw [hcalls] at hc
      rw [List.mem_singleton.mp hc]
      exact hafter

/-- **One event is punctual**, if and only if it handles no completion or handles it when it should
be. -/
theorem Timed.Sound.punctual_iff (h : y.Sound) {e : Event} (he : y.Enabled e) :
    y.Punctual e ↔ y.OnTime e := by
  have hquiet : y.levels e = [] → y.calls e = [] → y.Punctual e := by
    intro hlevels hcalls
    refine ⟨fun v hv ↦ ?_, fun _ hv ↦ ?_, fun c hc ↦ ?_⟩
    · exact absurd (hlevels ▸ hv) List.not_mem_nil
    · exact absurd (hlevels ▸ hv) List.not_mem_nil
    · exact absurd (hcalls ▸ hc) List.not_mem_nil
  have hsame : (news y.pit.log y.pit.log).filterMap Effect.level = [] := by
    rw [news, List.drop_length, List.filterMap_nil]
  cases e with
  | tick now => exact iff_of_true (hquiet hsame rfl) trivial
  | access a now => exact iff_of_true (h.punctual_access he) trivial
  | expire => exact iff_of_true (hquiet hsame rfl) trivial
  | collect => exact iff_of_true (hquiet hsame rfl) trivial
  | handle => exact h.punctual_handle_iff he

/-- A completion for a time that has come, after the load, is handled when it should be. -/
theorem Timed.Sound.onTime (h : y.Sound)
    (hlo : (y.pit.channels 0).countLoadTime.toInt ≤ (y.pit.channels 0).nextTransitionTime.toInt)
    (hhi : (y.pit.channels 0).nextTransitionTime.toInt ≤ y.now) : y.OnTime .handle :=
  ⟨hlo, (firstAt_le rfl).trans (ticks_of_since (h.loaded 0) h.now_lt hlo hhi)⟩

end

theorem countLoadTime_pitPreInit (now : BitVec 64) (clock : Fin 3 → BitVec 64) (i : Fin 3) :
    ((pitPreInit now clock).channels i).countLoadTime = clock i := by
  have hcommon : ∀ pit : PITCommonState,
      ((pitResetCommon pit clock).channels i).countLoadTime = clock i := by
    intro pit
    rw [pitResetCommon]
    dsimp only
    split <;> rfl
  rw [pitPreInit, pitReset]
  dsimp only
  split <;> exact hcommon _

/-- The start. -/
theorem sound_init {now : BitVec 64} {clock : Fin 3 → BitVec 64} {start : ℕ}
    (hclock : ∀ i, (clock i).toNat ≤ start) (hstart : start < 2 ^ 63) :
    (Timed.init now clock start).Sound where
  wired := wired_pitPreInit now clock
  counted := counted_pitPreInit now clock
  loaded i := by
    change ((pitPreInit now clock).channels i).countLoadTime.toNat ≤ start
    rw [countLoadTime_pitPreInit]
    exact hclock i
  now_lt := hstart

/-! ## Runs -/

/-- **When the PIT is never early.**  In a run from the initialisation on nothing is early if and
only if every completion is handled when it should be. -/
theorem run_punctual_iff {now : BitVec 64} {clock : Fin 3 → BitVec 64} {start : ℕ}
    (hclock : ∀ i, (clock i).toNat ≤ start) (hstart : start < 2 ^ 63) {es : List Event}
    {y : Timed} :
    Run (Guarded Timed.Punctual Timed.Step) (Timed.init now clock start) es y ↔
      Run (Guarded Timed.OnTime Timed.Step) (Timed.init now clock start) es y := by
  refine Run.guarded_congr fun es y e z hrun hstep ↦ ?_
  have hsound : y.Sound := hrun.invariant (sound_init hclock hstart) fun y e z hy hs ↦
    hs.2 ▸ hy.next hs.1
  exact hsound.punctual_iff hstep.1

/-- A write to a port at time `t`. -/
def writePort (addr : ℕ) (val : BitVec 8) (t : ℕ) : Event :=
  .access (.portOut addr val (fun _ ↦ BitVec.ofNat 64 t) fun _ ↦ BitVec.ofNat 64 t) t

/-- The PIT is initialised at time 0, and told to count 16 in mode 2; this completes. -/
def countedDown : List Event :=
  [writePort 3 0x34 0, writePort 0 0x10 0, writePort 0 0 0, .tick 20000, .expire]

/-- Handled at once, the completion is not early. -/
theorem run_punctual_iff_at_once :
    let start := Timed.init 0 (fun _ ↦ 0) 0
    let es := countedDown ++ [.collect, .handle]
    Run (Guarded Timed.Punctual Timed.Step) start es (es.foldl Timed.next start) := by
  intro start es
  refine (run_punctual_iff (fun _ ↦ le_rfl) (by decide)).mpr ?_
  have hall : AllEnabled (fun y e ↦ y.OnTime e ∧ y.Enabled e) Timed.next start es := by
    decide +kernel
  exact (run_foldl hall).mono fun y e z hs ↦ ⟨hs.1.1, hs.1.2, hs.2⟩

/-- **The PIT can be early**: the completion of a count of 16 is recorded, and before it is
collected the guest loads a count of 65535.  The handler then sets the line to the output at the end
of that count, 55 ms ahead. -/
theorem not_forall_punctual :
    ¬∀ (now : BitVec 64) (clock : Fin 3 → BitVec 64) (start : ℕ),
      (∀ i, (clock i).toNat ≤ start) → start < 2 ^ 63 → ∀ (es : List Event) (y : Timed),
      Run Timed.Step (Timed.init now clock start) es y → ∀ e, y.Enabled e → y.Punctual e := by
  intro h
  let start := Timed.init 0 (fun _ ↦ 0) 0
  let es := countedDown ++ [writePort 0 0xff 20000, writePort 0 0xff 20000, .collect]
  have hclock : ∀ i : Fin 3, ((fun _ ↦ 0 : Fin 3 → BitVec 64) i).toNat ≤ 0 := fun _ ↦ le_rfl
  have hrun : Run Timed.Step start es (es.foldl Timed.next start) := run_foldl (by decide +kernel)
  have hsound : (es.foldl Timed.next start).Sound :=
    hrun.invariant (sound_init hclock (by decide)) fun y e z hy hs ↦ hs.2 ▸ hy.next hs.1
  have henabled : (es.foldl Timed.next start).Enabled .handle := by
    decide +kernel
  have hpunctual := h 0 (fun _ ↦ 0) 0 hclock (by decide) es _ hrun .handle henabled
  have hontime := (hsound.punctual_iff henabled).mp hpunctual
  exact absurd hontime (by decide +kernel)

end Pit
end CamkesVm
