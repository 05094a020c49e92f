import Mathlib.Data.Bool.Basic
import Mathlib.Logic.Function.Basic

/-!
# A service of one-shot timers

A client arms its timers with a server.  When the deadline of an armed timer passes, the server
disarms it and records the completion; later the client collects completions and handles them.
Between the two the client may go on: it may arm the timer again, which replaces the deadline, or
stop it, and neither takes back a completion that is already recorded.

Deadlines do not appear here: an armed timer may expire at any moment, so whatever is proved of
the runs of such a service holds for every choice of deadlines and every delay.

A client's effects on the world are of some type `ε`, of which some are commands to the server.

## How it is used

A machine has its device and a `Timers`. When the device has made a call, the commands among the
effects of the call are obeyed (`Timers.obeyAll`); a deadline passes by `Timers.expire`; and
completions are collected with `Timers.collect` when they are handled. `Timers.Outstanding` is the
liveness invariant of a timer: it is armed or its completion is recorded, so somebody will see to
it; it survives all of these unless the timer is stopped or the completion collected.

Commands and completions do not interfere: collecting commutes with obeying
(`Timers.collect_obeyAll`), which is what allows a handler that deals with several completions to be
taken apart.
-/

set_option autoImplicit false

namespace TimerService

universe u v

variable {ι : Type u} {ε : Type v}

/-- A command to the server. -/
inductive Command (ι : Type u)
  /-- Arm a timer, in place of any earlier deadline. -/
  | arm (i : ι)
  /-- Stop a timer. -/
  | stop (i : ι)

/-- What the server knows of the timers. -/
structure Timers (ι : Type u) where
  /-- The timer waits for its deadline. -/
  armed : ι → Bool
  /-- The timer completed, and the client has not collected that. -/
  recorded : ι → Bool

namespace Timers

/-- No timer was ever armed. -/
def idle : Timers ι := { armed := fun _ ↦ false, recorded := fun _ ↦ false }

/-- The timer will complete, or has. -/
def Outstanding (t : Timers ι) (i : ι) : Prop := t.armed i = true ∨ t.recorded i = true

/-- The client collects completions. -/
def collect (t : Timers ι) (done : ι → Bool) : Timers ι :=
  { t with recorded := fun i ↦ t.recorded i && !done i }

/-- Collecting nothing. -/
theorem collect_of_none {t : Timers ι} {done : ι → Bool} (h : ∀ i, done i = false) :
    t.collect done = t := by
  simp only [collect, h, Bool.not_false, Bool.and_true]

/-- Collecting in two steps. -/
theorem collect_collect (t : Timers ι) (done done' : ι → Bool) :
    (t.collect done).collect done' = t.collect fun i ↦ done i || done' i := by
  simp only [collect, Bool.not_or, Bool.and_assoc]

/-- **A completion that somebody will see** stays so until it is collected. -/
theorem Outstanding.collect {t : Timers ι} {i : ι} {done : ι → Bool} (h : t.Outstanding i)
    (hi : done i = false) : (t.collect done).Outstanding i := by
  rcases h with harmed | hrecorded
  · exact .inl harmed
  · right
    change (t.recorded i && !done i) = true
    rw [hrecorded, hi]
    rfl

variable [DecidableEq ι]

/-- A command is obeyed. -/
def obey (t : Timers ι) : Command ι → Timers ι
  | .arm i => { t with armed := Function.update t.armed i true }
  | .stop i => { t with armed := Function.update t.armed i false }

/-- The commands among some effects are obeyed, in order. -/
def obeyAll (command : ε → Option (Command ι)) (t : Timers ι) : List ε → Timers ι
  | [] => t
  | e :: es => obeyAll command ((command e).elim t t.obey) es

/-- The deadline of a timer passes. -/
def expire (t : Timers ι) (i : ι) : Timers ι where
  armed := Function.update t.armed i false
  recorded := Function.update t.recorded i true

/-- When a deadline passes, the completion is recorded. -/
theorem Outstanding.expire {t : Timers ι} {i : ι} (h : t.Outstanding i) (j : ι) :
    (t.expire j).Outstanding i := by
  by_cases hij : i = j
  · subst hij
    exact .inr (Function.update_self ..)
  · rcases h with harmed | hrecorded
    · exact .inl ((Function.update_of_ne hij _ _).trans harmed)
    · exact .inr ((Function.update_of_ne hij _ _).trans hrecorded)

variable {command : ε → Option (Command ι)}

/-- Commands do not touch what is recorded. -/
@[simp] theorem recorded_obeyAll (t : Timers ι) (es : List ε) :
    (t.obeyAll command es).recorded = t.recorded := by
  induction es generalizing t with
  | nil => rfl
  | cons e es ih =>
    rw [obeyAll, ih]
    cases hc : command e with
    | none => rfl
    | some c => cases c <;> rfl

/-- Nor does it matter to them what is recorded. -/
theorem collect_obeyAll (t : Timers ι) (es : List ε) (done : ι → Bool) :
    (t.obeyAll command es).collect done = (t.collect done).obeyAll command es := by
  induction es generalizing t with
  | nil => rfl
  | cons e es ih =>
    rw [obeyAll, ih, obeyAll]
    cases hc : command e with
    | none => rfl
    | some c => cases c <;> rfl

theorem obeyAll_append (t : Timers ι) (es es' : List ε) :
    t.obeyAll command (es ++ es') = (t.obeyAll command es).obeyAll command es' := by
  induction es generalizing t with
  | nil => rfl
  | cons e es ih => exact ih _

/-- **An armed timer stays armed** unless it is stopped. -/
theorem armed_obeyAll {t : Timers ι} {i : ι} {es : List ε} (h : t.armed i = true)
    (hstop : ∀ e ∈ es, command e ≠ some (.stop i)) : (t.obeyAll command es).armed i = true := by
  induction es generalizing t with
  | nil => exact h
  | cons e es ih =>
    refine ih ?_ fun e' he' ↦ hstop e' (List.mem_cons_of_mem _ he')
    have he := hstop e List.mem_cons_self
    cases hc : command e with
    | none => exact h
    | some c =>
      cases c with
      | arm j =>
        change Function.update t.armed j true i = true
        rw [Function.update_apply]
        split
        · rfl
        · exact h
      | stop j =>
        have hne : i ≠ j := fun heq ↦ he (heq ▸ hc)
        change Function.update t.armed j false i = true
        rw [Function.update_of_ne hne]
        exact h

/-- **A timer that is not armed stays so** unless it is armed. -/
theorem not_armed_obeyAll {t : Timers ι} {i : ι} {es : List ε} (h : t.armed i = false)
    (harm : ∀ e ∈ es, command e ≠ some (.arm i)) : (t.obeyAll command es).armed i = false := by
  induction es generalizing t with
  | nil => exact h
  | cons e es ih =>
    refine ih ?_ fun e' he' ↦ harm e' (List.mem_cons_of_mem _ he')
    have he := harm e List.mem_cons_self
    cases hc : command e with
    | none => exact h
    | some c =>
      cases c with
      | arm j =>
        have hne : i ≠ j := fun heq ↦ he (heq ▸ hc)
        change Function.update t.armed j true i = false
        rw [Function.update_of_ne hne]
        exact h
      | stop j =>
        change Function.update t.armed j false i = false
        rw [Function.update_apply]
        split
        · rfl
        · exact h

/-- **What somebody will see** stays so unless the timer is stopped. -/
theorem Outstanding.obeyAll {t : Timers ι} {i : ι} {es : List ε} (h : t.Outstanding i)
    (hstop : ∀ e ∈ es, command e ≠ some (.stop i)) : (t.obeyAll command es).Outstanding i := by
  rcases h with harmed | hrecorded
  · exact .inl (armed_obeyAll harmed hstop)
  · right
    rw [recorded_obeyAll]
    exact hrecorded

/-- **Commands for other timers** do not touch a timer. -/
theorem armed_obeyAll_of_other {t : Timers ι} {i : ι} {es : List ε}
    (harm : ∀ e ∈ es, command e ≠ some (.arm i)) (hstop : ∀ e ∈ es, command e ≠ some (.stop i)) :
    (t.obeyAll command es).armed i = t.armed i := by
  cases h : t.armed i
  · exact not_armed_obeyAll h harm
  · exact armed_obeyAll h hstop

/-- The last command decides. -/
theorem armed_obeyAll_arm {i : ι} {e : ε} (t : Timers ι) (es : List ε)
    (h : command e = some (.arm i)) : (t.obeyAll command (es ++ [e])).armed i = true := by
  rw [obeyAll_append, obeyAll, obeyAll, h]
  simp [obey]

end Timers

end TimerService
