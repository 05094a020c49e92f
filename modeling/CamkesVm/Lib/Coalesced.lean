import CamkesVm.Lib.Transition
import Mathlib.Data.BitVec
import Mathlib.Data.List.Nodup

/-!
# Events that are merged until they are taken

Several sources of events share one notification word.  A source signals by setting the bits of its
badge in the word; a dispatcher takes the word, which is then zero, and runs the handlers of the
sources whose badges it finds.  Signals of one source that nobody took are one event.

If the sources are told apart, that is if the dispatcher runs exactly the handlers of the sources
that signalled (`Exact`), no event is lost and none is made up (`run_complete_exclusive`).  Badges
that have one bit in common and one of their own each are told apart by subset tests
(`Marked.exact_filter`), and badges that are one bit each by testing their bits (`exact_bits`).

## What is here

* `Moment` and `Complete`, `Exclusive` — histories of signals, takes and runs of handlers, and the
  two laws a history should obey. They speak of the history alone, and not of how the word was
  tested.
* `merged`, `waiting` — what is in the word after some signals, and which signals those are.
* `State`, `Event`, `Step` — the system: a source may signal, and the word may be taken, at any time
  and in any order.
* `run_word` — along any run the word is what was signalled since it was last taken.
* `Exact` — what is asked of a dispatcher, on one word at a time; `run_complete_exclusive` is what
  follows for whole runs.

Handlers run at once and one after the other: what a source signals while a word is being dispatched
counts as signalled afterwards, when the word is zero again.
-/

set_option autoImplicit false

namespace Coalesced

open Transition

universe u v

variable {S : Type u} {ι : Type v} {w : ℕ}

/-! ## Histories -/

/-- A moment in the life of the sources and their handlers. -/
inductive Moment (S : Type u)
  /-- A source signalled. -/
  | signalled (s : S)
  /-- The word was taken. -/
  | taken
  /-- The handler of a source ran. -/
  | ran (s : S)

/-- **No event is lost**: once the word is taken after a signal, the handler has run after it. -/
def Complete (h : List (Moment S)) : Prop :=
  ∀ s before after, h = before ++ .signalled s :: after → .taken ∈ after → .ran s ∈ after

/-- **No event is made up**: a handler runs only if its source has signalled since it ran last. -/
def Exclusive (h : List (Moment S)) : Prop :=
  ∀ s before after, h = before ++ .ran s :: after →
    ∃ earlier since, before = earlier ++ .signalled s :: since ∧ .ran s ∉ since

/-- Every signal was followed by a run of its handler. -/
def Served (h : List (Moment S)) : Prop :=
  ∀ s before after, h = before ++ .signalled s :: after → .ran s ∈ after

/-- An element of a concatenation is in one of the parts. -/
theorem append_eq_split {α : Type*} {l r before after : List α} {a : α}
    (h : l ++ r = before ++ a :: after) :
    (∃ m, l = before ++ a :: m ∧ after = m ++ r) ∨
      (∃ m, before = l ++ m ∧ r = m ++ a :: after) := by
  rcases List.append_eq_append_iff.mp h with ⟨m, hbefore, hr⟩ | ⟨m, hl, hafter⟩
  · exact .inr ⟨m, hbefore, hr⟩
  · cases m with
    | nil => exact .inr ⟨[], by simpa using hl.symm, by simpa using hafter.symm⟩
    | cons b m =>
      obtain ⟨rfl, rfl⟩ := List.cons.inj hafter
      exact .inl ⟨m, hl, rfl⟩

theorem Served.complete {h : List (Moment S)} (hserved : Served h) (ss : List S) :
    Complete (h ++ ss.map .signalled) := by
  intro s before after heq htaken
  rcases append_eq_split heq with ⟨m, hm, rfl⟩ | ⟨m, -, hm⟩
  · exact List.mem_append_left _ (hserved s before m hm)
  · -- nothing was taken after the last signals
    have hmem : Moment.taken ∈ ss.map Moment.signalled := by
      rw [hm]
      exact List.mem_append_right _ (List.mem_cons_of_mem _ htaken)
    obtain ⟨s', -, hno⟩ := List.mem_map.mp hmem
    exact nomatch hno

/-- **All that signalled is handled.** -/
theorem Served.handled {h : List (Moment S)} (hserved : Served h) {ss rs : List S}
    (hall : ∀ s ∈ ss, s ∈ rs) :
    Served (h ++ ss.map .signalled ++ .taken :: rs.map .ran) := by
  intro s before after heq
  rcases append_eq_split heq with ⟨m, hm, rfl⟩ | ⟨m, -, hm⟩
  · rcases append_eq_split hm with ⟨m', hm', rfl⟩ | ⟨m', -, hm'⟩
    · exact List.mem_append_left _ (List.mem_append_left _ (hserved s before m' hm'))
    · have hmem : Moment.signalled s ∈ ss.map Moment.signalled := by
        rw [hm']
        exact List.mem_append_right _ List.mem_cons_self
      obtain ⟨s', hs', hsame⟩ := List.mem_map.mp hmem
      obtain rfl := Moment.signalled.inj hsame
      exact List.mem_append_right _ (List.mem_cons_of_mem _ (List.mem_map_of_mem (hall s' hs')))
  · have hmem : Moment.signalled s ∈ Moment.taken :: rs.map Moment.ran := by
      rw [hm]
      exact List.mem_append_right _ List.mem_cons_self
    obtain hno | hmem := List.mem_cons.mp hmem
    · exact nomatch hno
    · obtain ⟨s', -, hno⟩ := List.mem_map.mp hmem
      exact nomatch hno

theorem Exclusive.signalled {h : List (Moment S)} (hexcl : Exclusive h) (ss : List S) :
    Exclusive (h ++ ss.map .signalled) := by
  intro s before after heq
  rcases append_eq_split heq with ⟨m, hm, -⟩ | ⟨m, -, hm⟩
  · exact hexcl s before m hm
  · have hmem : Moment.ran s ∈ ss.map Moment.signalled := by
      rw [hm]
      exact List.mem_append_right _ List.mem_cons_self
    obtain ⟨s', -, hno⟩ := List.mem_map.mp hmem
    exact nomatch hno

/-- **Only what signalled is handled**, and only once. -/
theorem Exclusive.handled {h : List (Moment S)} (hexcl : Exclusive h) {ss rs : List S}
    (hnodup : rs.Nodup) (hall : ∀ s ∈ rs, s ∈ ss) :
    Exclusive (h ++ ss.map .signalled ++ .taken :: rs.map .ran) := by
  intro s before after heq
  rcases append_eq_split heq with ⟨m, hm, -⟩ | ⟨m, rfl, hm⟩
  · exact hexcl.signalled ss s before m hm
  · cases m with
    | nil => exact nomatch (List.cons.inj hm).1
    | cons b m =>
      obtain ⟨rfl, hrs⟩ := List.cons.inj hm
      obtain ⟨r₁, r₂, rfl, rfl, hr⟩ := List.map_eq_append_iff.mp hrs
      obtain ⟨s', r₃, rfl, hsame, -⟩ := List.map_eq_cons_iff.mp hr
      obtain rfl := Moment.ran.inj hsame
      obtain ⟨s₁, s₂, rfl⟩ := List.append_of_mem (hall s' (by simp))
      refine ⟨h ++ s₁.map .signalled, s₂.map .signalled ++ .taken :: r₁.map .ran, by simp, ?_⟩
      have hnew : s' ∉ r₁ := fun hmem ↦
        (List.nodup_append.mp hnodup).2.2 s' hmem s' List.mem_cons_self rfl
      simpa using hnew

/-! ## The word -/

/-- What is in the word after some signals. -/
def merged (badge : S → BitVec w) (ss : List S) : BitVec w :=
  ss.foldl (fun word s ↦ word ||| badge s) 0

@[simp] theorem merged_nil (badge : S → BitVec w) : merged badge [] = 0 := rfl

theorem merged_concat (badge : S → BitVec w) (ss : List S) (s : S) :
    merged badge (ss ++ [s]) = merged badge ss ||| badge s := by
  rw [merged, List.foldl_append]
  rfl

/-- A bit is in the word if it is in the badge of a source that signalled. -/
theorem getLsbD_merged (badge : S → BitVec w) (ss : List S) (k : ℕ) :
    (merged badge ss).getLsbD k = true ↔ ∃ s ∈ ss, (badge s).getLsbD k = true := by
  induction ss using List.reverseRecOn with
  | nil => simp
  | append_singleton ss s ih =>
    rw [merged_concat, BitVec.getLsbD_or, Bool.or_eq_true, ih]
    constructor
    · rintro (⟨s', hs', hbit⟩ | hbit)
      · exact ⟨s', List.mem_append_left _ hs', hbit⟩
      · exact ⟨s, by simp, hbit⟩
    · rintro ⟨s', hs', hbit⟩
      rcases List.mem_append.mp hs' with hold | hnew
      · exact .inl ⟨s', hold, hbit⟩
      · obtain rfl := List.mem_singleton.mp hnew
        exact .inr hbit

/-- The signals since the word was taken last. -/
def waiting (h : List (Moment S)) : List S :=
  h.foldl (fun ss m ↦ match m with | .signalled s => ss ++ [s] | .taken => [] | .ran _ => ss) []

@[simp] theorem waiting_nil : waiting ([] : List (Moment S)) = [] := rfl

theorem waiting_signalled (h : List (Moment S)) (s : S) :
    waiting (h ++ [.signalled s]) = waiting h ++ [s] := by
  rw [waiting, List.foldl_append]
  rfl

theorem waiting_handled (h : List (Moment S)) (rs : List S) :
    waiting (h ++ .taken :: rs.map .ran) = [] := by
  have hran : ∀ rs : List S, (rs.map Moment.ran).foldl (fun ss m ↦ match m with
      | .signalled s => ss ++ [s] | .taken => [] | .ran _ => ss) ([] : List S) = [] := by
    intro rs
    induction rs with
    | nil => rfl
    | cons s rs ih => exact ih
  rw [waiting, List.foldl_append]
  exact hran rs

/-- A subset test. -/
def Finds (word badge : BitVec w) : Prop := word &&& badge = badge

instance (word badge : BitVec w) : Decidable (Finds word badge) :=
  inferInstanceAs (Decidable (_ = _))

theorem finds_iff (word badge : BitVec w) :
    Finds word badge ↔ ∀ k, badge.getLsbD k = true → word.getLsbD k = true := by
  constructor
  · intro h k hk
    have hbit := congrArg (·.getLsbD k) h
    simp only [BitVec.getLsbD_and, hk, Bool.and_true] at hbit
    exact hbit
  · intro h
    refine BitVec.eq_of_getLsbD_eq fun k _ ↦ ?_
    rw [BitVec.getLsbD_and]
    cases hk : badge.getLsbD k
    · exact Bool.and_false _
    · rw [h k hk]
      rfl

/-- Badges that share the bit `mark` and have one bit each of their own. -/
structure Marked (mark : ℕ) (bit : S → ℕ) (badge : S → BitVec w) : Prop where
  /-- The badge of a source has the two bits. -/
  badge_eq : ∀ s, badge s = BitVec.twoPow w mark ||| BitVec.twoPow w (bit s)
  /-- No two sources have the same bit. -/
  injective : Function.Injective bit
  /-- The bit of a source is not the one they share. -/
  ne_mark : ∀ s, bit s ≠ mark
  /-- The word has the bit. -/
  lt : ∀ s, bit s < w

namespace Marked

variable {mark : ℕ} {bit : S → ℕ} {badge : S → BitVec w}

theorem getLsbD_badge (h : Marked mark bit badge) (s : S) {k : ℕ} (hk : k < w) :
    (badge s).getLsbD k = true ↔ k = mark ∨ k = bit s := by
  rw [h.badge_eq, BitVec.getLsbD_or, BitVec.getLsbD_twoPow, BitVec.getLsbD_twoPow, Bool.or_eq_true]
  simp only [Bool.and_eq_true, decide_eq_true_eq]
  omega

/-- **The subset test finds a source if and only if it signalled.** -/
theorem finds_merged_iff (h : Marked mark bit badge) (ss : List S) (s : S) :
    Finds (merged badge ss) (badge s) ↔ s ∈ ss := by
  rw [finds_iff]
  constructor
  · intro hfinds
    have hown := hfinds (bit s) ((h.getLsbD_badge s (h.lt s)).mpr (.inr rfl))
    obtain ⟨s', hs', hbit⟩ := (getLsbD_merged badge ss (bit s)).mp hown
    rcases (h.getLsbD_badge s' (h.lt s)).mp hbit with hmark | hsame
    · exact absurd hmark (h.ne_mark s)
    · rwa [h.injective hsame]
  · intro hs k hk
    exact (getLsbD_merged badge ss k).mpr ⟨s, hs, hk⟩

/-- A word without the shared bit is about no source. -/
theorem not_finds_of_not_mark (h : Marked mark bit badge) (hmark : mark < w) {word : BitVec w}
    (hword : word.getLsbD mark = false) (s : S) : ¬Finds word (badge s) := by
  intro hfinds
  have hbit := (finds_iff _ _).mp hfinds mark ((h.getLsbD_badge s hmark).mpr (.inl rfl))
  rw [hword] at hbit
  exact Bool.false_ne_true hbit

end Marked

/-! ## Runs -/

/-- The word, and what has happened. -/
structure State (w : ℕ) (S : Type u) where
  /-- What was signalled since the word was taken last. -/
  word : BitVec w
  /-- What has happened, oldest first. -/
  history : List (Moment S)

/-- Nothing has happened. -/
def idle : State w S := { word := 0, history := [] }

/-- What can happen.  The dispatcher may be given something beside the word. -/
inductive Event (S : Type u) (ι : Type v)
  /-- A source signals. -/
  | signal (s : S)
  /-- The word is taken and dispatched. -/
  | handle (i : ι)

variable (badge : S → BitVec w) (runs : BitVec w → ι → List S)

/-- One event. -/
def State.next (y : State w S) : Event S ι → State w S
  | .signal s => { word := y.word ||| badge s, history := y.history ++ [.signalled s] }
  | .handle i => { word := 0, history := y.history ++ .taken :: (runs y.word i).map .ran }

/-- The step relation: anything can happen at any time. -/
abbrev Step : State w S → Event S ι → State w S → Prop :=
  Does (fun _ _ ↦ True) (State.next badge runs)

/-- **The dispatcher runs the handlers of the sources that signalled**, each once. -/
def Exact : Prop :=
  ∀ ss i, (runs (merged badge ss) i).Nodup ∧ ∀ s, s ∈ runs (merged badge ss) i ↔ s ∈ ss

variable {badge runs}

/-- Subset tests, one for each source, are exact on marked badges. -/
theorem Marked.exact_filter {mark : ℕ} {bit : S → ℕ} (h : Marked mark bit badge) {all : List S}
    (hnodup : all.Nodup) (hall : ∀ s, s ∈ all)
    (hruns : ∀ word i, runs word i = all.filter fun s ↦ decide (Finds word (badge s))) :
    Exact badge runs := by
  intro ss i
  rw [hruns]
  refine ⟨hnodup.filter _, fun s ↦ ?_⟩
  rw [List.mem_filter, decide_eq_true_iff, h.finds_merged_iff]
  exact and_iff_right (hall s)

/-- Tests of one bit, one for each source, are exact on badges of one bit. -/
theorem exact_bits {bit : S → ℕ} (hbadge : ∀ s, badge s = BitVec.twoPow w (bit s))
    (hinj : Function.Injective bit) (hlt : ∀ s, bit s < w) {all : List S} (hnodup : all.Nodup)
    (hall : ∀ s, s ∈ all)
    (hruns : ∀ word i, runs word i = all.filter fun s ↦ word.getLsbD (bit s)) :
    Exact badge runs := by
  intro ss i
  have hbit : ∀ s s', (badge s').getLsbD (bit s) = true ↔ s' = s := by
    intro s s'
    rw [hbadge, BitVec.getLsbD_twoPow, Bool.and_eq_true, decide_eq_true_iff, decide_eq_true_iff]
    exact ⟨fun h ↦ hinj h.2, fun h ↦ ⟨hlt s', congrArg bit h⟩⟩
  rw [hruns]
  refine ⟨hnodup.filter _, fun s ↦ ?_⟩
  rw [List.mem_filter, getLsbD_merged]
  simp only [hall, hbit, true_and, exists_eq_right]

/-- Signals only. -/
theorem foldl_signal (ss : List S) (y : State w S) :
    (ss.map Event.signal).foldl (State.next badge runs) y =
      { word := ss.foldl (fun word s ↦ word ||| badge s) y.word
        history := y.history ++ ss.map .signalled } := by
  induction ss generalizing y with
  | nil => simp
  | cons s ss ih =>
    rw [List.map_cons, List.foldl_cons, ih]
    simp [State.next]

/-- What has happened up to the last time the word was taken, and the signals since. -/
def Sound (badge : S → BitVec w) (y : State w S) : Prop :=
  ∃ h ss, y.word = merged badge ss ∧ y.history = h ++ ss.map .signalled ∧ Served h ∧ Exclusive h

/-- **One event** keeps a history sound. -/
theorem Sound.next (hexact : Exact badge runs) {y : State w S} (h : Sound badge y)
    (e : Event S ι) : Sound badge (y.next badge runs e) := by
  obtain ⟨h, ss, hword, hhist, hserved, hexcl⟩ := h
  cases e with
  | signal s =>
    refine ⟨h, ss ++ [s], ?_, ?_, hserved, hexcl⟩
    · rw [merged_concat, ← hword]
      rfl
    · rw [List.map_append, ← List.append_assoc, ← hhist]
      rfl
  | handle i =>
    obtain ⟨hnodup, hruns⟩ := hexact ss i
    refine ⟨_, [], rfl, (List.append_nil _).symm, ?_, ?_⟩
    · change Served (y.history ++ .taken :: (runs y.word i).map .ran)
      rw [hhist, hword]
      exact hserved.handled fun s ↦ (hruns s).mpr
    · change Exclusive (y.history ++ .taken :: (runs y.word i).map .ran)
      rw [hhist, hword]
      exact hexcl.handled hnodup fun s ↦ (hruns s).mp

/-- **The word is what was signalled since it was taken last**, along any run. -/
theorem run_word {es : List (Event S ι)} {y : State w S} (h : Run (Step badge runs) idle es y) :
    y.word = merged badge (waiting y.history) := by
  refine h.invariant (I := fun y ↦ y.word = merged badge (waiting y.history)) rfl
    fun y e _ hword hstep ↦ ?_
  rw [hstep.2]
  cases e with
  | signal s =>
    change y.word ||| badge s = merged badge (waiting (y.history ++ [.signalled s]))
    rw [waiting_signalled, merged_concat, hword]
  | handle i =>
    change 0 = merged badge (waiting (y.history ++ .taken :: (runs y.word i).map .ran))
    rw [waiting_handled, merged_nil]

/-- **No event is lost and none is made up**, along any run. -/
theorem run_complete_exclusive (hexact : Exact badge runs) {es : List (Event S ι)} {y : State w S}
    (h : Run (Step badge runs) idle es y) : Complete y.history ∧ Exclusive y.history := by
  have hsound : Sound badge y := h.invariant
    ⟨[], [], rfl, rfl, fun _ _ _ ↦ by simp, fun _ _ _ ↦ by simp⟩
    fun _ e _ hs hstep ↦ hstep.2 ▸ hs.next hexact e
  obtain ⟨h, ss, -, hhist, hserved, hexcl⟩ := hsound
  rw [hhist]
  exact ⟨hserved.complete ss, hexcl.signalled ss⟩

end Coalesced
