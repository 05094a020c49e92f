import CamkesVm.Pit.Periodic

/-!
# The rising edges of the PIT

The device follows the beat: after each completion its line has the level of the beat, and its timer
is armed for the tick the beat aims at (`Follows.next`).  So the times of its rising edges are those
of the beat, for as long as the clock does not overflow, and `ticksRight_iff` says how far they are
right.

## What is here

* `Counting`, `Fits` — the first channel counts `n` in mode 2 since `load`, and so far the times fit
  63 bits.
* `Follows` — the simulation relation between the device and the beat. `Counting.update` is the
  work: it evaluates the handler at a converted tick, with the two roundings and the fix-up for
  deadlines that do not advance.
* `Follows.risingTimes_map` — the edges of the device are those of the beat, by the general rule for
  edges.
* `ticksRight_iff` — after any run of the PIT that leaves the first channel in mode 2, with the
  count that was loaded last.

That no count is right for ever follows from it, since the exact conversions come round again.
-/

set_option autoImplicit false

namespace CamkesVm
namespace Pit

open Transition EffectLog Resample Edges

/-! ## The device and the beat -/

/-- The channel counts `n` in mode 2, loaded at time `load`, and has its interrupt timer. -/
structure Counting (n : ℕ) (load : BitVec 64) (s : PITChannelState) : Prop where
  /-- The channel has an interrupt timer. -/
  irqTimer : s.irqTimer = true
  /-- The interrupt is not suppressed. -/
  irqDisabled : s.irqDisabled = false
  /-- Mode 2. -/
  mode : s.mode = 2
  /-- The count. -/
  count : s.count = n
  /-- When it was loaded. -/
  load : s.countLoadTime = load

/-- The device follows the beat `b`. -/
structure Follows (n : ℕ) (load : BitVec 64) (pit : PITCommonState) (b : Beat) : Prop where
  /-- The first channel counts. -/
  counting : Counting n load (pit.channels 0)
  /-- The timer waits for the tick the beat aims at. -/
  next : (pit.channels 0).nextTransitionTime =
    load + BitVec.ofNat 64 (fast nsInS pitFreq b.target)
  /-- The line has the level of the beat. -/
  level : irqLevel pit = b.level

/-- The clock does not overflow before tick `t`. -/
def Fits (load : BitVec 64) (t : ℕ) : Prop := load.toNat + fast nsInS pitFreq t < 2 ^ 64

section

variable {n : ℕ} {load : BitVec 64} {s : PITChannelState} {pit : PITCommonState} {b : Beat}

theorem muldivu64_eq_fast (t : ℕ) : muldivu64 t nsInS pitFreq = fast nsInS pitFreq t := rfl

theorem fast_mono {t t' : ℕ} (h : t ≤ t') : fast nsInS pitFreq t ≤ fast nsInS pitFreq t' :=
  Nat.div_le_div_right (Nat.mul_le_mul_right _ h)

theorem Fits.mono {t t' : ℕ} (h : Fits load t') (hle : t ≤ t') : Fits load t :=
  (Nat.add_le_add_left (fast_mono hle) _).trans_lt h

theorem toNat_load_add {x : ℕ} (h : load.toNat + x < 2 ^ 64) :
    (load + BitVec.ofNat 64 x).toNat = load.toNat + x := by
  rw [BitVec.toNat_add, BitVec.toNat_ofNat, Nat.mod_eq_of_lt (by omega : x < 2 ^ 64),
    Nat.mod_eq_of_lt h]

/-- The ticks at `x` nanoseconds past the load. -/
theorem ticks_eq {x : ℕ} (h : load.toNat + x < 2 ^ 64) :
    muldivu64 (load + BitVec.ofNat 64 x - load).toNat pitFreq nsInS = slow nsInS pitFreq x := by
  have hcancel : load + BitVec.ofNat 64 x - load = BitVec.ofNat 64 x := by
    rw [BitVec.add_comm, BitVec.add_sub_cancel]
  rw [hcancel, BitVec.toNat_ofNat, Nat.mod_eq_of_lt (by omega : x < 2 ^ 64)]
  rfl

theorem Counting.out (h : Counting n load s) (time : BitVec 64) :
    pitGetOut s time = levelAt n (ticks s time) := by
  simp only [pitGetOut, h.mode, h.count, levelAt]

theorem Counting.transition (h : Counting n load s) (time : BitVec 64) :
    nextTransition s time = some (aim n (ticks s time)) := by
  simp only [nextTransition, h.mode, h.count, aim]

/-- The next deadline, if it is later, is not nudged. -/
theorem Counting.nextTransitionTime (h : Counting n load s) {time : BitVec 64} {x : ℕ}
    (hx : fast nsInS pitFreq (aim n (ticks s time)) = x)
    (hlater : time < load + BitVec.ofNat 64 x) :
    pitGetNextTransitionTime s time = load + BitVec.ofNat 64 x := by
  simp only [pitGetNextTransitionTime, h.transition, h.load, muldivu64_eq_fast, hx]
  exact if_neg (BitVec.not_le.mpr hlater)

/-- Arming or stopping the timer does not set the line. -/
theorem level_arm (c : Prop) [Decidable c] (time : BitVec 64) :
    (if c then Effect.oneshotAbsolute time else Effect.stop).level = none := by
  split <;> rfl

/-- What an update of the interrupt timer of a wired channel does. -/
theorem Counting.irqTimerUpdate (h : Counting n load (pit.channels 0)) (time : BitVec 64) :
    Counting n load ((pitIrqTimerUpdate pit 0 time).channels 0) ∧
      ((pitIrqTimerUpdate pit 0 time).channels 0).nextTransitionTime =
        pitGetNextTransitionTime (pit.channels 0) time ∧
      irqLevel (pitIrqTimerUpdate pit 0 time) = pitGetOut (pit.channels 0) time := by
  have hon : ¬((!(pit.channels 0).irqTimer || (pit.channels 0).irqDisabled) = true) := by
    rw [h.irqTimer, h.irqDisabled]
    exact Bool.false_ne_true
  simp only [pitIrqTimerUpdate, if_neg hon, channels_emit, channels_setChannel_self]
  refine ⟨⟨h.irqTimer, h.irqDisabled, h.mode, h.count, h.load⟩, trivial, ?_⟩
  rw [irqLevel, log_emit, log_setChannel, log_emit, latest_concat, latest_concat, level_arm]
  rfl

/-- **The handler**, `x` nanoseconds past the load: it sets the line to the output, and arms the
timer for the tick it then aims at. -/
theorem Counting.update (h : Counting n load (pit.channels 0)) {x d : ℕ}
    (hd : slow nsInS pitFreq x = d) (hlater : x < fast nsInS pitFreq (aim n d))
    (hfits : Fits load (aim n d)) :
    Follows n load (pitIrqTimerUpdate pit 0 (load + BitVec.ofNat 64 x))
      { target := aim n d, level := levelAt n d } := by
  rw [Fits] at hfits
  have hsooner : load.toNat + x < load.toNat + fast nsInS pitFreq (aim n d) :=
    Nat.add_lt_add_left hlater _
  have hticks : ticks (pit.channels 0) (load + BitVec.ofNat 64 x) = d := by
    rw [ticks, h.load, ticks_eq (hsooner.trans hfits), hd]
  obtain ⟨hcounting, hnext, hlevel⟩ := h.irqTimerUpdate (load + BitVec.ofNat 64 x)
  refine ⟨hcounting, ?_, ?_⟩
  · rw [hnext]
    refine h.nextTransitionTime (by rw [hticks]) ?_
    rw [BitVec.lt_def, toNat_load_add (hsooner.trans hfits), toNat_load_add hfits]
    exact hsooner
  · rw [hlevel, h.out, hticks]

/-- The handler aims past what it sees. -/
theorem lt_aim_seen (hn : 2 ≤ n) (t : ℕ) : t < aim n (seen t) := by
  have hlt : ∀ d, d + 1 < aim n d := by
    intro d
    have hmod := Nat.mod_lt d (show 0 < n by omega)
    have hle := Nat.mod_le d n
    rw [aim, roundDown]
    split <;> omega
  have hseen := hlt (seen t)
  rw [seen] at hseen ⊢
  split at hseen <;> rename_i h
  · rw [if_pos h]
    omega
  · rw [if_neg h]
    omega

/-- **The device follows the beat**, one completion after another. -/
theorem Follows.next_follows (hn : 2 ≤ n) (h : Follows n load pit b)
    (hfits : Fits load (b.next n).target) :
    Follows n load (pitTimerInterrupt pit) (b.next n) := by
  have hlater := fast_lt_fast (a := nsInS) (b := pitFreq) (by decide) (by decide)
    (lt_aim_seen hn b.target)
  rw [pitTimerInterrupt, pitIrqTimer, h.next]
  exact h.counting.update (seen_eq b.target) hlater hfits

/-- Loading the count starts the beat. -/
theorem follows_start (hwired : (pit.channels 0).irqTimer = true ∧
      (pit.channels 0).irqDisabled = false) (hmode : (pit.channels 0).mode = 2)
    (hn : 2 ≤ n) (hle : n ≤ 65536) (hfits : Fits load (n + 1)) :
    Follows n load (pitLoadCount pit 0 (n % 65536) load) (Beat.start n) := by
  have hval : (if n % 65536 = 0 then 0x10000 else n % 65536) = n := by
    split <;> omega
  rw [pitLoadCount]
  dsimp only
  rw [hval]
  have hcount : Counting n load ((pit.setChannel 0
      { pit.channels 0 with countLoadTime := load, count := n }).channels 0) := by
    rw [channels_setChannel_self]
    exact ⟨hwired.1, hwired.2, hmode, rfl, rfl⟩
  have hstart : aim n (slow nsInS pitFreq 0) = n + 1 ∧ levelAt n (slow nsInS pitFreq 0) = 0 := by
    rw [slow, Nat.zero_mul, Nat.zero_div, aim, levelAt, roundDown, Nat.zero_sub]
    exact ⟨by simp, by simp⟩
  have hlater : 0 < fast nsInS pitFreq (n + 1) := by
    have h0 := fast_lt_fast (a := nsInS) (b := pitFreq) (by decide) (by decide)
      (show 0 < n + 1 by omega)
    omega
  have hupdate := hcount.update (x := 0) rfl
  rw [hstart.1, hstart.2, show BitVec.ofNat 64 0 = 0#64 from rfl, BitVec.add_zero] at hupdate
  exact hupdate hlater hfits

/-- The tick aimed at moves on. -/
theorem target_mono (hn : 2 ≤ n) {j m : ℕ} (h : j ≤ m) :
    ((Beat.next n)^[j] b).target ≤ ((Beat.next n)^[m] b).target := by
  induction h with
  | refl => exact le_refl _
  | step _ ih =>
    rw [Function.iterate_succ_apply']
    exact ih.trans (lt_aim_seen hn _).le

/-- **The device follows the beat for as long as the clock does not overflow.** -/
theorem Follows.iterate (hn : 2 ≤ n) (h : Follows n load pit b) {m : ℕ}
    (hfits : Fits load ((Beat.next n)^[m] b).target) :
    Follows n load (pitTimerInterrupt^[m] pit) ((Beat.next n)^[m] b) := by
  induction m with
  | zero => exact h
  | succ m ih =>
    have hbefore := ih (hfits.mono (target_mono hn (Nat.le_succ m)))
    rw [Function.iterate_succ_apply'] at hfits ⊢
    rw [Function.iterate_succ_apply']
    exact hbefore.next_follows hn hfits

end

/-! ## The rising edges -/

/-- The times of the rising edges in the first `m` completions. -/
def risingTimes (pit : PITCommonState) (m : ℕ) : List (BitVec 64) :=
  rises irqLevel (fun pit ↦ (pit.channels 0).nextTransitionTime) pitTimerInterrupt pit m

/-- The `k`-th rising edge comes, and it comes `k` times the count after the load. -/
def TickRight (pit : PITCommonState) (n : ℕ) (load : BitVec 64) (k : ℕ) : Prop :=
  ∃ m t, (risingTimes pit m)[k - 1]? = some t ∧
    muldivu64 (t - load).toNat pitFreq nsInS = k * n

section

variable {n k m : ℕ} {load : BitVec 64} {pit : PITCommonState} {b : Beat}

/-- **The edges of the device are those of the beat.** -/
theorem Follows.risingTimes_map (hn : 2 ≤ n) (h : Follows n load pit b)
    (hfits : Fits load ((Beat.next n)^[m] b).target) :
    (risingTimes pit m).map (fun t ↦ muldivu64 (t - load).toNat pitFreq nsInS) =
      b.rising n m := by
  have hfollows : ∀ j ≤ m, Follows n load (pitTimerInterrupt^[j] pit) ((Beat.next n)^[j] b) :=
    fun j hj ↦ h.iterate hn (hfits.mono (target_mono hn hj))
  refine rises_map (fun j hj ↦ (hfollows j hj).level) fun j hj ↦ ?_
  rw [(hfollows j hj.le).next, ticks_eq (hfits.mono (target_mono hn hj.le)), seen_eq]

/-- What an edge of the beat says of the device. -/
theorem Follows.tickRight_iff (hn : 2 ≤ n) (h : Follows n load pit b)
    (hfits : Fits load ((Beat.next n)^[m] b).target) {d : ℕ}
    (hd : (b.rising n m)[k - 1]? = some d) : TickRight pit n load k ↔ d = k * n := by
  rw [← h.risingTimes_map hn hfits, List.getElem?_map] at hd
  obtain ⟨t, ht, rfl⟩ := Option.map_eq_some_iff.mp hd
  refine ⟨?_, fun hright ↦ ⟨m, t, ht, hright⟩⟩
  rintro ⟨m', t', ht', hright⟩
  rw [eq_of_rises ht ht']
  exact hright

@[simp] theorem length_pulses : (pulses n k).length = k := by
  rw [pulses, List.length_map, List.length_range]

/-- **While all conversions go well**, so do the edges. -/
theorem Follows.tickRight (hn : 2 ≤ n) (h : Follows n load pit (Beat.start n))
    (hgood : ∀ j, 1 ≤ j → j ≤ k + 1 → Good n j) (hfits : Fits load ((k + 2) * n)) :
    TickRight pit n load (k + 1) := by
  obtain ⟨hat, hrising⟩ := beat_at_pulse hn hgood
  have hentry : ((Beat.start n).rising n (2 * k + 1))[k + 1 - 1]? = some ((k + 1) * n) := by
    rw [hrising, pulses_succ, List.getElem?_append_right (by simp)]
    simp
  exact (h.tickRight_iff hn (by rw [hat]; exact hfits) hentry).mpr rfl

/-- **The first conversion that goes wrong** makes the edge late. -/
theorem Follows.not_tickRight (hn : 2 ≤ n) (hlt : n + 1 < exactTick)
    (h : Follows n load pit (Beat.start n)) (hgood : ∀ j, 1 ≤ j → j ≤ k + 1 → Good n j)
    (hbad : ¬Good n (k + 2)) (hfits : Fits load ((k + 4) * n)) :
    ¬TickRight pit n load (k + 2) := by
  obtain ⟨hat, hrising⟩ := beat_past_pulse hn hlt hgood hbad
  have hentry : ((Beat.start n).rising n (2 * k + 4))[k + 2 - 1]? = some ((k + 3) * n) := by
    rw [hrising, List.getElem?_append_right (by simp)]
    simp
  rw [h.tickRight_iff hn (by rw [hat]; exact hfits) hentry]
  intro heq
  have hthree : (k + 3) * n = (k + 2) * n + n := Nat.succ_mul (k + 2) n
  omega

/-- No conversion is exact as early as that. -/
theorem good_of_lt (hn : 2 ≤ n) (hk : 1 ≤ k) (hlt : k * n + 1 < exactTick) : Good n k := by
  have hpos : 0 < k * n := Nat.mul_pos (by omega) (by omega)
  refine ⟨fun h ↦ ?_, fun h ↦ ?_⟩
  · exact absurd (Nat.le_of_dvd hpos h) (by omega)
  · exact absurd (Nat.le_of_dvd (Nat.succ_pos _) h) (by omega)

/-- **How far the ticks are right**: the first `K` edges come when they should exactly if no
conversion that meets one of the first `K` pulses is exact. -/
theorem Follows.tickRight_forall_iff (hn : 2 ≤ n) (hlt : n + 1 < exactTick)
    (h : Follows n load pit (Beat.start n)) {K : ℕ} (hfits : Fits load ((K + 2) * n)) :
    (∀ k, 1 ≤ k → k ≤ K → TickRight pit n load k) ↔ ∀ k, 1 ≤ k → k ≤ K → Good n k := by
  refine ⟨fun hright k ↦ ?_, fun hgood k hk hkK ↦ ?_⟩
  · -- the first pulse that is met wrongly would have an edge that is late
    induction k using Nat.strong_induction_on with
    | _ k ih =>
      intro hk hkK
      by_contra hbad
      have hne : k ≠ 1 := fun hone ↦ hbad (hone ▸ good_of_lt hn (le_refl _) (by rwa [Nat.one_mul]))
      obtain ⟨j, rfl⟩ := Nat.exists_eq_add_of_le' (show 2 ≤ k by omega)
      refine h.not_tickRight hn hlt (fun i hi hij ↦ ih i (by omega) hi (by omega)) hbad ?_
        (hright (j + 2) hk hkK)
      exact hfits.mono (Nat.mul_le_mul_right n (by omega))
  · obtain ⟨j, rfl⟩ := Nat.exists_eq_add_of_le' hk
    refine h.tickRight hn (fun i hi hij ↦ hgood i hi (by omega)) ?_
    exact hfits.mono (Nat.mul_le_mul_right n (by omega))

/-- Sooner or later a conversion that meets a pulse is exact. -/
theorem not_good_exactTick : ¬Good n exactTick := fun h ↦ h.1 (Dvd.intro n rfl)

end

/-! ## The ticks -/

/-- **How far the periodic tick is right**, in every run of the PIT after which channel 0 is in mode
2.  As long as the clock does not overflow, the first `K` edges come when they should exactly if
596591 divides neither `k * n` nor `k * n + 1` for any pulse `k` among them.  For no count are all
of them right. -/
theorem ticksRight_iff {now : BitVec 64} {clock : Fin 3 → BitVec 64} {as : List Label}
    {pit : PITCommonState} (h : Run Step (pitPreInit now clock) as pit)
    (hmode : (pit.channels 0).mode = 2) {n : ℕ} (hn : 2 ≤ n) (hle : n ≤ 65536)
    (load : BitVec 64) :
    (∀ K, Fits load ((K + 2) * n) →
      ((∀ k, 1 ≤ k → k ≤ K → TickRight (pitLoadCount pit 0 (n % 65536) load) n load k) ↔
        ∀ k, 1 ≤ k → k ≤ K → ¬exactTick ∣ k * n ∧ ¬exactTick ∣ k * n + 1)) ∧
      ¬∀ k, 1 ≤ k → TickRight (pitLoadCount pit 0 (n % 65536) load) n load k := by
  have hlt : n + 1 < exactTick := by
    rw [exactTick]
    omega
  have hfirst : ∀ K, Fits load ((K + 2) * n) →
      ((∀ k, 1 ≤ k → k ≤ K → TickRight (pitLoadCount pit 0 (n % 65536) load) n load k) ↔
        ∀ k, 1 ≤ k → k ≤ K → Good n k) := by
    intro K hfits
    have hstart : Fits load (n + 1) := by
      refine hfits.mono ?_
      have htwo : 2 * n ≤ (K + 2) * n := Nat.mul_le_mul_right n (by omega)
      omega
    exact (follows_start (run_wired h).irqTimer hmode hn hle hstart).tickRight_forall_iff hn hlt
      hfits
  refine ⟨hfirst, fun hall ↦ ?_⟩
  by_cases hfits : Fits load ((exactTick + 2) * n)
  · exact not_good_exactTick
      ((hfirst exactTick hfits).mp (fun k hk _ ↦ hall k hk) exactTick (by decide) (le_refl _))
  · -- near the end of the clock there is no time left for that many edges
    obtain ⟨m, t, -, ht⟩ := hall (2 ^ 64) (by decide)
    have hbound : muldivu64 (t - load).toNat pitFreq nsInS < 2 ^ 64 := by
      rw [muldivu64]
      refine Nat.div_lt_of_lt_mul ?_
      exact Nat.mul_lt_mul'' ((t - load).isLt) (by decide) |>.trans_eq (Nat.mul_comm _ _)
    omega

/-- The PIT after the guest has chosen mode 2 for channel 0. -/
def rateGenerator : PITCommonState :=
  (pitPreInit 0 fun _ ↦ 0).next (.portOut 3 0x34 (fun _ ↦ 0) fun _ ↦ 0)

theorem run_rateGenerator :
    Run Step (pitPreInit 0 fun _ ↦ 0) [.portOut 3 0x34 (fun _ ↦ 0) fun _ ↦ 0] rateGenerator :=
  Run.single ⟨trivial, rfl⟩

theorem mode_rateGenerator : (rateGenerator.channels 0).mode = 2 := rfl

/-- At 20 Hz the count is 59659: the first nine ticks are right, but not the tenth. -/
theorem ticksRight_iff_fifty_ms :
    (∀ K, Fits 0 ((K + 2) * 59659) →
      ((∀ k, 1 ≤ k → k ≤ K →
          TickRight (pitLoadCount rateGenerator 0 (59659 % 65536) 0) 59659 0 k) ↔
        ∀ k, 1 ≤ k → k ≤ K → ¬exactTick ∣ k * 59659 ∧ ¬exactTick ∣ k * 59659 + 1)) ∧
      ¬∀ k, 1 ≤ k → TickRight (pitLoadCount rateGenerator 0 (59659 % 65536) 0) 59659 0 k :=
  ticksRight_iff run_rateGenerator mode_rateGenerator (by norm_num) (by norm_num) 0

/-- **The ticks are not always right**: with the count 59659 the timer is armed for tick 596591 to
see pulse 10, finds itself there and not a tick before, and misses the pulse. -/
theorem not_ticksRight :
    ¬∀ (now : BitVec 64) (clock : Fin 3 → BitVec 64) (as : List Label) (pit : PITCommonState),
      Run Step (pitPreInit now clock) as pit → (pit.channels 0).mode = 2 →
      ∀ n, 2 ≤ n → n ≤ 65536 → ∀ load k, 1 ≤ k →
        TickRight (pitLoadCount pit 0 (n % 65536) load) n load k := by
  intro h
  have hgood : ∀ j, 1 ≤ j → j ≤ 8 + 1 → Good 59659 j := by
    intro j hj hj'
    refine good_of_lt (by norm_num) hj ?_
    calc j * 59659 + 1 ≤ 9 * 59659 + 1 := Nat.succ_le_succ (Nat.mul_le_mul_right _ hj')
      _ < exactTick := by
        rw [exactTick]
        norm_num
  have hbad : ¬Good 59659 (8 + 2) := fun h ↦ h.2 (by rw [exactTick])
  have hfits : Fits 0 ((8 + 4) * 59659) := by
    rw [Fits, fast, nsInS, pitFreq, show (0 : BitVec 64).toNat = 0 from rfl]
    norm_num
  have hfirst : Fits 0 (59659 + 1) := hfits.mono (by norm_num)
  have hstart := follows_start (run_wired run_rateGenerator).irqTimer mode_rateGenerator
    (by norm_num) (by norm_num) hfirst
  exact hstart.not_tickRight (by norm_num) (by rw [exactTick]; norm_num) hgood hbad hfits
    (h _ _ _ _ run_rateGenerator mode_rateGenerator 59659 (by norm_num) (by norm_num) 0 10
      (by norm_num))

end Pit
end CamkesVm
