import CamkesVm.Pit.Load

/-!
# The PIT: reading a count

A read of a data port gives the latched status if there is one, else the next byte of the latched
count if there is one, else a byte of the count as it is then, in the order that `read_state` keeps.

A count is latched with the bytes that the access mode of that moment makes of it, and nothing but
data reads takes them away (`latched_access`); so it is read as it was latched, whatever happens in
between (`latched_snapshot`).  And only unlatched reads move `read_state` (`readState_access`), so
their low and high bytes alternate, whatever is read in between.

## What is here

* `latchedBytes`, `unlatchedByte` — what ought to be read, in terms of the access mode alone.
* `dataReads`, `unlatchedReads` — the bytes that a run reads from a channel, the bytes of a status
  left out.
* `latched_access`, `readChannel_latched` — the step lemmas for what is latched; `dataReads_latched`
  is the induction over a run.
* `readState_access`, `unlatchedReads_turn` — the same for the order of the unlatched bytes.
* `latched_snapshot` — the two results together, from the moment of latching on.

An event may be anything: commands and counts for the channel itself come between the two bytes of a
latched count as well, and the count that is read is still the one that was latched.
-/

set_option autoImplicit false

namespace CamkesVm
namespace Pit

open Transition

/-! ## What is to be read -/

/-- The low byte of a count. -/
def lowByte (v : BitVec 16) : BitVec 8 := v.setWidth 8

/-- The high byte of a count. -/
def highByte (v : BitVec 16) : BitVec 8 := (v >>> 8).setWidth 8

/-- The bytes of a count that are read in access mode `r`. -/
def latchedBytes (r : ℕ) (v : BitVec 16) : List (BitVec 8) :=
  match r with
  | 2 => [highByte v]
  | 3 => [lowByte v, highByte v]
  | _ => [lowByte v]

/-- The byte that the unlatched read number `k` after a control word gives in access mode `r`. -/
def unlatchedByte (r k : ℕ) (v : BitVec 16) : BitVec 8 :=
  match r with
  | 2 => highByte v
  | 3 => if k % 2 = 0 then lowByte v else highByte v
  | _ => lowByte v

/-- The count of a channel at a time, modulo 65536. -/
def countAt (s : PITChannelState) (now : BitVec 64) : BitVec 16 :=
  BitVec.ofNat 16 (pitGetCount s now)

/-- An event latches the count of channel `i` at a time: a counter latch command, or a read back
command that selects the channel and its count. -/
def Label.Latches (i : Fin 3) (a : Label) (now : BitVec 64) : Prop :=
  (∃ val, a.on i = some (.command val now) ∧ val.toNat / 16 % 4 = 0) ∨
  ∃ val now', a.on i = some (.readBack val now now') ∧
    val &&& (2 <<< i.val) ≠ 0 ∧ val &&& 0x20 = 0

/-- The byte that an event reads from channel `i`, if it reads one. -/
def PITCommonState.readOf (pit : PITCommonState) (i : Fin 3) : Label → Option (BitVec 8)
  | .portIn addr now => if addr % 4 = i then some (pitIoportRead pit now addr).1 else none
  | .portOut _ _ _ _ => none
  | .timer => none

/-- The bytes that a run reads from channel `i`, but for those of a status. -/
def dataReads (i : Fin 3) : PITCommonState → List Label → List (BitVec 8)
  | _, [] => []
  | pit, a :: as =>
    (if (pit.channels i).statusLatched then [] else (pit.readOf i a).toList) ++
      dataReads i (pit.next a) as

/-- The bytes that a run reads from channel `i` while nothing is latched, each with the count at the
time it was read. -/
def unlatchedReads (i : Fin 3) : PITCommonState → List Label → List (BitVec 8 × BitVec 16)
  | _, [] => []
  | pit, a :: as =>
    (match a.on i, pit.readOf i a with
      | some (.read now), some byte =>
        if (pit.channels i).statusLatched || (pit.channels i).countLatched ≠ 0 then []
        else [(byte, countAt (pit.channels i) now)]
      | _, _ => []) ++ unlatchedReads i (pit.next a) as

/-! ## What a channel has latched -/

/-- The bytes of the latched count that are still to be read. -/
def PITChannelState.latched (s : PITChannelState) : List (BitVec 8) :=
  if s.countLatched = 0 then [] else latchedBytes s.countLatched s.latchedCount

/-- What is latched of the count is the same. -/
def SameLatch (s s' : PITChannelState) : Prop :=
  s'.countLatched = s.countLatched ∧ s'.latchedCount = s.latchedCount

section

variable {i : Fin 3} {s s' : PITChannelState}

theorem SameLatch.latched (h : SameLatch s s') : s'.latched = s.latched := by
  rw [PITChannelState.latched, PITChannelState.latched, h.1, h.2]

theorem sameLatch_rearm (s : PITChannelState) (time : BitVec 64) : SameLatch s (s.rearm time) := by
  rw [PITChannelState.rearm]
  split <;> exact ⟨rfl, rfl⟩

theorem sameLatch_load (s : PITChannelState) (val : ℕ) (now : BitVec 64) :
    SameLatch s (s.load val now) :=
  sameLatch_rearm { s with countLoadTime := now, count := if val = 0 then 0x10000 else val } now

theorem sameLatch_write (s : PITChannelState) (val : BitVec 8) (now : BitVec 64) :
    SameLatch s (s.write val now) := by
  rw [PITChannelState.write]
  repeat' split
  · exact sameLatch_load s _ now
  · exact ⟨rfl, rfl⟩
  · exact sameLatch_load s _ now
  · exact sameLatch_load s _ now

/-- **A count that is latched is not latched again.** -/
theorem pitLatchCount_of_latched (h : s.countLatched ≠ 0) (now : BitVec 64) :
    pitLatchCount s now = s := if_neg h

theorem sameLatch_command (h : s.countLatched ≠ 0) (val : BitVec 8) (now : BitVec 64) :
    SameLatch s (command s val now) := by
  rw [command, pitLatchCount_of_latched h]
  split <;> exact ⟨rfl, rfl⟩

theorem sameLatch_readBack (h : s.countLatched ≠ 0) (val : BitVec 8) (now now' : BitVec 64) :
    SameLatch s (readBack s i val now now') := by
  rw [readBack, pitLatchCount_of_latched h, ite_self]
  dsimp only
  repeat' split
  all_goals exact ⟨rfl, rfl⟩

/-- **Only data reads take latched bytes away.** -/
theorem latched_access (h : s.latched ≠ []) {b : Access} (hread : ∀ now, b ≠ .read now) :
    (s.access i b).latched = s.latched := by
  have hlatched : s.countLatched ≠ 0 := by
    intro hzero
    rw [PITChannelState.latched, if_pos hzero] at h
    exact h rfl
  cases b with
  | read now => exact absurd rfl (hread now)
  | write val now => exact (sameLatch_write s val now).latched
  | command val now => exact (sameLatch_command hlatched val now).latched
  | readBack val now now' => exact (sameLatch_readBack hlatched val now now').latched
  | timer => exact (sameLatch_rearm s _).latched

/-- A latched status is read first. -/
theorem readChannel_status (h : s.statusLatched = true) (now : BitVec 64) :
    readChannel s now = (s.status, { s with statusLatched := false }) := if_pos h

/-- **A data read takes the first latched byte.** -/
theorem readChannel_latched (hstatus : s.statusLatched = false) {x : BitVec 8}
    {rest : List (BitVec 8)} (h : s.latched = x :: rest) (now : BitVec 64) :
    (readChannel s now).1 = x ∧ (readChannel s now).2.latched = rest := by
  have hlatched : s.countLatched ≠ 0 := by
    intro hzero
    rw [PITChannelState.latched, if_pos hzero] at h
    exact absurd h nofun
  rw [PITChannelState.latched, if_neg hlatched] at h
  rw [readChannel, if_neg (by rw [hstatus]; exact Bool.false_ne_true), if_pos hlatched]
  split
  · rename_i hmsb
    rw [hmsb] at h
    cases h
    exact ⟨rfl, rfl⟩
  · rename_i hmsb
    split
    · rename_i hword
      rw [hword] at h
      cases h
      exact ⟨rfl, rfl⟩
    · rename_i hword
      have hlow : latchedBytes s.countLatched s.latchedCount = [lowByte s.latchedCount] := by
        rw [latchedBytes]
        · exact fun h2 ↦ hmsb h2
        · exact fun h3 ↦ hword h3
      rw [hlow] at h
      cases h
      exact ⟨rfl, rfl⟩

/-- What latching latches. -/
theorem latched_pitLatchCount (hlatched : s.countLatched = 0) (hmode : s.rwMode ≠ 0)
    (now : BitVec 64) :
    (pitLatchCount s now).latched = latchedBytes s.rwMode (countAt s now) := by
  rw [pitLatchCount, if_pos hlatched, PITChannelState.latched]
  exact if_neg hmode

/-! ## The order of unlatched reads -/

/-- What an unlatched read does to `read_state`. -/
def nextReadState (readState : ℕ) : ℕ :=
  if readState = rwStateWord0 then rwStateWord1
  else if readState = rwStateWord1 then rwStateWord0
  else readState

/-- The byte an unlatched read gives. -/
def byteOf (readState : ℕ) (v : BitVec 16) : BitVec 8 :=
  if readState = rwStateMsb ∨ readState = rwStateWord1 then highByte v else lowByte v

/-- Neither a status nor a count is latched. -/
def PITChannelState.Unlatched (s : PITChannelState) : Prop :=
  s.statusLatched = false ∧ s.countLatched = 0

/-- **An unlatched read** gives the byte whose turn it is, and only moves `read_state`. -/
theorem readChannel_unlatched (h : s.Unlatched) (now : BitVec 64) :
    (readChannel s now).1 = byteOf s.readState (countAt s now) ∧
      (readChannel s now).2.readState = nextReadState s.readState := by
  rw [readChannel, if_neg (by rw [h.1]; exact Bool.false_ne_true),
    if_neg (not_not.mpr h.2), byteOf, nextReadState]
  split
  · rename_i hmsb
    rw [hmsb]
    exact ⟨rfl, rfl⟩
  · rename_i hmsb
    split
    · rename_i hword
      rw [hword]
      exact ⟨rfl, rfl⟩
    · rename_i hword
      split
      · rename_i hword'
        rw [hword']
        exact ⟨rfl, rfl⟩
      · rename_i hword'
        rw [if_neg (not_or.mpr ⟨hmsb, hword'⟩)]
        exact ⟨rfl, rfl⟩

/-- **Reading what is latched does not move `read_state`.** -/
theorem readState_readChannel (h : ¬s.Unlatched) (now : BitVec 64) :
    (readChannel s now).2.readState = s.readState := by
  rw [readChannel]
  split
  · rfl
  · rename_i hstatus
    rw [if_pos fun hzero ↦ h ⟨by simpa using hstatus, hzero⟩]
    repeat' split
    all_goals rfl

theorem readState_rearm (s : PITChannelState) (time : BitVec 64) :
    (s.rearm time).readState = s.readState := by
  rw [PITChannelState.rearm]
  split <;> rfl

theorem readState_pitLatchCount (s : PITChannelState) (now : BitVec 64) :
    (pitLatchCount s now).readState = s.readState := by
  rw [pitLatchCount]
  split <;> rfl

theorem readState_write (s : PITChannelState) (val : BitVec 8) (now : BitVec 64) :
    (s.write val now).readState = s.readState := by
  rw [PITChannelState.write]
  repeat' split
  · exact readState_rearm _ now
  · rfl
  · exact readState_rearm _ now
  · exact readState_rearm _ now

theorem readState_readBack (s : PITChannelState) (val : BitVec 8) (now now' : BitVec 64) :
    (readBack s i val now now').readState = s.readState := by
  have hlatch : (if val &&& 0x20 = 0 then pitLatchCount s now else s).readState = s.readState := by
    split
    · exact readState_pitLatchCount s now
    · rfl
  rw [readBack]
  generalize (if val &&& 0x20 = 0 then pitLatchCount s now else s) = s' at hlatch ⊢
  split
  · dsimp only
    split <;> exact hlatch
  · rfl

/-- **Only unlatched reads and control words move `read_state`.** -/
theorem readState_access {b : Access} (hprogram : ¬b.Programs) (hread : ∀ now, b ≠ .read now) :
    (s.access i b).readState = s.readState := by
  cases b with
  | read now => exact absurd rfl (hread now)
  | write val now => exact readState_write s val now
  | command val now =>
    have haccess : val.toNat / 16 % 4 = 0 := not_not.mp hprogram
    change (command s val now).readState = s.readState
    rw [command, if_pos haccess]
    exact readState_pitLatchCount s now
  | readBack val now now' => exact readState_readBack s val now now'
  | timer => exact readState_rearm s _

/-! ## Runs -/

variable {pit : PITCommonState} {a : Label}

theorem readOf_of_read {now : BitVec 64} (h : a.on i = some (.read now)) :
    pit.readOf i a = some (readChannel (pit.channels i) now).1 := by
  cases a with
  | portIn addr now' =>
    rw [Label.on] at h
    split at h
    · rename_i haddr
      cases h
      rw [PITCommonState.readOf, if_pos haddr, pitIoportRead, haddr]
      fin_cases i <;> rfl
    · cases h
  | portOut addr val clock clock' =>
    rw [Label.on] at h
    repeat' split at h
    all_goals cases h
  | timer =>
    rw [Label.on] at h
    split at h <;> cases h

theorem readOf_of_not_read (h : ∀ now, a.on i ≠ some (.read now)) : pit.readOf i a = none := by
  cases a with
  | portIn addr now =>
    have haddr : ¬addr % 4 = i := fun haddr ↦ h now (if_pos haddr)
    exact if_neg haddr
  | portOut addr val clock clock' => rfl
  | timer => rfl

/-- An event reads the channel, or is another access to it, or is none. -/
theorem on_cases (i : Fin 3) (a : Label) : (∃ now, a.on i = some (.read now)) ∨
    (∀ now, a.on i ≠ some (.read now)) ∧ (a.on i = none ∨
      ∃ b, a.on i = some b ∧ ∀ now, b ≠ .read now) := by
  cases h : a.on i with
  | none => exact .inr ⟨fun _ ↦ nofun, .inl rfl⟩
  | some b =>
    by_cases hread : ∃ now, b = .read now
    · obtain ⟨now, rfl⟩ := hread
      exact .inl ⟨now, rfl⟩
    · have hne : ∀ now, b ≠ .read now := fun now hb ↦ hread ⟨now, hb⟩
      exact .inr ⟨fun now hb ↦ hne now (Option.some.inj hb), .inr ⟨b, rfl, hne⟩⟩

/-- **What is latched is what is read next.** -/
theorem dataReads_latched (pit : PITCommonState) (as : List Label) :
    dataReads i pit as <+: (pit.channels i).latched ∨
      (pit.channels i).latched <+: dataReads i pit as := by
  induction as generalizing pit with
  | nil => exact .inl (List.nil_prefix)
  | cons a as ih =>
    cases hlatched : (pit.channels i).latched with
    | nil => exact .inr List.nil_prefix
    | cons x rest =>
      have hih := ih (pit.next a)
      rw [dataReads]
      rcases on_cases i a with ⟨now, hon⟩ | ⟨hnot, hon⟩
      · have hnext : (pit.next a).channels i = (readChannel (pit.channels i) now).2 := by
          rw [channels_next, hon]
          rfl
        rw [hnext] at hih
        rw [readOf_of_read hon]
        split
        · rename_i hstatus
          rw [readChannel_status hstatus] at hih
          rw [← hlatched]
          exact hih
        · rename_i hstatus
          obtain ⟨hbyte, hrest⟩ :=
            readChannel_latched (Bool.not_eq_true _ ▸ hstatus) hlatched now
          rw [hrest] at hih
          rw [hbyte, Option.toList_some, List.singleton_append]
          exact hih.imp (fun h ↦ (List.prefix_cons_inj x).mpr h)
            fun h ↦ (List.prefix_cons_inj x).mpr h
      · have hsame : ((pit.next a).channels i).latched = x :: rest := by
          rw [channels_next]
          rcases hon with hon | ⟨b, hon, hb⟩
          · rw [hon]
            exact hlatched
          · rw [hon, ← hlatched]
            exact latched_access (by rw [hlatched]; exact List.cons_ne_nil _ _) hb
        rw [hsame] at hih
        rw [readOf_of_not_read hnot, Option.toList_none, ite_self, List.nil_append]
        exact hih

/-- **Unlatched reads take turns**, whatever comes between them. -/
theorem unlatchedReads_turn (as : List Label) (hno : ∀ a ∈ as, ¬a.Programs i) (k : ℕ)
    (pit : PITCommonState) (x : BitVec 8 × BitVec 16)
    (hx : (unlatchedReads i pit as)[k]? = some x) :
    x.1 = byteOf (nextReadState^[k] (pit.channels i).readState) x.2 := by
  induction as generalizing pit k with
  | nil => exact absurd hx (by simp [unlatchedReads])
  | cons a as ih =>
    have hno' : ∀ a ∈ as, ¬a.Programs i := fun a ha ↦ hno a (List.mem_cons_of_mem _ ha)
    rw [unlatchedReads] at hx
    rcases on_cases i a with ⟨now, hon⟩ | ⟨hnot, hon⟩
    · rw [hon, readOf_of_read hon] at hx
      have hnext : (pit.next a).channels i = (readChannel (pit.channels i) now).2 := by
        rw [channels_next, hon]
        rfl
      by_cases hfree : (pit.channels i).Unlatched
      · have hpiece : ((pit.channels i).statusLatched ||
            decide ((pit.channels i).countLatched ≠ 0)) = false := by
          rw [hfree.1, hfree.2]
          rfl
        obtain ⟨hbyte, hturn⟩ := readChannel_unlatched hfree now
        simp only [hpiece, Bool.false_eq_true, if_false, List.singleton_append] at hx
        cases k with
        | zero =>
          cases hx
          exact hbyte
        | succ k =>
          rw [Function.iterate_succ_apply, ← hturn, ← hnext]
          exact ih hno' k (pit.next a) hx
      · have hpiece : ((pit.channels i).statusLatched ||
            decide ((pit.channels i).countLatched ≠ 0)) = true := by
          by_contra h
          rw [Bool.not_eq_true, Bool.or_eq_false_iff] at h
          exact hfree ⟨h.1, by simpa using h.2⟩
        simp only [hpiece, if_true, List.nil_append] at hx
        rw [← readState_readChannel hfree now, ← hnext]
        exact ih hno' k (pit.next a) hx
    · have hsame : ((pit.next a).channels i).readState = (pit.channels i).readState := by
        rw [channels_next]
        rcases hon with hon | ⟨b, hon, hb⟩
        · rw [hon]
          rfl
        · rw [hon]
          exact readState_access (fun hb ↦ hno a List.mem_cons_self ⟨b, hon, hb⟩) hb
      rw [readOf_of_not_read hnot] at hx
      rw [← hsame]
      refine ih hno' k (pit.next a) ?_
      rw [← hx]
      cases a.on i with
      | none => rfl
      | some b => cases b <;> rfl

end

/-! ## Programmed channels -/

/-- Only control words change the access mode, and they select one. -/
theorem rwMode_access {i : Fin 3} {s : PITChannelState} (b : Access) :
    (b.Programs → (s.access i b).rwMode ≠ 0) ∧
      (¬b.Programs → (s.access i b).rwMode = s.rwMode) := by
  constructor
  · intro h
    cases b with
    | command val now =>
      have haccess : val.toNat / 16 % 4 ≠ 0 := h
      change (command s val now).rwMode ≠ 0
      rw [command, if_neg haccess]
      exact haccess
    | _ => exact absurd h id
  · intro h
    cases hwrite : b.written with
    | none => exact (sameCounting_access hwrite h).rwMode
    | some v =>
      cases b with
      | write val now =>
        change (s.write val now).rwMode = s.rwMode
        rw [PITChannelState.write]
        repeat' split
        · exact (load_fields s _ now).2.2.2.1
        · rfl
        · exact (load_fields s _ now).2.2.2.1
        · exact (load_fields s _ now).2.2.2.1
      | _ => exact absurd hwrite (Option.some_ne_none v).symm

/-- **A channel that was programmed once has an access mode.** -/
theorem rwMode_programmed {i : Fin 3} {w : Label} (hw : w.Programs i) {before : List Label}
    {pit₀ pit : PITCommonState} (h : Run Step pit₀ (w :: before) pit) :
    (pit.channels i).rwMode ≠ 0 := by
  obtain ⟨b, hon, hb⟩ := hw
  have hstart : ((pit₀.next w).channels i).rwMode ≠ 0 := by
    rw [channels_next, Option.mem_def.mp hon]
    exact (rwMode_access b).1 hb
  have hnext : ∀ pit : PITCommonState, (pit.channels i).rwMode ≠ 0 → ∀ a : Label,
      ((pit.next a).channels i).rwMode ≠ 0 := by
    intro pit hmode a
    rw [channels_next]
    cases a.on i with
    | none => exact hmode
    | some b =>
      by_cases hprograms : b.Programs
      · exact (rwMode_access b).1 hprograms
      · change ((pit.channels i).access i b).rwMode ≠ 0
        rw [(rwMode_access b).2 hprograms]
        exact hmode
  rw [h.eq_foldl, List.foldl_cons]
  clear h
  generalize pit₀.next w = pit₁ at hstart
  induction before generalizing pit₁ with
  | nil => exact hstart
  | cons a before ih => exact ih (pit₁.next a) (hnext pit₁ hstart a)

/-- **What latching latches**, in a channel that has nothing latched and an access mode. -/
theorem latched_of_latches {i : Fin 3} {pit : PITCommonState} {a : Label} {t : BitVec 64}
    (ha : a.Latches i t) (hlatched : (pit.channels i).countLatched = 0)
    (hmode : (pit.channels i).rwMode ≠ 0) :
    ((pit.next a).channels i).latched =
      latchedBytes (pit.channels i).rwMode (countAt (pit.channels i) t) := by
  have hlatch := latched_pitLatchCount hlatched hmode t
  rw [← hlatch, channels_next]
  rcases ha with ⟨val, hon, haccess⟩ | ⟨val, now', hon, hselect, hcount⟩
  · rw [hon]
    change (command (pit.channels i) val t).latched = _
    rw [command, if_pos haccess]
  · rw [hon]
    change (readBack (pit.channels i) i val t now').latched = _
    rw [readBack, if_pos hselect, if_pos hcount]
    dsimp only
    split <;> rfl

/-- The turns of unlatched reads, by the access mode. -/
theorem byteOf_iterate {r : ℕ} (hr : r ≠ 0) (hlt : r < 4) (k : ℕ) (v : BitVec 16) :
    byteOf (nextReadState^[k] r) v = unlatchedByte r k v := by
  have hfixed : ∀ r, nextReadState r = r → nextReadState^[k] r = r :=
    fun r h ↦ Function.iterate_fixed h k
  match r with
  | 0 => exact absurd rfl hr
  | 1 =>
    rw [hfixed 1 rfl]
    rfl
  | 2 =>
    rw [hfixed 2 rfl]
    rfl
  | 3 =>
    have hturn : nextReadState^[k] 3 = if k % 2 = 0 then 3 else 4 := by
      induction k with
      | zero => rfl
      | succ k ih =>
        rw [Function.iterate_succ_apply', ih fun r h ↦ Function.iterate_fixed h k]
        by_cases heven : k % 2 = 0
        · rw [if_pos heven, if_neg (by omega)]
          rfl
        · rw [if_neg heven, if_pos (by omega)]
          rfl
    rw [hturn, unlatchedByte]
    split <;> rfl
  | r + 4 => omega

/-- **Latched reads are consistent snapshots.**  When the count of a programmed channel is latched
and none was, the next data reads of the channel, whatever comes between them, give the bytes of the
count at that moment, as the access mode of that moment has them.  A latched status is read first,
and takes nothing else away.  And after a control word, reads of what is not latched take turns as
its access mode says, whatever latched bytes are read in between. -/
theorem latched_snapshot (i : Fin 3) :
    (∀ (pit₀ pit : PITCommonState) (w : Label) (before : List Label), w.Programs i →
      Run Step pit₀ (w :: before) pit → ∀ (a : Label) (t : BitVec 64), a.Latches i t →
      (pit.channels i).countLatched = 0 → ∀ as : List Label,
      dataReads i (pit.next a) as <+:
          latchedBytes (pit.channels i).rwMode (countAt (pit.channels i) t) ∨
        latchedBytes (pit.channels i).rwMode (countAt (pit.channels i) t) <+:
          dataReads i (pit.next a) as) ∧
    (∀ (pit : PITCommonState) (a : Label) (byte : BitVec 8), pit.readOf i a = some byte →
      (pit.channels i).statusLatched = true →
      byte = (pit.channels i).status ∧
        (pit.next a).channels i = { pit.channels i with statusLatched := false }) ∧
    ∀ (pit : PITCommonState) (w : Label) (val : BitVec 8) (now : BitVec 64) (as : List Label),
      w.on i = some (.command val now) → val.toNat / 16 % 4 ≠ 0 → (∀ a ∈ as, ¬a.Programs i) →
      ∀ (k : ℕ) (x : BitVec 8 × BitVec 16), (unlatchedReads i (pit.next w) as)[k]? = some x →
        x.1 = unlatchedByte (val.toNat / 16 % 4) k x.2 := by
  refine ⟨?_, ?_, ?_⟩
  · intro pit₀ pit w before hw hrun a t ha hlatched as
    rw [← latched_of_latches ha hlatched (rwMode_programmed hw hrun)]
    exact dataReads_latched (pit.next a) as
  · intro pit a byte hread hstatus
    rcases on_cases i a with ⟨now, hon⟩ | ⟨hnot, -⟩
    · rw [readOf_of_read hon, readChannel_status hstatus] at hread
      refine ⟨(Option.some.inj hread).symm, ?_⟩
      rw [channels_next, hon]
      exact congrArg Prod.snd (readChannel_status hstatus now)
    · rw [readOf_of_not_read hnot] at hread
      exact absurd hread nofun
  · intro pit w val now as hw hr hno k x hx
    have hturn := unlatchedReads_turn as hno k (pit.next w) x hx
    have hstart : ((pit.next w).channels i).readState = val.toNat / 16 % 4 := by
      rw [channels_next, hw]
      change (command (pit.channels i) val now).readState = _
      rw [command, if_neg hr]
    rw [hstart, byteOf_iterate hr (Nat.mod_lt _ (by decide))] at hturn
    exact hturn

/-- Events at one time. -/
def writeAt (addr : ℕ) (val : BitVec 8) (t : BitVec 64) : Label :=
  .portOut addr val (fun _ ↦ t) fun _ ↦ t

/-- The first channel, counting 1000 in mode 2 from 200 ns on. -/
def counting1000 : List Label := [writeAt 3 0x34 0, writeAt 0 0xe8 100, writeAt 0 0x03 200]

/-- A count latched after a millisecond is 808, though another is loaded between its bytes. -/
theorem latched_snapshot_reload :
    let pit := counting1000.foldl PITCommonState.next (pitPreInit 0 fun _ ↦ 0)
    let reads := dataReads 0 (pit.next (writeAt 3 0x00 1000000))
      [.portIn 0 1000100, writeAt 0 0x10 1000200, writeAt 0 0x27 1000300, .portIn 0 1000400]
    reads <+: [0x28, 0x03] ∨ [0x28, 0x03] <+: reads :=
  (latched_snapshot 0).1 (pitPreInit 0 fun _ ↦ 0) _ (writeAt 3 0x34 0)
    [writeAt 0 0xe8 100, writeAt 0 0x03 200] (by decide) (run_foldl (by decide)) _ 1000000
    (.inl ⟨0x00, rfl, rfl⟩) rfl _

end Pit
end CamkesVm
