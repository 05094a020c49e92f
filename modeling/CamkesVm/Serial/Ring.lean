import CamkesVm.Lib.Cyclic
import CamkesVm.Serial.Port

/-!
# The ring of received characters

The characters for the guest arrive in `serial_getchar_buf`, a page that the serial server shares
with the device.  The server writes at `tail` and the device reads at `head`; a ring with equal ends
is empty, so one slot is never used.  `GetcharBuf` has the two ends with their bounds, and
`contents` is the list of the characters in it.

`Serial.Port` has the two loops over the ring with the list in its place.  Here are the loops of the
source, over the ring itself, and the proof that they come to the same
(`serialCharacterInterrupt_eq`, `serialTimerInterrupt_eq`).  The page is volatile, and the server
may store a character while a loop runs; a character that the loop still finds might as well have
been there before, and one that it does not find might as well have come after.

## What is here

* `GetcharBuf` — the page, with its two ends in range, and `contents`, the characters between them.
* `GetcharBuf.enqueue` — what the server does, in words of the model: the server is not in the
  repository, and is taken to store only while the ring is not full.
* `serialBufferDequeue`, `receiveLoop`, `serialCharacterInterrupt`, `serialTimerInterrupt` — the
  functions of the source over the ring.
* `contents_enqueue`, `serialBufferDequeue_cases`, `receiveLoop_eq` — the ring is the list.

The general facts on cyclic indices are the library's.
-/

set_option autoImplicit false

namespace CamkesVm
namespace Serial

open Cyclic

/-- `sizeof(buffer->buf)` -/
def getcharBufSize : ℕ := 4096 - 8

/-- The page shared with the serial server. -/
structure GetcharBuf where
  /-- The slot that is read next. -/
  head : ℕ
  /-- The slot that is written next. -/
  tail : ℕ
  /-- The slots. -/
  buf : ℕ → BitVec 8
  /-- The read end is a slot. -/
  head_lt : head < getcharBufSize
  /-- So is the write end. -/
  tail_lt : tail < getcharBufSize

namespace GetcharBuf

/-- The page as it is mapped: all zero. -/
def empty : GetcharBuf where
  head := 0
  tail := 0
  buf := fun _ ↦ 0
  head_lt := by decide
  tail_lt := by decide

theorem next_lt (i : ℕ) : (i + 1) % getcharBufSize < getcharBufSize := Nat.mod_lt _ (by decide)

/-- The characters in the ring, oldest first. -/
def contents (b : GetcharBuf) : List (BitVec 8) :=
  window getcharBufSize b.buf b.head (span getcharBufSize b.head b.tail)

/-- There is no slot left to write: the ends would meet. -/
def Full (b : GetcharBuf) : Prop := (b.tail + 1) % getcharBufSize = b.head

instance (b : GetcharBuf) : Decidable b.Full := inferInstanceAs (Decidable (_ = _))

/-- What the serial server does with a character: it stores it and advances `tail`. -/
def enqueue (b : GetcharBuf) (c : BitVec 8) : GetcharBuf :=
  { b with
    buf := Function.update b.buf b.tail c
    tail := (b.tail + 1) % getcharBufSize
    tail_lt := next_lt _ }

/-- `serial_buffer_dequeue` -/
def serialBufferDequeue (b : GetcharBuf) : Option (BitVec 8 × GetcharBuf) :=
  if b.head ≠ b.tail then
    some (b.buf b.head, { b with head := (b.head + 1) % getcharBufSize, head_lt := next_lt _ })
  else none

/-- `while (serial_can_receive(s) && serial_buffer_dequeue(&c))`, for at most `fuel` rounds. -/
def receiveLoop (s : SerialState) (now : BitVec 64) : ℕ → GetcharBuf → SerialState × GetcharBuf
  | 0, b => (s, b)
  | fuel + 1, b =>
    if serialCanReceive s = 0 then (s, b)
    else match serialBufferDequeue b with
      | none => (s, b)
      | some (c, b) => receiveLoop (serialReceive1 s now c) now fuel b

/-- `serial_character_interrupt` -/
def serialCharacterInterrupt (s : SerialState) (now : BitVec 64) (b : GetcharBuf) :
    SerialState × GetcharBuf :=
  let (s, b) := receiveLoop s now getcharBufSize b
  -- a timeout, so as to go and get more characters later
  (if serialCanReceive s = 0 then s.emit (.oneshotRelative .moreChars 3000000) else s, b)

/-- `serial_timer_interrupt` -/
def serialTimerInterrupt (s : SerialState) (completed : Completed) (t : Times) (b : GetcharBuf) :
    SerialState × GetcharBuf :=
  let s := if completed.fifoTimeout then fifoTimeoutInt s else s
  let s := if completed.transmit then serialXmit { s with charsSent := 0 } t else s
  let s := if completed.modemStatus then serialUpdateMsl s else s
  if completed.moreChars then serialCharacterInterrupt s t.received b else (s, b)

/-! ## The ring as a list -/

@[simp] theorem contents_empty : empty.contents = [] := rfl

theorem length_contents_lt (b : GetcharBuf) : b.contents.length < getcharBufSize := by
  rw [contents, length_window]
  exact span_lt (by decide) _ _

theorem contents_eq_nil {b : GetcharBuf} (h : b.head = b.tail) : b.contents = [] := by
  rw [contents, (span_eq_zero_iff b.head_lt b.tail_lt).mpr h, window_zero]

/-- **The server appends** a character, if the ring is not full. -/
theorem contents_enqueue {b : GetcharBuf} (c : BitVec 8) (h : ¬b.Full) :
    (b.enqueue c).contents = b.contents ++ [c] := by
  have hspan := span_succ_right b.head_lt b.tail_lt h
  have hroom : span getcharBufSize b.head b.tail < getcharBufSize := span_lt (by decide) _ _
  have hend := add_span_mod b.head_lt b.tail_lt
  rw [contents, contents, ← window_update_succ b.buf c hroom, hend, ← hspan]
  rfl

/-- **The device takes off the oldest character**, and finds none if there is none. -/
theorem serialBufferDequeue_cases (b : GetcharBuf) :
    (serialBufferDequeue b = none ∧ b.contents = []) ∨
      ∃ c b', serialBufferDequeue b = some (c, b') ∧ b.contents = c :: b'.contents := by
  by_cases h : b.head = b.tail
  · exact .inl ⟨if_neg (not_not.mpr h), contents_eq_nil h⟩
  · refine .inr ⟨_, _, if_pos h, ?_⟩
    rw [contents, contents, span_succ_left b.head_lt b.tail_lt h, window_succ,
      Nat.mod_eq_of_lt b.head_lt, window_mod]

/-! ## The loops over it -/

/-- **The loop over the ring is the loop over the list**, given as many rounds as there are
characters. -/
theorem receiveLoop_eq (s : SerialState) (now : BitVec 64) {fuel : ℕ} {b : GetcharBuf}
    (h : b.contents.length ≤ fuel) :
    ((receiveLoop s now fuel b).1, (receiveLoop s now fuel b).2.contents)
      = Serial.receiveLoop s now b.contents := by
  induction fuel generalizing s b with
  | zero =>
    rw [List.length_eq_zero_iff.mp (Nat.le_zero.mp h), receiveLoop, Serial.receiveLoop]
    rw [List.length_eq_zero_iff.mp (Nat.le_zero.mp h)]
  | succ fuel ih =>
    rw [receiveLoop]
    rcases serialBufferDequeue_cases b with ⟨hnone, hnil⟩ | ⟨c, b', hsome, hcons⟩
    · rw [hnone, hnil, Serial.receiveLoop]
      split <;> rw [hnil]
    · rw [hsome, hcons, Serial.receiveLoop]
      rw [hcons, List.length_cons] at h
      split
      · rw [hcons]
      · exact ih (serialReceive1 s now c) (by omega)

/-- **The handler of the signal**, over the ring and over the list. -/
theorem serialCharacterInterrupt_eq (s : SerialState) (now : BitVec 64) (b : GetcharBuf) :
    ((serialCharacterInterrupt s now b).1, (serialCharacterInterrupt s now b).2.contents)
      = Serial.serialCharacterInterrupt s now b.contents := by
  have hloop := receiveLoop_eq s now b.length_contents_lt.le
  rw [Serial.serialCharacterInterrupt, ← hloop]
  rfl

/-- **The handler of the timers**, over the ring and over the list. -/
theorem serialTimerInterrupt_eq (s : SerialState) (completed : Completed) (t : Times)
    (b : GetcharBuf) :
    ((serialTimerInterrupt s completed t b).1, (serialTimerInterrupt s completed t b).2.contents)
      = Serial.serialTimerInterrupt s completed t b.contents := by
  simp only [serialTimerInterrupt, Serial.serialTimerInterrupt]
  split
  · exact serialCharacterInterrupt_eq _ t.received b
  · rfl

theorem serialCharacterInterrupt_fst (s : SerialState) (now : BitVec 64) (b : GetcharBuf) :
    (serialCharacterInterrupt s now b).1 = (Serial.serialCharacterInterrupt s now b.contents).1 :=
  congrArg Prod.fst (serialCharacterInterrupt_eq s now b)

theorem serialCharacterInterrupt_snd (s : SerialState) (now : BitVec 64) (b : GetcharBuf) :
    (serialCharacterInterrupt s now b).2.contents
      = (Serial.serialCharacterInterrupt s now b.contents).2 :=
  congrArg Prod.snd (serialCharacterInterrupt_eq s now b)

theorem serialTimerInterrupt_fst (s : SerialState) (completed : Completed) (t : Times)
    (b : GetcharBuf) : (serialTimerInterrupt s completed t b).1
      = (Serial.serialTimerInterrupt s completed t b.contents).1 :=
  congrArg Prod.fst (serialTimerInterrupt_eq s completed t b)

theorem serialTimerInterrupt_snd (s : SerialState) (completed : Completed) (t : Times)
    (b : GetcharBuf) : (serialTimerInterrupt s completed t b).2.contents
      = (Serial.serialTimerInterrupt s completed t b.contents).2 :=
  congrArg Prod.snd (serialTimerInterrupt_eq s completed t b)

end GetcharBuf

end Serial
end CamkesVm
