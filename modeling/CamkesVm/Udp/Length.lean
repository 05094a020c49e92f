import CamkesVm.Udp.Send
import Mathlib.Data.List.GetD

/-!
# The length of a datagram at both ends

Four places look at the length of a datagram.  The receiving server copies the whole chain of a
`pbuf` into the client's buffer of 4096 bytes, whatever its length; the client's stub asserts
afterwards that the length is below 4096.  The sending stub cuts a buffer off at 4096 bytes; the
server sends nothing unless the length is below 4096.

So all goes well below the limit, and only there (`lengths_agree_iff`): a datagram of 4096 bytes
stops the client that polls it, a longer one is written past the end of the buffer as well, and of
a buffer of 4096 bytes or more nothing is sent while the stub returns 4096.

## What is here

* `UdpMessage.payload`, `copyChain_eq` — a message as bytes, and the loop that copies it.
* `ReplyFits`, `replyFits_iff` — one poll: the stub's assertion holds and the copy stays inside the
  buffer.
* `echo`, `Safe`, `Safe.next` — a client that sends back what it gets, and what holds while all
  datagrams are short.
* `LengthsAgree`, `lengths_agree_iff` — both directions and the loop between them, in the light of
  the limit.

The buffer of the model goes on after its 4096 bytes so that a write there shows: what lies behind
it belongs to somebody else, and `Safe` says that it has not changed.
-/

set_option autoImplicit false

namespace CamkesVm
namespace Udp

open Transition

/-! ## Receiving -/

/-- Copying two pieces, one behind the other, is copying them joined. -/
theorem memcpy_append (buf : ℕ → Byte) (offset : ℕ) (q r : List Byte) :
    memcpy (memcpy buf offset q) (offset + q.length) r = memcpy buf offset (q ++ r) := by
  funext k
  simp only [memcpy]
  by_cases hk : offset + q.length ≤ k
  · rw [if_pos hk, if_pos (by omega), if_pos (by omega)]
    rw [List.getD_append_right _ _ _ _ (by omega)]
    congr 1
    · omega
    · exact List.getD_eq_default _ _ (by omega)
  · rw [if_neg hk]
    split
    · rw [List.getD_append _ _ _ _ (by omega)]
    · rfl

/-- **The loop over the chain** copies all of it, and counts it. -/
theorem copyChain_eq (buf : ℕ → Byte) (packetLen : ℕ) (chain : List (List Byte)) :
    copyChain buf packetLen chain =
      (memcpy buf packetLen chain.flatten, packetLen + chain.flatten.length) := by
  induction chain generalizing buf packetLen with
  | nil =>
    refine Prod.ext (funext fun k ↦ ?_) rfl
    simp [copyChain, memcpy]
  | cons q chain ih =>
    rw [copyChain, ih, memcpy_append, List.flatten_cons, List.length_append, Nat.add_assoc]

/-- Nothing behind the bytes that are copied changes. -/
theorem memcpy_of_le {buf : ℕ → Byte} {bytes : List Byte} {k : ℕ} (h : bytes.length ≤ k) :
    memcpy buf 0 bytes k = buf k := by
  rw [memcpy, if_pos (Nat.zero_le k)]
  exact List.getD_eq_default _ _ (by omega)

/-- The client's stub goes on exactly if the length is below the limit. -/
theorem afterPoll_ne_aborted_iff {len status : ℕ} :
    afterPoll len status ≠ .aborted ↔ len < 4096 := by
  simp only [afterPoll]
  split
  · simp only [ne_eq, not_true_eq_false, false_iff]
    omega
  · split <;> simp only [ne_eq, reduceCtorEq, not_false_eq_true, true_iff] <;> omega

/-- What a message carries. -/
def UdpMessage.payload (m : UdpMessage) : List Byte := (m.pbuf.getD []).flatten

/-- The reply to a poll is one the client accepts, and it was copied without leaving the buffer. -/
def ReplyFits (s : State) : Prop :=
  s.poll.waiter ≠ .aborted ∧ ∀ k, 4096 ≤ k → s.poll.buf k = s.buf k

/-- **A reply fits exactly if the datagram is below the limit.** -/
theorem replyFits_iff {s : State} {m : ℤ} (h : s.client.usedHead = some m) :
    ReplyFits s ↔ (s.client.messageMemory m).payload.length < 4096 := by
  rw [ReplyFits, poll_some h]
  dsimp only
  rw [copyChain_eq, afterPoll_ne_aborted_iff]
  refine and_iff_left_of_imp fun hlt k hk ↦ ?_
  exact memcpy_of_le (Nat.le_trans (Nat.le_of_lt hlt) hk)

/-- With nothing to return, the client waits and the buffer is left alone. -/
theorem replyFits_of_none {s : State} (h : s.client.usedHead = none) : ReplyFits s := by
  rw [ReplyFits, poll_none h]
  exact ⟨by simp, fun _ _ ↦ rfl⟩

/-! ## The echo loop -/

/-- What the loop of `Echo` does with a reply: it sends the bytes of its buffer back.  The result is
what the stub returns and what was sent. -/
def echo (clients : List SendClient) (i : Fin clients.length) (buf : ℕ → Byte) (r : Reply) :
    BitVec 32 × Option Sent :=
  send clients i buf (fun k ↦ r.bytes.getD k 0) (BitVec.ofNat 32 r.bytes.length) r.addr true

/-- A reply is echoed: all its bytes go back to where they came from, and the stub says so. -/
def Echoed (clients : List SendClient) (r : Reply) : Prop :=
  ∀ (i : Fin clients.length) (buf : ℕ → Byte), ∃ sent,
    echo clients i buf r = (BitVec.ofNat 32 r.bytes.length, some sent) ∧
      sent.payload = r.bytes ∧ sent.addr = r.addr

theorem echoed_of_lt (clients : List SendClient) {r : Reply} (h : r.bytes.length < 4096) :
    Echoed clients r := by
  intro i buf
  have hlen : (BitVec.ofNat 32 r.bytes.length).toNat = r.bytes.length := by
    rw [BitVec.toNat_ofNat]
    exact Nat.mod_eq_of_lt (by omega)
  obtain ⟨sent, hsend, hpayload, haddr⟩ := @send_of_lt clients i buf (fun k ↦ r.bytes.getD k 0)
    (BitVec.ofNat 32 r.bytes.length) r.addr (by omega)
  refine ⟨sent, hsend, ?_, haddr⟩
  rw [hpayload, hlen]
  refine List.ext_getElem (by simp) fun k hk hk' ↦ ?_
  simp [List.getD_eq_getElem?_getD, List.getElem?_eq_getElem hk']

/-- The client has not stopped, nothing was written past the buffer, and every reply is echoed. -/
structure Safe (clients : List SendClient) (buf : ℕ → Byte) (s : State) : Prop where
  /-- No assertion failed. -/
  running : s.waiter ≠ .aborted
  /-- What lies behind the buffer is as it was. -/
  inside : ∀ k, 4096 ≤ k → s.buf k = buf k
  /-- The replies so far are echoed. -/
  echoed : ∀ r ∈ s.returned, Echoed clients r

section

variable {bufs : ℕ} {clients : List SendClient} {buf : ℕ → Byte} {s : State}

theorem waiter_udprecv (d : Datagram) : (s.udprecv d).waiter = s.waiter := by
  rw [State.udprecv]
  split <;> rfl

theorem buf_udprecv (d : Datagram) : (s.udprecv d).buf = s.buf := by
  rw [State.udprecv]
  split <;> rfl

theorem returned_udprecv (d : Datagram) : (s.udprecv d).returned = s.returned := by
  rw [State.udprecv]
  split <;> rfl

/-- **A poll keeps things safe** as long as the datagrams accepted are below the limit. -/
theorem Safe.poll (hsafe : Safe clients buf s) (hinv : Inv bufs s)
    (hshort : ∀ d ∈ s.accepted, d.pbuf.flatten.length < 4096) : Safe clients buf s.poll := by
  cases hhead : s.client.usedHead with
  | none =>
    obtain ⟨hrun, hinside⟩ := replyFits_of_none hhead
    refine ⟨hrun, fun k hk ↦ (hinside k hk).trans (hsafe.inside k hk), ?_⟩
    rw [poll_none hhead]
    exact hsafe.echoed
  | some m =>
    have hlen := hinv.replyOf_lt hshort hhead
    obtain ⟨hrun, hinside⟩ := (replyFits_iff hhead).mpr hlen
    refine ⟨hrun, fun k hk ↦ (hinside k hk).trans (hsafe.inside k hk), ?_⟩
    intro r hr
    rw [returned_poll_of_lt hhead hlen] at hr
    rcases List.mem_append.mp hr with hr | hr
    · exact hsafe.echoed r hr
    · rw [List.mem_singleton.mp hr]
      exact echoed_of_lt clients hlen

/-- The datagrams accepted so far stay accepted. -/
theorem accepted_next (s : State) (a : Event) : ∀ d ∈ s.accepted, d ∈ (next s a).accepted := by
  intro d hd
  cases a with
  | udprecv d' =>
    change d ∈ (s.udprecv d').accepted
    rw [State.udprecv]
    split
    · exact hd
    · exact List.mem_append_left _ hd
  | wake => exact hd
  | poll =>
    change d ∈ s.poll.accepted
    rw [State.poll]
    split <;> exact hd

/-- **Every event keeps things safe** as long as the datagrams accepted are below the limit. -/
theorem Safe.next (hsafe : Safe clients buf s) (hinv : Inv bufs s) (a : Event)
    (hshort : ∀ d ∈ (Udp.next s a).accepted, d.pbuf.flatten.length < 4096) :
    Safe clients buf (Udp.next s a) := by
  have hshort' : ∀ d ∈ s.accepted, d.pbuf.flatten.length < 4096 :=
    fun d hd ↦ hshort d (accepted_next s a d hd)
  cases a with
  | udprecv d =>
    change Safe clients buf (s.udprecv d)
    refine ⟨?_, ?_, ?_⟩
    · rw [waiter_udprecv]
      exact hsafe.running
    · rw [buf_udprecv]
      exact hsafe.inside
    · rw [returned_udprecv]
      exact hsafe.echoed
  | wake => exact ⟨by simp [Udp.next], hsafe.inside, hsafe.echoed⟩
  | poll => exact hsafe.poll hinv hshort'

end

/-! ## Both ends -/

/-- What the two ends are meant to agree on: every reply fits, what a stub returns is what was sent,
and hence the echo loop never stops. -/
structure LengthsAgree : Prop where
  /-- Every reply fits. -/
  recv : ∀ (s : State) (m : ℤ), s.client.usedHead = some m →
    (s.client.messageMemory m).payload.length ≤ 65507 → ReplyFits s
  /-- What the stub returns is what was sent. -/
  send : ∀ (clients : List SendClient) (i : Fin clients.length) (buf p : ℕ → Byte)
    (len addr : BitVec 32), (send clients i buf p len addr true).1.toNat =
      sentBytes (send clients i buf p len addr true).2

/-- **When both ends agree.**  A reply fits exactly if the datagram is below 4096 bytes, and what
the stub returns is what was sent exactly if the length it is given is below 4096.  In a run in
which all datagrams are below the limit, the client never stops, nothing is written past its buffer
and all it gets is echoed in full. -/
theorem lengths_agree_iff (clients : List SendClient) (buf : ℕ → Byte) (s : State) :
    (∀ m : ℤ, s.client.usedHead = some m →
      (ReplyFits s ↔ (s.client.messageMemory m).payload.length < 4096)) ∧
    (∀ (i : Fin clients.length) (p : ℕ → Byte) (len addr : BitVec 32),
      (Udp.send clients i buf p len addr true).1.toNat =
        sentBytes (Udp.send clients i buf p len addr true).2 ↔ len.toNat < 4096) ∧
    ∀ (bufs : ℕ) (mem : ℤ → UdpMessage) (as : List Event), 0 < bufs →
      Run (Does Enabled next) (.initial bufs mem buf) as s →
      (∀ d ∈ s.accepted, d.pbuf.flatten.length < 4096) → Safe clients buf s := by
  refine ⟨fun m ↦ replyFits_iff, fun _ _ _ _ ↦ toNat_send_eq_sentBytes_iff, ?_⟩
  intro bufs mem as hbufs hrun
  let I (s : State) : Prop := Inv bufs s ∧
    ((∀ d ∈ s.accepted, d.pbuf.flatten.length < 4096) → Safe clients buf s)
  have hI : I s := by
    refine hrun.invariant (I := I) ?_ ?_
    · refine ⟨inv_initial hbufs mem buf, fun _ ↦ ?_⟩
      exact ⟨by simp [State.initial], fun _ _ ↦ rfl, by simp [State.initial]⟩
    · rintro s a _ ⟨hinv, hsafe⟩ ⟨-, rfl⟩
      refine ⟨inv_next hinv a, fun hshort ↦ ?_⟩
      exact (hsafe fun d hd ↦ hshort d (accepted_next s a d hd)).next hinv a hshort
  exact hI.2

/-- Three datagrams have been echoed, and the next reply fits. -/
theorem lengths_agree_iff_fiveArrivals :
    ReplyFits afterFiveArrivals ∧ Safe [⟨5, 7, 9⟩] (fun _ ↦ 0) afterFiveArrivals := by
  obtain ⟨hfits, -, hrun⟩ := lengths_agree_iff [⟨5, 7, 9⟩] (fun _ ↦ 0) afterFiveArrivals
  refine ⟨(hfits 1 (by decide)).2 (by decide), ?_⟩
  exact hrun 2 (fun _ ↦ {}) fiveArrivals (by decide) fiveArrivals_run fiveArrivals_short

/-- The state in which a datagram of 4096 bytes is about to be polled. -/
def fullDatagram : State :=
  (State.initial 1 (fun _ ↦ {}) fun _ ↦ 0).udprecv ⟨[List.replicate 4096 0], 1, 9⟩

/-- **A datagram of 4096 bytes stops the client.** -/
theorem not_lengthsAgree : ¬LengthsAgree := by
  intro h
  have hhead : fullDatagram.client.usedHead = some 0 := rfl
  have hlen : (fullDatagram.client.messageMemory 0).payload.length = 4096 := by
    have hpayload : (fullDatagram.client.messageMemory 0).payload =
        [List.replicate 4096 0].flatten := rfl
    rw [hpayload, List.flatten_singleton, List.length_replicate]
  have hfits := (replyFits_iff hhead).mp (h.recv fullDatagram 0 hhead (by omega))
  omega

end Udp
end CamkesVm
