import CamkesVm.Udp.Recv

/-!
# Sending datagrams

The other UDP connector.  The stub of a client copies what is to be sent into the buffer it shares
with the server, puts the length and the address into message registers and calls the server; the
server copies the payload into a `pbuf` and passes that to `udp_sendto`, with the protocol control
block and the destination port of the client whose badge the call carries.

Both ends have a limit of 4096 bytes.  The stub lets a longer buffer be cut off and says so by what
it returns, but has already put the full length into the register; the server sends nothing unless
that length is below the limit (`send_of_le`).

## What is here

* `SendClient`, `SendRequest`, `Sent` — the clients in the order of the assembly, the message
  registers of a call, and what the network gets.
* `stubSend`, `switchBadge`, `sendRun`, `send` — the stub, the server's choice of a client by the
  badge, the server's turn, and a whole call.
* `sentBytes`, `toNat_send_eq_sentBytes_iff` — what was sent, against what the stub says.

A badge that is no client's meets no case of the `switch`, and nothing is sent. The lock of lwIP and
the memory of the `pbuf`, which is freed at once, leave no trace here.
-/

set_option autoImplicit false

namespace CamkesVm
namespace Udp

/-- A client of the connector: its badge, and the ports it is configured with. -/
structure SendClient where
  /-- The badge of its calls. -/
  badge : ℕ
  /-- The port it sends from, the `local_port` of its control block. -/
  source : BitVec 16
  /-- The port it sends to. -/
  dest : BitVec 16

/-- The message registers of a call. -/
structure SendRequest where
  /-- `seL4_GetMR(0)`. -/
  len : BitVec 32
  /-- `seL4_GetMR(1)`. -/
  addr : BitVec 32

/-- What `udp_sendto` is called with. -/
structure Sent where
  /-- The index of the control block in `upcb`. -/
  pcb : ℕ
  /-- The payload of the `pbuf`. -/
  payload : List Byte
  /-- The address. -/
  addr : BitVec 32
  /-- The port. -/
  dest : BitVec 16

/-- `_send`, up to the call, on the `len` bytes at `p`: the registers, the shared buffer, and what
it returns. -/
def stubSend (buf p : ℕ → Byte) (len addr : BitVec 32) : SendRequest × (ℕ → Byte) × BitVec 32 :=
  let request : SendRequest := ⟨len, addr⟩
  let len := if 4096 < len then 4096 else len
  (request, memcpy buf 0 ((List.range len.toNat).map p), len)

/-- The `switch` over the badge. -/
def switchBadge (clients : List SendClient) (badge : ℕ) (payload : List Byte) (addr : BitVec 32) :
    Option Sent :=
  (clients.zipIdx.find? fun c ↦ c.1.badge == badge).map fun c ↦ ⟨c.2, payload, addr, c.1.dest⟩

/-- The server's turn of the loop of `__run`; `allocated` says whether `pbuf_alloc` succeeds. -/
def sendRun (clients : List SendClient) (badge : ℕ) (request : SendRequest) (buf : ℕ → Byte)
    (allocated : Bool) : Option Sent :=
  if request.len < 4096 then
    if allocated then
      switchBadge clients badge ((List.range request.len.toNat).map buf) request.addr
    else none
  else none

/-- A whole call by client `i`: what the stub returns, and what was sent. -/
def send (clients : List SendClient) (i : Fin clients.length) (buf p : ℕ → Byte)
    (len addr : BitVec 32) (allocated : Bool) : BitVec 32 × Option Sent :=
  let (request, buf, ret) := stubSend buf p len addr
  (ret, sendRun clients clients[i].badge request buf allocated)

/-- The payload bytes passed to `udp_sendto`. -/
def sentBytes : Option Sent → ℕ
  | none => 0
  | some sent => sent.payload.length

section

variable {clients : List SendClient} {i : Fin clients.length} {buf p : ℕ → Byte}
  {len addr : BitVec 32} {allocated : Bool}

/-- The badge of a client is one of the cases. -/
theorem switchBadge_isSome (clients : List SendClient) (i : Fin clients.length)
    (payload : List Byte) (addr : BitVec 32) :
    ∃ sent, switchBadge clients clients[i].badge payload addr = some sent ∧
      sent.payload = payload ∧ sent.addr = addr := by
  have hmem : (clients[i], i.val) ∈ clients.zipIdx :=
    List.mem_zipIdx_iff_getElem?.mpr (by simp)
  have hfind : (clients.zipIdx.find? fun c ↦ c.1.badge == clients[i].badge).isSome := by
    rw [List.find?_isSome]
    exact ⟨_, hmem, by simp⟩
  obtain ⟨c, hc⟩ := Option.isSome_iff_exists.mp hfind
  exact ⟨⟨c.2, payload, addr, c.1.dest⟩, by rw [switchBadge, hc]; rfl, rfl, rfl⟩

/-- **A length below the limit is sent in full.** -/
theorem send_of_lt (h : len.toNat < 4096) :
    ∃ sent, send clients i buf p len addr true = (len, some sent) ∧
      sent.payload = (List.range len.toNat).map p ∧ sent.addr = addr := by
  have hcut : ¬(4096 : BitVec 32) < len := by
    rw [BitVec.lt_def]
    exact Nat.not_lt.mpr (Nat.le_of_lt h)
  have hlimit : len < (4096 : BitVec 32) := by
    rw [BitVec.lt_def]
    exact h
  have hbuf := map_memcpy buf 0 ((List.range len.toNat).map p)
  obtain ⟨sent, hsent, hpayload, haddr⟩ :=
    switchBadge_isSome clients i ((List.range len.toNat).map p) addr
  refine ⟨sent, ?_, hpayload, haddr⟩
  simp only [List.length_map, List.length_range, Nat.zero_add, List.range_zero, List.map_nil,
    List.nil_append] at hbuf
  simp only [send, stubSend, sendRun, hcut, if_false, hlimit, if_true, hbuf, hsent]

/-- **A length from the limit on is not sent at all**, and the stub says that it is. -/
theorem send_of_le (h : 4096 ≤ len.toNat) :
    send clients i buf p len addr allocated = (4096, none) := by
  have hlimit : ¬len < (4096 : BitVec 32) := by
    rw [BitVec.lt_def]
    exact Nat.not_lt.mpr h
  have hret : (if (4096 : BitVec 32) < len then 4096 else len) = 4096 := by
    split
    · rfl
    · rename_i hcut
      rw [BitVec.lt_def] at hcut
      exact BitVec.eq_of_toNat_eq (Nat.le_antisymm (Nat.not_lt.mp hcut) h)
  simp only [send, stubSend, sendRun, hlimit, if_false, hret]

/-- **What the stub returns is what was sent** exactly if the length is below the limit. -/
theorem toNat_send_eq_sentBytes_iff :
    (send clients i buf p len addr true).1.toNat =
      sentBytes (send clients i buf p len addr true).2 ↔ len.toNat < 4096 := by
  constructor
  · intro h
    by_contra hle
    rw [send_of_le (Nat.not_lt.mp hle)] at h
    exact absurd h (by decide)
  · intro h
    obtain ⟨sent, hsend, hpayload, -⟩ := @send_of_lt clients i buf p len addr h
    rw [hsend]
    change len.toNat = sent.payload.length
    rw [hpayload, List.length_map, List.length_range]

end

end Udp
end CamkesVm
