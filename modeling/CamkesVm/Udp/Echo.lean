import CamkesVm.Udp.Length

/-!
# The echo servers

The component `Echo` has two connections to the `UDPServer`, each with an interface to receive and
one to send.  Its `run` waits for a notification that is common to both; the badge says which of
them have something, and their callbacks are called one after the other.  A callback polls until
the status is not 0, and sends back each datagram it gets.

Here are both connections, the component between them and the server around them, with datagrams
that arrive at any time.  What happens on one connection is a run of the system of `Udp.Recv`
(`run_conn`), so what holds there holds here; new is what the callbacks send.  If all datagrams are
short and `pbuf_alloc` does not fail, every datagram that was not dropped is echoed once and in
order (`run_echoed`).

## What is here

* `Echo`, `Echo.turn` — the component and the two connections, and a turn of a callback's loop: a
  poll, and what is sent back.
* `EchoEvent`, `EchoEnabled`, `echoNext` — one event. A datagram may arrive at any point, also for a
  connection that is being polled.
* `EchoEvent.conn`, `run_conn` — the projection: each event is one of the system of a connection, or
  none.
* `EchoEvent.Untroubled`, `Echo.Echoed` — the condition, and what was echoed, followed by what is
  still waiting.
* `sent_turn`, `EchoInv`, `run_echoed` — one turn, the invariant between turns, and the runs.

The two connections have buffers of their own, but the badge and the thread are shared: while one
callback polls, the datagrams of the other wait.
-/

set_option autoImplicit false

namespace CamkesVm
namespace Udp

open Transition

/-! ## The component -/

/-- The two connections, `echo` and `echo2`, and what the callbacks have sent. -/
structure Echo where
  /-- The receiving ends: `false` is `echo_recv`, `true` is `echo2_recv`. -/
  conn : Bool → State
  /-- The buffers shared with the server for sending. -/
  sendBuf : Bool → ℕ → Byte
  /-- What came of the calls of `echo_send_send` and `echo2_send_send`. -/
  sent : Bool → List (Option Sent)

/-- After the initialisation of the connectors. -/
def Echo.initial (bufs : ℕ) (mem : Bool → ℤ → UdpMessage) (buf sendBuf : Bool → ℕ → Byte) :
    Echo where
  conn i := .initial bufs (mem i) (buf i)
  sendBuf := sendBuf
  sent _ := []

/-- The reply a poll returns, unless the status is -1 or the assertion of the stub fails. -/
def State.polled (s : State) : Option Reply := (s.poll.returned.drop s.returned.length).head?

section

variable (clients : List SendClient) (client : Bool → Fin clients.length)

/-- A turn of the loop of `echo_recv_ready_callback` or `echo2_recv_ready_callback`; `allocated`
says whether `pbuf_alloc` succeeds.  A poll whose assertion fails does not return, and nothing is
sent. -/
def Echo.turn (s : Echo) (i allocated : Bool) : Echo :=
  let conn := (s.conn i).poll
  let polled := (s.conn i).polled
  let s := { s with conn := Function.update s.conn i conn }
  match polled with
  | none => s
  | some r =>
    let len := BitVec.ofNat 32 r.bytes.length
    { s with
      sendBuf := Function.update s.sendBuf i (stubSend (s.sendBuf i) conn.buf len r.addr).2.1
      sent := Function.update s.sent i (s.sent i ++
        [(send clients (client i) (s.sendBuf i) conn.buf len r.addr allocated).2]) }

/-- What happens next. -/
inductive EchoEvent
  /-- A datagram arrives for a connection. -/
  | udprecv (i : Bool) (d : Datagram)
  /-- `seL4_Wait` returns, with the bits of the badge. -/
  | wait (badge : Bool → Bool)
  /-- A turn of the loop of a callback. -/
  | turn (i allocated : Bool)

/-- When it can happen.  The callback of the second connection comes after that of the first.  Both
connections are the same server's, which is lost after an overrun. -/
def EchoEnabled (s : Echo) : EchoEvent → Prop
  | .udprecv _ _ => ∀ i, (s.conn i).overrun = false
  | .wait badge => (∀ i, (s.conn i).waiter = .waiting) ∧ (∀ i, badge i = (s.conn i).signalled) ∧
      ∃ i, badge i = true
  | .turn i _ => (s.conn i).waiter = .polling ∧ (i = true → (s.conn false).waiter = .waiting)

instance (s : Echo) : (a : EchoEvent) → Decidable (EchoEnabled s a)
  | .udprecv _ _ => inferInstanceAs (Decidable (∀ i, (s.conn i).overrun = false))
  | .wait badge => inferInstanceAs (Decidable ((∀ i, (s.conn i).waiter = .waiting) ∧
      (∀ i, badge i = (s.conn i).signalled) ∧ ∃ i, badge i = true))
  | .turn i _ => inferInstanceAs (Decidable ((s.conn i).waiter = .polling ∧
      (i = true → (s.conn false).waiter = .waiting)))

/-- What happens then. -/
def echoNext (s : Echo) : EchoEvent → Echo
  | .udprecv i d => { s with conn := Function.update s.conn i (next (s.conn i) (.udprecv d)) }
  | .wait badge => { s with
      conn := fun i ↦ if badge i then next (s.conn i) .wake else s.conn i }
  | .turn i allocated => s.turn clients client i allocated

end

/-- What an event is for one of the connections. -/
def EchoEvent.conn (i : Bool) : EchoEvent → Option Event
  | .udprecv j d => if j = i then some (.udprecv d) else none
  | .wait badge => if badge i then some .wake else none
  | .turn j _ => if j = i then some .poll else none

/-! ## What is echoed -/

/-- The datagram is short enough for the stubs, and `pbuf_alloc` succeeds. -/
def EchoEvent.Untroubled : EchoEvent → Prop
  | .udprecv _ d => d.pbuf.flatten.length < 4096
  | .wait _ => True
  | .turn _ allocated => allocated = true

instance : (a : EchoEvent) → Decidable a.Untroubled
  | .udprecv _ _ => inferInstanceAs (Decidable (_ < _))
  | .wait _ => inferInstanceAs (Decidable True)
  | .turn _ _ => inferInstanceAs (Decidable (_ = _))

/-- Waiting, and not notified. -/
def Echo.AtRest (s : Echo) : Prop :=
  ∀ i, (s.conn i).waiter = .waiting ∧ (s.conn i).signalled = false

/-- What a call sent, and to which address. -/
def sentTo (sent : Option Sent) : Option (List Byte × BitVec 32) :=
  sent.map fun sent ↦ (sent.payload, sent.addr)

/-- What has been echoed on a connection, followed by what is still to be, is what was accepted. -/
def Echo.Echoed (s : Echo) (i : Bool) : Prop :=
  ∃ waiting : List Datagram,
    (s.sent i).map sentTo ++ waiting.map (fun d ↦ some (d.pbuf.flatten, d.addr)) =
      (s.conn i).accepted.map (fun d ↦ some (d.pbuf.flatten, d.addr)) ∧
    (s.AtRest → waiting = [])

section

variable {clients : List SendClient} {client : Bool → Fin clients.length} {s t : Echo} {i : Bool}
  {bufs : ℕ}

theorem conn_turn (s : Echo) (i allocated : Bool) :
    (s.turn clients client i allocated).conn = Function.update s.conn i (s.conn i).poll := by
  simp only [Echo.turn]
  split <;> rfl

/-- **A connection goes through a run of its own.** -/
theorem run_conn {as : List EchoEvent} (i : Bool)
    (h : Run (Does EchoEnabled (echoNext clients client)) s as t) :
    Run (Does Enabled next) (s.conn i) (as.filterMap (EchoEvent.conn i)) (t.conn i) := by
  refine h.project (f := fun s ↦ s.conn i) ?_
  rintro s a _ ⟨hen, rfl⟩
  cases a with
  | udprecv j d =>
    by_cases hji : j = i
    · subst hji
      exact .inl ⟨.udprecv d, if_pos rfl, hen j, Function.update_self ..⟩
    · exact .inr ⟨if_neg hji, Function.update_of_ne (Ne.symm hji) _ _⟩
  | wait badge =>
    cases hbadge : badge i with
    | false => exact .inr ⟨by simp [EchoEvent.conn, hbadge], by simp [echoNext, hbadge]⟩
    | true =>
      refine .inl ⟨.wake, by simp [EchoEvent.conn, hbadge], ⟨hen.1 i, ?_⟩, ?_⟩
      · rw [← hen.2.1 i, hbadge]
      · simp [echoNext, hbadge]
  | turn j allocated =>
    have hconn := @conn_turn clients client s j allocated
    by_cases hji : j = i
    · subst hji
      refine .inl ⟨.poll, if_pos rfl, hen.1, ?_⟩
      exact (congrFun hconn j).trans (Function.update_self ..)
    · refine .inr ⟨if_neg hji, ?_⟩
      exact (congrFun hconn i).trans (Function.update_of_ne (Ne.symm hji) _ _)

theorem polled_none {s : State} (h : s.client.usedHead = none) : s.polled = none := by
  rw [State.polled, poll_none h]
  simp

theorem polled_some {s : State} {m : ℤ} (h : s.client.usedHead = some m)
    (hlt : (s.client.replyOf m).bytes.length < 4096) : s.polled = some (s.client.replyOf m) := by
  rw [State.polled, returned_poll_of_lt h hlt]
  simp

/-- The client finds the reply in its buffer. -/
theorem map_buf_poll {s : State} {m : ℤ} (h : s.client.usedHead = some m) :
    (List.range (s.client.replyOf m).bytes.length).map s.poll.buf = (s.client.replyOf m).bytes := by
  have hbytes := map_copyChain s.buf 0 ((s.client.messageMemory m).pbuf.getD [])
  rw [List.range_zero, List.map_nil, List.nil_append] at hbytes
  rw [poll_some h, UdpClient.replyOf]
  dsimp only
  rw [copyChain_eq, Nat.zero_add] at hbytes ⊢
  exact hbytes

/-- **A turn sends back the reply it has got.** -/
theorem sent_turn {m : ℤ} (h : (s.conn i).client.usedHead = some m)
    (hlen : ((s.conn i).client.replyOf m).bytes.length < 4096) :
    (s.conn i).poll.waiter ≠ .aborted ∧ ∃ sent : Sent,
      (s.turn clients client i true).sent = Function.update s.sent i (s.sent i ++ [some sent]) ∧
        sent.payload = ((s.conn i).client.replyOf m).bytes ∧
        sent.addr = ((s.conn i).client.replyOf m).addr := by
  have hrun : (s.conn i).poll.waiter ≠ .aborted := ((replyFits_iff h).2 hlen).1
  refine ⟨hrun, ?_⟩
  have hpolled := polled_some h hlen
  generalize hr : (s.conn i).client.replyOf m = r at hlen hpolled
  have hbuf : (List.range r.bytes.length).map (s.conn i).poll.buf = r.bytes := by
    rw [← hr]
    exact map_buf_poll h
  have hnat : (BitVec.ofNat 32 r.bytes.length).toNat = r.bytes.length := by
    rw [BitVec.toNat_ofNat]
    exact Nat.mod_eq_of_lt (by omega)
  obtain ⟨sent, hsend, hpayload, haddr⟩ := @send_of_lt clients (client i) (s.sendBuf i)
    (s.conn i).poll.buf (BitVec.ofNat 32 r.bytes.length) r.addr (by omega)
  refine ⟨sent, ?_, ?_, haddr⟩
  · simp only [Echo.turn, hpolled, hsend]
  · rw [hpayload, hnat, hbuf]

/-- What holds between the turns. -/
structure EchoInv (bufs : ℕ) (s : Echo) (i : Bool) : Prop where
  /-- The lists of the server. -/
  inv : Inv bufs (s.conn i)
  /-- All datagrams are short. -/
  short : ∀ d ∈ (s.conn i).accepted, d.pbuf.flatten.length < 4096
  /-- The component goes on. -/
  running : (s.conn i).waiter ≠ .aborted
  /-- Each reply was sent back. -/
  sent : (s.sent i).map sentTo = (s.conn i).returned.map fun r ↦ some (r.bytes, r.addr)

theorem EchoInv.udprecv (h : ∀ i, EchoInv bufs s i) {d : Datagram}
    (hd : d.pbuf.flatten.length < 4096) (j : Bool) :
    EchoInv bufs (echoNext clients client s (.udprecv j d)) i := by
  rw [echoNext]
  by_cases hij : i = j
  · subst hij
    refine ⟨?_, ?_, ?_, ?_⟩
    all_goals dsimp only
    all_goals rw [Function.update_self]
    · exact inv_next (h i).inv _
    · intro d' hd'
      have hmem : d' ∈ (s.conn i).accepted ∨ d' = d := by
        change d' ∈ ((s.conn i).udprecv d).accepted at hd'
        rw [State.udprecv] at hd'
        split at hd'
        · exact .inl hd'
        · simpa using hd'
      rcases hmem with hold | rfl
      · exact (h i).short d' hold
      · exact hd
    · rw [next, waiter_udprecv]
      exact (h i).running
    · rw [next, returned_udprecv]
      exact (h i).sent
  · refine ⟨?_, ?_, ?_, ?_⟩
    all_goals dsimp only
    all_goals rw [Function.update_of_ne hij]
    · exact (h i).inv
    · exact (h i).short
    · exact (h i).running
    · exact (h i).sent

theorem EchoInv.turn (h : ∀ i, EchoInv bufs s i) (j : Bool) :
    EchoInv bufs (s.turn clients client j true) i := by
  have hconn := congrFun (@conn_turn clients client s j true) i
  by_cases hij : i = j
  · subst hij
    rw [Function.update_self] at hconn
    cases hhead : (s.conn i).client.usedHead with
    | none =>
      have hsent : (s.turn clients client i true).sent = s.sent := by
        simp only [Echo.turn, polled_none hhead]
      have hpoll := poll_none hhead
      refine ⟨?_, ?_, ?_, ?_⟩
      · rw [hconn]
        exact inv_poll (h i).inv
      · rw [hconn, hpoll]
        exact (h i).short
      · rw [hconn, hpoll]
        exact nofun
      · rw [hconn, hpoll, hsent]
        exact (h i).sent
    | some m =>
      have hlen := (h i).inv.replyOf_lt (h i).short hhead
      obtain ⟨hrun, sent, hsent, hpayload, haddr⟩ :=
        @sent_turn clients client s i m hhead hlen
      have hpoll := poll_some hhead
      refine ⟨?_, ?_, ?_, ?_⟩
      · rw [hconn]
        exact inv_poll (h i).inv
      · rw [hconn, hpoll]
        exact (h i).short
      · rw [hconn]
        exact hrun
      · rw [hconn, returned_poll_of_lt hhead hlen, hsent, Function.update_self]
        simp [(h i).sent, sentTo, hpayload, haddr]
  · have hsent : (s.turn clients client j true).sent i = s.sent i := by
      simp only [Echo.turn]
      split
      · rfl
      · exact Function.update_of_ne hij _ _
    rw [Function.update_of_ne hij] at hconn
    exact ⟨hconn ▸ (h i).inv, hconn ▸ (h i).short, hconn ▸ (h i).running,
      hconn ▸ hsent ▸ (h i).sent⟩

theorem EchoInv.next (h : ∀ i, EchoInv bufs s i) {a : EchoEvent} (ha : a.Untroubled) :
    EchoInv bufs (echoNext clients client s a) i := by
  cases a with
  | udprecv j d => exact EchoInv.udprecv h ha j
  | wait badge =>
    by_cases hbadge : badge i
    · refine ⟨?_, ?_, ?_, ?_⟩
      all_goals simp only [echoNext, if_pos hbadge]
      · exact inv_next (h i).inv .wake
      · exact (h i).short
      · exact nofun
      · exact (h i).sent
    · refine ⟨?_, ?_, ?_, ?_⟩
      all_goals simp only [echoNext, if_neg hbadge]
      · exact (h i).inv
      · exact (h i).short
      · exact (h i).running
      · exact (h i).sent
  | turn j allocated =>
    obtain rfl : allocated = true := ha
    exact EchoInv.turn h j

/-- **Every datagram is echoed.**  With short datagrams, and if `pbuf_alloc` does not fail, what has
been sent back on each connection, to the address it came from, is at all times the beginning of
what the server has accepted for it, in order; and it is all of that whenever the component waits
and is not notified. -/
theorem run_echoed (hbufs : 0 < bufs) {mem : Bool → ℤ → UdpMessage} {buf sendBuf : Bool → ℕ → Byte}
    {as : List EchoEvent}
    (h : Run (Guarded (fun _ a ↦ a.Untroubled) (Does EchoEnabled (echoNext clients client)))
      (.initial bufs mem buf sendBuf) as t) (i : Bool) :
    (t.conn i).waiter ≠ .aborted ∧ t.Echoed i := by
  have hinv : ∀ i, EchoInv bufs t i := by
    refine h.invariant_guarded (I := fun s ↦ ∀ i, EchoInv bufs s i) (fun i ↦ ?_) ?_
    · exact ⟨inv_initial hbufs (mem i) (buf i), nofun, nofun, rfl⟩
    · rintro s a _ hs ha ⟨-, rfl⟩ i
      exact EchoInv.next hs ha
  obtain ⟨free, used, hlists, horder⟩ := (hinv i).inv.lists
  replace horder := horder (hinv i).short
  let f (d : Datagram) : Option (List Byte × BitVec 32) := some (d.pbuf.flatten, d.addr)
  let n := (t.conn i).returned.length
  have hreturned : (t.conn i).returned = ((t.conn i).accepted.take n).map Datagram.reply := by
    rw [List.map_take, ← horder, List.take_left]
  have hsent : (t.sent i).map sentTo = ((t.conn i).accepted.take n).map f := by
    rw [(hinv i).sent, hreturned, List.map_map]
    rfl
  refine ⟨(hinv i).running, (t.conn i).accepted.drop n, ?_, fun hrest ↦ ?_⟩
  · change (t.sent i).map sentTo ++ ((t.conn i).accepted.drop n).map f = (t.conn i).accepted.map f
    rw [hsent, ← List.map_append, List.take_append_drop]
  · -- who waits and is not notified has been told that there is nothing more
    have hnone := ((hinv i).inv.quiet (hrest i).1 (hrest i).2).2
    have hused : used = [] := by
      cases used with
      | nil => rfl
      | cons m used => exact nomatch hnone.symm.trans hlists.linkedUsed.1
    have hlength := congrArg List.length horder
    rw [hused, List.map_nil, List.append_nil, List.length_map] at hlength
    rw [List.drop_eq_nil_iff]
    exact Nat.le_of_eq hlength.symm

/-- Two clients of the sending connector. -/
def echoClients : List SendClient := [⟨1, 7, 9⟩, ⟨2, 8, 10⟩]

/-- `echo` has the first of them, `echo2` the second. -/
def echoClient (i : Bool) : Fin echoClients.length := if i then ⟨1, by decide⟩ else ⟨0, by decide⟩

/-- Datagrams for both connections arrive, one of them while the component is polling; it goes on
until it waits again. -/
def bothConnections : List EchoEvent :=
  [.udprecv false ⟨[[7]], 1, 9⟩, .udprecv true ⟨[[8], [9]], 2, 9⟩, .udprecv false ⟨[[10]], 3, 9⟩,
    .wait fun _ ↦ true, .turn false true, .udprecv true ⟨[[11]], 4, 9⟩, .turn false true,
    .turn true true, .turn true true]

/-- The state after that. -/
def afterBothConnections : Echo :=
  bothConnections.foldl (echoNext echoClients echoClient)
    (.initial 2 (fun _ _ ↦ {}) (fun _ _ ↦ 0) fun _ _ ↦ 0)

theorem bothConnections_run :
    Run (Guarded (fun _ a ↦ a.Untroubled) (Does EchoEnabled (echoNext echoClients echoClient)))
      (.initial 2 (fun _ _ ↦ {}) (fun _ _ ↦ 0) fun _ _ ↦ 0) bothConnections afterBothConnections :=
  run_guarded_foldl (by decide)

theorem run_echoed_bothConnections :
    (∀ i, (afterBothConnections.conn i).waiter ≠ .aborted ∧ afterBothConnections.Echoed i) ∧
      (afterBothConnections.sent false).map sentTo = [some ([7], 1), some ([10], 3)] ∧
      (afterBothConnections.sent true).map sentTo = [some ([8, 9], 2), some ([11], 4)] :=
  ⟨fun i ↦ run_echoed (by decide) bothConnections_run i, by decide, by decide⟩

end

end Udp
end CamkesVm
