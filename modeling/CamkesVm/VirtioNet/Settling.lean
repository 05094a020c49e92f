import CamkesVm.VirtioNet.Network
import Mathlib.Algebra.BigOperators.Fin

/-!
# The network of the Arm VMMs comes to rest

A frame that is sent notifies its receiver, a frame that is received notifies its sender, and every
notification makes a VMM poll all its queues.  `State.work` bounds what all this can lead to: every
step except a new frame makes it smaller, so VMMs cannot keep each other busy
(`run_length_le_work`).

## What is here

* `pollWork`, `wakeWork`, `entryWork`, `forwardWork`, `txWork` — what each thing that waits can lead
  to, in steps, counted from the end: an entry leads to a notification of its sender, and that to a
  round over all queues.
* `Phase.work`, `Link.work`, `State.pendingWork`, `State.work` — the same for VMMs, queues and
  notifications, and for the whole network.
* `work_wake_lt`, `work_turn_lt` — taking a notification, and a step of a VMM, with one lemma for
  each of its phases. Both leave less to do.
* `exists_enabled_of_not_atRest`, `run_length_le_work` — as long as there is work some step is
  possible, so the bound is also one on when the network is at rest.

The bound is not tight. What counts is that a round over the queues that finds nothing notifies
nobody.
-/

set_option autoImplicit false

namespace CamkesVm
namespace VirtioNet
namespace Network

open Transition Virtqueue

variable {ν : Type}

/-! ## What there is to do -/

/-- What it takes to go through `k` nodes. -/
def pollWork (k : ℕ) : ℕ := 4 * k + 1

/-- What a notification of a VMM leads to. -/
def wakeWork (L : Layout ν) (i : ν) : ℕ := pollWork (L.nodes i).length + 1

/-- What a frame in a queue of the sender `a` leads to. -/
def entryWork (L : Layout ν) (a : ν) : ℕ := wakeWork L a + 5

/-- What it takes to forward a frame to nodes. -/
def forwardWork (L : Layout ν) (a : ν) (nodes : List ν) : ℕ :=
  (nodes.map fun b ↦ entryWork L a + wakeWork L b + 2).sum + 1

/-- What it takes to send frames. -/
def txWork (L : Layout ν) (a : ν) (frames : List (List Byte)) : ℕ :=
  frames.length * (forwardWork L a (L.nodes a) + 1) + 1

/-- What a VMM has to do before it is idle, and what this leads to. -/
def Phase.work (L : Layout ν) (i : ν) : Phase ν → ℕ
  | .idle => 0
  | .tx frames => txWork L i frames
  | .forward _ rest frames => forwardWork L i rest + txWork L i frames
  | .notifySend _ node rest frames =>
    wakeWork L node + 1 + forwardWork L i rest + txWork L i frames
  | .poll rest => pollWork rest.length
  | .recv _ rest => pollWork rest.length + 3
  | .gather _ node rest => wakeWork L node + 4 + (pollWork rest.length + 3)
  | .rx _ node rest => wakeWork L node + 2 + (pollWork rest.length + 3)
  | .notifyRecv node rest => wakeWork L node + 1 + (pollWork rest.length + 3)
  | .pollSend _ rest => pollWork rest.length + 2
  | .freeSend _ rest => pollWork rest.length + 1

/-- What the entries of a queue lead to. -/
def Link.work (L : Layout ν) (a : ν) (l : Link) : ℕ :=
  entryWork L a * l.queue.available.length + l.queue.used.length

/-- What the pending notification of a VMM leads to, if there is one. -/
def State.pendingWork (L : Layout ν) (s : State ν) (i : ν) : ℕ :=
  if s.pending i then wakeWork L i else 0

/-- What there is to do in the network. -/
def State.work [Fintype ν] (L : Layout ν) (s : State ν) : ℕ :=
  ∑ i, s.pendingWork L i + ∑ i, (s.phase i).work L i +
    ∑ x : ν × ν, (s.link x.1 x.2).work L x.1

section

variable {L : Layout ν}

theorem work_send (l : Link) (a : ν) (frame : List Byte) (n : ℕ) :
    (l.offer frame (.ok n)).work L a = l.work L a + entryWork L a := by
  simp only [Link.work, Link.offer, Queue.send, List.length_append, List.length_singleton, mul_add]
  omega

theorem work_getAvailable {l : Link} {entry : Entry (List Byte)} {queue : Queue (List Byte)}
    (h : l.queue.getAvailable = some (entry, queue)) (a : ν) :
    Link.work L a { l with queue := queue } + entryWork L a = l.work L a := by
  rw [Link.work, Link.work, getAvailable_eq_some h, List.length_cons, mul_add, mul_one]
  dsimp only
  omega

theorem work_gather_le (l : Link) (a : ν) (entry : Entry (List Byte)) (answer : Answer) :
    (l.gather entry answer).work L a ≤ l.work L a + 1 := by
  rcases answer with n | _ | _ <;> simp [Link.work, Link.gather, Queue.addUsed, add_assoc]

theorem work_rx (l : Link) (a : ν) (frame : List Byte) (answer : Answer) :
    (l.rx frame answer).work L a = l.work L a := by
  cases answer <;> rfl

theorem work_reclaim {l : Link} {queue : Queue (List Byte)} (h : l.queue.reclaim = some queue)
    (a : ν) : Link.work L a { l with queue := queue } + 1 = l.work L a := by
  obtain ⟨entry, hused, havailable, -⟩ := reclaim_eq_some h
  rw [Link.work, Link.work, hused, List.length_cons, ← havailable]
  rfl

theorem forwardWork_cons (a node : ν) (rest : List ν) :
    forwardWork L a (node :: rest) =
      entryWork L a + wakeWork L node + 2 + forwardWork L a rest := by
  rw [forwardWork, forwardWork, List.map_cons, List.sum_cons]
  omega

theorem txWork_cons (a : ν) (frame : List Byte) (frames : List (List Byte)) :
    txWork L a (frame :: frames) = forwardWork L a (L.nodes a) + 1 + txWork L a frames := by
  rw [txWork, txWork, List.length_cons, Nat.add_mul]
  omega

theorem pollWork_succ (k : ℕ) : pollWork (k + 1) = pollWork k + 4 := by
  rw [pollWork, pollWork]
  omega

theorem hasRoom_error (s : State ν) (i : ν) (returned : Bool) :
    s.hasRoom i (.error returned) = true := by
  rw [State.hasRoom]
  intro _ _ _ _ _ _ h
  cases h

end

/-! ## Who has something to do -/

section

variable [DecidableEq ν] {s : State ν}

/-- The guest's driver calls `emul_raw_tx`. -/
def Label.isTx : Label ν → Bool
  | .tx _ _ => true
  | _ => false

/-- Whoever has something to do can do it. -/
theorem exists_enabled_of_not_atRest (h : ¬ s.AtRest) : ∃ a : Label ν, a.isTx = false ∧
    Enabled s a := by
  simp only [State.AtRest, not_forall, not_and_or] at h
  obtain ⟨i, hi⟩ := h
  by_cases hidle : s.phase i = .idle
  · have hpending : s.pending i = true := by
      simpa using hi.resolve_left (not_not_intro hidle)
    exact ⟨.wake i, rfl, hidle, hpending⟩
  · exact ⟨.turn i (.error false), rfl, hidle, hasRoom_error s i false⟩

end

/-! ## Every step leaves less to do -/

variable [DecidableEq ν] [Fintype ν] {L : Layout ν} {s : State ν} {i : ν} {answer : Answer}

/-- A sum of which one term changes. -/
theorem sum_add_eq {ι : Type*} [Fintype ι] [DecidableEq ι] {f g : ι → ℕ} (i : ι)
    (h : ∀ j, j ≠ i → g j = f j) : ∑ j, g j + f i = ∑ j, f j + g i := by
  have hrest : ∑ j ∈ Finset.univ.erase i, g j = ∑ j ∈ Finset.univ.erase i, f j :=
    Finset.sum_congr rfl fun j hj ↦ h j (Finset.ne_of_mem_erase hj)
  have hf := Finset.add_sum_erase Finset.univ f (Finset.mem_univ i)
  have hg := Finset.add_sum_erase Finset.univ g (Finset.mem_univ i)
  omega

theorem work_goto (s : State ν) (i : ν) (p : Phase ν) :
    (s.goto i p).work L + (s.phase i).work L i = s.work L + p.work L i := by
  have hsum := sum_add_eq (f := fun j ↦ (s.phase j).work L j)
    (g := fun j ↦ ((s.goto i p).phase j).work L j) i fun j hj ↦ by rw [goto_phase, if_neg hj]
  have hpending : (s.goto i p).pendingWork L = s.pendingWork L := rfl
  have hself : (s.goto i p).phase i = p := Function.update_self ..
  rw [hself] at hsum
  rw [State.work, State.work, hpending, goto_link]
  omega

theorem work_setLink (s : State ν) (i j : ν) (l : Link) :
    (s.setLink i j l).work L + (s.link i j).work L i = s.work L + l.work L i := by
  have hsum := sum_add_eq (f := fun x : ν × ν ↦ (s.link x.1 x.2).work L x.1)
    (g := fun x ↦ ((s.setLink i j l).link x.1 x.2).work L x.1) (i, j) fun x hx ↦ by
      rw [setLink_link, if_neg fun h ↦ hx (Prod.ext h.1 h.2)]
  have hpending : (s.setLink i j l).pendingWork L = s.pendingWork L := rfl
  have hself : (s.setLink i j l).link i j = l := if_pos ⟨rfl, rfl⟩
  simp only [hself] at hsum
  rw [State.work, State.work, hpending, setLink_phase]
  omega

theorem work_notify (s : State ν) (j : ν) : (s.notify j).work L ≤ s.work L + wakeWork L j := by
  have hsum := sum_add_eq (f := s.pendingWork L) (g := (s.notify j).pendingWork L) j fun i hi ↦ by
    rw [State.pendingWork, State.pendingWork, notify_pending, if_neg hi]
  have hself : (s.notify j).pendingWork L j = wakeWork L j := by
    rw [State.pendingWork, notify_pending, if_pos rfl, if_pos rfl]
  rw [hself] at hsum
  rw [State.work, State.work, notify_phase, notify_link]
  omega

theorem work_take (s : State ν) (j : ν) : (s.take j).work L + s.pendingWork L j = s.work L := by
  have hsum := sum_add_eq (f := s.pendingWork L) (g := (s.take j).pendingWork L) j fun i hi ↦ by
    rw [State.pendingWork, State.pendingWork, take_pending, if_neg hi]
  have hself : (s.take j).pendingWork L j = 0 := by
    rw [State.pendingWork, take_pending, if_pos rfl]
    rfl
  rw [hself] at hsum
  rw [State.work, State.work, take_phase, take_link]
  omega

/-- **Taking a notification leaves less to do.** -/
theorem work_wake_lt (hen : Enabled s (.wake i)) : (next L s (.wake i)).work L < s.work L := by
  have htake := work_take (L := L) s i
  have hgoto := work_goto (L := L) (s.take i) i (.poll (L.nodes i))
  have hpending : s.pendingWork L i = (Phase.poll (L.nodes i)).work L i + 1 := if_pos hen.2
  rw [take_phase, hen.1, Phase.work] at hgoto
  rw [next]
  omega

/-- A step at one queue: what becomes less and what becomes more. -/
theorem work_step (s : State ν) (i a b : ν) (l : Link) (p : Phase ν) :
    ((s.setLink a b l).goto i p).work L + ((s.phase i).work L i + (s.link a b).work L a) =
      s.work L + (p.work L i + l.work L a) := by
  have hgoto := work_goto (L := L) (s.setLink a b l) i p
  have hlink := work_setLink (L := L) s a b l
  rw [setLink_phase] at hgoto
  omega

/-! ### One lemma for each phase -/

theorem work_turn_tx {frames : List (List Byte)} (hp : s.phase i = .tx frames) :
    (s.turn L i answer).work L < s.work L := by
  cases frames with
  | nil =>
    have hgoto := work_goto (L := L) s i .idle
    simp only [hp, Phase.work, txWork] at hgoto
    simp only [State.turn, hp]
    omega
  | cons frame frames =>
    simp only [State.turn, hp]
    split
    · have hgoto := work_goto (L := L) s i .idle
      simp only [hp, Phase.work, txWork_cons] at hgoto
      omega
    · have hgoto := work_goto (L := L) s i (.forward frame (L.nodes i) frames)
      simp only [hp, Phase.work, txWork_cons] at hgoto
      omega

theorem work_turn_forward {frame : List Byte} {rest : List ν} {frames : List (List Byte)}
    (hp : s.phase i = .forward frame rest frames) :
    (s.turn L i answer).work L < s.work L := by
  cases rest with
  | nil =>
    have hgoto := work_goto (L := L) s i (.tx frames)
    simp only [hp, Phase.work, forwardWork] at hgoto
    simp only [State.turn, hp]
    omega
  | cons node rest =>
    simp only [State.turn, hp]
    have hstep := work_step (L := L) s i i node ((s.link i node).offer frame answer)
    cases answer with
    | ok n =>
      have hoffer := hstep (.notifySend frame node rest frames)
      simp only [hp, Phase.work, forwardWork_cons, work_send] at hoffer
      simp only [Answer.isOk, if_true]
      omega
    | error returned =>
      have hoffer := hstep (.forward frame rest frames)
      have hsame : ((s.link i node).offer frame (.error returned)).work L i =
        (s.link i node).work L i := rfl
      simp only [hp, Phase.work, forwardWork_cons] at hoffer
      simp only [Answer.isOk, Bool.false_eq_true, if_false]
      omega

theorem work_turn_notifySend {frame : List Byte} {node : ν} {rest : List ν}
    {frames : List (List Byte)} (hp : s.phase i = .notifySend frame node rest frames) :
    (s.turn L i answer).work L < s.work L := by
  have hgoto := work_goto (L := L) (s.notify node) i (.forward frame rest frames)
  have hnotify := work_notify (L := L) s node
  simp only [notify_phase, hp, Phase.work] at hgoto
  simp only [State.turn, hp]
  omega

theorem work_turn_poll {rest : List ν} (hp : s.phase i = .poll rest) :
    (s.turn L i answer).work L < s.work L := by
  cases rest with
  | nil =>
    have hgoto := work_goto (L := L) s i .idle
    simp only [hp, Phase.work, pollWork] at hgoto
    simp only [State.turn, hp]
    omega
  | cons node rest =>
    simp only [State.turn, hp]
    split
    · have hgoto := work_goto (L := L) s i (.pollSend node rest)
      simp only [hp, Phase.work, List.length_cons, pollWork_succ] at hgoto
      omega
    · have hgoto := work_goto (L := L) s i (.recv node rest)
      simp only [hp, Phase.work, List.length_cons, pollWork_succ] at hgoto
      omega

theorem work_turn_recv {node : ν} {rest : List ν} (hp : s.phase i = .recv node rest) :
    (s.turn L i answer).work L < s.work L := by
  simp only [State.turn, hp]
  split
  · have hgoto := work_goto (L := L) s i (.pollSend node rest)
    simp only [hp, Phase.work] at hgoto
    omega
  · rename_i entry queue hget
    have hstep := work_step (L := L) s i node i { s.link node i with queue := queue }
      (.gather entry node rest)
    have htaken := work_getAvailable (L := L) hget node
    simp only [hp, Phase.work] at hstep
    rw [entryWork] at htaken
    omega

theorem work_turn_gather {entry : Entry (List Byte)} {node : ν} {rest : List ν}
    (hp : s.phase i = .gather entry node rest) : (s.turn L i answer).work L < s.work L := by
  set p : Phase ν := if answer.isOk then .rx entry.data node rest else .recv node rest with hafter
  have hstep := work_step (L := L) s i node i ((s.link node i).gather entry answer) p
  have hgather := work_gather_le (L := L) (s.link node i) node entry answer
  have hphase : p.work L i ≤ wakeWork L node + 2 + (pollWork rest.length + 3) := by
    rw [hafter]
    split
    · exact Nat.le_refl _
    · exact Nat.le_add_left ..
  -- whether the dataport overran does not count
  have hturn : (s.turn L i answer).work L =
      ((s.setLink node i ((s.link node i).gather entry answer)).goto i p).work L := by
    simp only [State.turn, hp]
    rfl
  rw [hp, Phase.work] at hstep
  omega

theorem work_turn_rx {frame : List Byte} {node : ν} {rest : List ν}
    (hp : s.phase i = .rx frame node rest) : (s.turn L i answer).work L < s.work L := by
  have hstep := work_step (L := L) s i node i ((s.link node i).rx frame answer)
    (.notifyRecv node rest)
  simp only [hp, Phase.work, work_rx] at hstep
  simp only [State.turn, hp]
  omega

theorem work_turn_notifyRecv {node : ν} {rest : List ν} (hp : s.phase i = .notifyRecv node rest) :
    (s.turn L i answer).work L < s.work L := by
  have hgoto := work_goto (L := L) (s.notify node) i (.recv node rest)
  have hnotify := work_notify (L := L) s node
  simp only [notify_phase, hp, Phase.work] at hgoto
  simp only [State.turn, hp]
  omega

theorem work_turn_pollSend {node : ν} {rest : List ν} (hp : s.phase i = .pollSend node rest) :
    (s.turn L i answer).work L < s.work L := by
  simp only [State.turn, hp]
  split
  · have hgoto := work_goto (L := L) s i (.poll rest)
    simp only [hp, Phase.work] at hgoto
    omega
  · have hgoto := work_goto (L := L) s i (.freeSend node rest)
    simp only [hp, Phase.work] at hgoto
    omega

theorem work_turn_freeSend {node : ν} {rest : List ν} (hp : s.phase i = .freeSend node rest) :
    (s.turn L i answer).work L < s.work L := by
  simp only [State.turn, hp]
  split
  · have hgoto := work_goto (L := L) s i (.poll rest)
    simp only [hp, Phase.work] at hgoto
    omega
  · rename_i queue hget
    have hlink := work_setLink (L := L) s i node { s.link i node with queue := queue }
    have hreclaim := work_reclaim (L := L) hget i
    dsimp only at hlink ⊢
    omega

/-- **A VMM that goes on has less to do.** -/
theorem work_turn_lt (hen : Enabled s (.turn i answer)) :
    (s.turn L i answer).work L < s.work L := by
  cases hp : s.phase i with
  | idle => exact absurd hp hen.1
  | tx => exact work_turn_tx hp
  | forward => exact work_turn_forward hp
  | notifySend => exact work_turn_notifySend hp
  | poll => exact work_turn_poll hp
  | recv => exact work_turn_recv hp
  | gather => exact work_turn_gather hp
  | rx => exact work_turn_rx hp
  | notifyRecv => exact work_turn_notifyRecv hp
  | pollSend => exact work_turn_pollSend hp
  | freeSend => exact work_turn_freeSend hp

/-- **Without new frames the network comes to rest.**  A run takes no more steps than there was work
to do, whatever the VMMs are told, and as long as it is not at rest it can go on. -/
theorem run_length_le_work {as : List (Label ν)} {t : State ν}
    (h : Run (Guarded (fun _ a ↦ a.isTx = false) (Does Enabled (next L))) s as t) :
    as.length ≤ s.work L ∧ (t.AtRest ∨ ∃ a : Label ν, a.isTx = false ∧ Enabled t a) := by
  have hwork : as.length + t.work L ≤ s.work L := by
    refine h.length_add_le fun t a u hs ↦ ?_
    obtain ⟨htx, hen, rfl⟩ := hs
    cases a with
    | tx i frames => exact nomatch htx
    | wake i => exact work_wake_lt hen
    | turn i answer => exact work_turn_lt hen
  refine ⟨by omega, ?_⟩
  by_cases hrest : t.AtRest
  · exact .inl hrest
  · exact .inr (exists_enabled_of_not_atRest hrest)

theorem frameSteps_run :
    Run (Guarded (fun _ a ↦ a.isTx = false) (Does Enabled (next twoVmms)))
      (next twoVmms (.initial fun _ _ ↦ 4) (.tx false [[7]])) frameSteps arrived := by
  rw [arrived, List.foldl_cons]
  exact run_guarded_foldl (by decide +kernel)

/-- A frame on its way between two VMMs, and no others. -/
theorem run_length_le_work_arrived :
    frameSteps.length ≤
        (next twoVmms (.initial fun _ _ ↦ 4) (.tx false [[7]])).work twoVmms ∧
      (arrived.AtRest ∨ ∃ a : Label Bool, a.isTx = false ∧ Enabled arrived a) :=
  run_length_le_work frameSteps_run

end Network
end VirtioNet
end CamkesVm
