import Mathlib.Data.List.Nodup
import Mathlib.Data.List.TakeWhile
import Mathlib.Order.Interval.Set.Basic

/-!
# Sending a frame to the nodes of the virtual switch

A guest's frame is copied into the send queue of each node it is for.  There are two VMMs with this
job, and both do it in a function named `emul_raw_tx`, which the guest's driver calls with a list of
frames.

* `emul_raw_tx` of the x86 VMM looks at the destination address: a broadcast or an IPv6 multicast
  goes to all connected nodes, anything else to the node that has the address.  When the queue of a
  node rejects the frame, or nobody has the address, it gives up on the whole call.
* `emul_raw_tx` of `libvirtio`, which the Arm VMM uses, hands the frames to the callback
  `tx_virtqueue_forward`, up to the first that is longer than `MAX_MTU`.  The callback sends a frame
  to all connected nodes.  When the queue of a node rejects it, it goes on with the next node, and it
  always returns 0, so the loop over the frames never stops on its account.

The virtual switch itself (`libvswitch`) and the queues are not part of the repository.  `Vswitch`
is what the VMMs ask of the first; `Vswitch.Lawful` is what they may expect.  Of the queues it only
matters which of them reject which frame.

A call is a list of marked effects: what is done to a queue carries the number of the frame it is
done for, so that "exactly one copy and one notification" can be said of each frame and each node
(`Served`).  `served_iff` says in which cases every node that accepts a frame gets it.  The loops
are first brought into the form of list functions (`emulRawTxNodes_eq`,
`txVirtqueueForwardNodes_eq`): the x86 VMM takes the nodes before the first that rejects, the Arm
VMM those that do not reject.
-/

set_option autoImplicit false

namespace CamkesVm
namespace VirtioNet

/-! ## Frames and nodes -/

/-- A `char` of a frame. -/
abbrev Byte := BitVec 8

/-- `struct ether_addr`. -/
abbrev EtherAddr := Fin 6 → Byte

/-- A frame the guest sends. -/
structure Frame where
  /-- The memory from `phys[i]` on. -/
  phys : ℕ → Byte
  /-- `len[i]`. -/
  len : ℕ

/-- The destination address is the first member of an ethernet frame. -/
def Frame.destaddr (frame : Frame) : EtherAddr := fun k ↦ frame.phys k

/-- `MAX_MTU`, which is `MAX_MTU_DATA + ETHERNET_HEADER_SIZE`. -/
def maxMtu : ℕ := 1500 + 14

/-- What is copied into a queue. -/
def Frame.bytes (frame : Frame) : List Byte := (List.range frame.len).map frame.phys

/-- The virtual switch, as the VMMs use it. -/
structure Vswitch (ν : Type) where
  /-- `n_connected`. -/
  nConnected : ℕ
  /-- `vswitch_get_destnode_index_by_macaddr`. -/
  getDestnodeIndexByMacaddr : EtherAddr → ℤ
  /-- `vswitch_get_destnode_by_index`. -/
  getDestnodeByIndex : ℤ → Option ν
  /-- `mac802_addr_eq_bcast`. -/
  eqBcast : EtherAddr → Bool
  /-- `mac802_addr_eq_ipv6_mcast`. -/
  eqIpv6Mcast : EtherAddr → Bool

variable {ν : Type}

/-- What is assumed of the virtual switch. -/
structure Vswitch.Lawful (V : Vswitch ν) : Prop where
  /-- The connected nodes have the indices from 0 up to `n_connected`. -/
  isSome_iff : ∀ j, (V.getDestnodeByIndex j).isSome ↔ 0 ≤ j ∧ j < V.nConnected
  /-- Different indices are of different nodes. -/
  injective : ∀ j j' node, V.getDestnodeByIndex j = some node →
    V.getDestnodeByIndex j' = some node → j = j'
  /-- The index of an address is negative, or that of a connected node. -/
  index_lt : ∀ mac, V.getDestnodeIndexByMacaddr mac < V.nConnected

/-- What a VMM does to a send queue. -/
inductive Effect (ν : Type)
  /-- `camkes_virtqueue_driver_scatter_send_buffer` takes the bytes. -/
  | enqueue (node : ν) (bytes : List Byte)
  /-- `notify`. -/
  | notify (node : ν)
  deriving DecidableEq

/-- The node whose queue it is. -/
def Effect.node : Effect ν → ν
  | .enqueue node _ => node
  | .notify node => node

/-! ## The x86 VMM -/

/-- The start and the length of the range of destination nodes, if there is one. -/
def Vswitch.destnodes (V : Vswitch ν) (frame : Frame) : Option (ℤ × ℕ) :=
  if V.eqBcast frame.destaddr || V.eqIpv6Mcast frame.destaddr then some (0, V.nConnected)
  else
    let index := V.getDestnodeIndexByMacaddr frame.destaddr
    if index < 0 then none else some (index, 1)

/-- The inner loop of `emul_raw_tx`, with `n` indices to go from `j` on.  The boolean is false if it
returns from the function. -/
def emulRawTxNodes (V : Vswitch ν) (rejects : ν → Bool) (frame : Frame) :
    ℕ → ℤ → List (Effect ν) × Bool
  | 0, _ => ([], true)
  | n + 1, j =>
    match V.getDestnodeByIndex j with
    | none => emulRawTxNodes V rejects frame n (j + 1)
    | some destnode =>
      if rejects destnode then ([], false)
      else
        let rest := emulRawTxNodes V rejects frame n (j + 1)
        (.enqueue destnode frame.bytes :: .notify destnode :: rest.1, rest.2)

/-- The outer loop of `emul_raw_tx`, at frame number `i`.  What it does is marked with the number of
the frame, and `rejects` says which queue rejects which frame. -/
def emulRawTxFrames (V : Vswitch ν) (rejects : ℕ → ν → Bool) : ℕ → List Frame → List (ℕ × Effect ν)
  | _, [] => []
  | i, frame :: frames =>
    match V.destnodes frame with
    | none => []
    | some (start, n) =>
      let sent := emulRawTxNodes V (rejects i) frame n start
      let effects := sent.1.map fun effect ↦ (i, effect)
      if sent.2 then effects ++ emulRawTxFrames V rejects (i + 1) frames else effects

/-- `emul_raw_tx`. -/
def emulRawTx (V : Vswitch ν) (rejects : ℕ → ν → Bool) (frames : List Frame) :
    List (ℕ × Effect ν) :=
  emulRawTxFrames V rejects 0 frames

/-! ## The Arm VMM -/

/-- The loop of `tx_virtqueue_forward`, with `n` indices to go from `i` on. -/
def txVirtqueueForwardNodes (V : Vswitch ν) (rejects : ν → Bool) (frame : Frame) :
    ℕ → ℤ → List (Effect ν)
  | 0, _ => []
  | n + 1, i =>
    match V.getDestnodeByIndex i with
    | none => txVirtqueueForwardNodes V rejects frame n (i + 1)
    | some destnode =>
      if rejects destnode then txVirtqueueForwardNodes V rejects frame n (i + 1)
      else
        .enqueue destnode frame.bytes :: .notify destnode ::
          txVirtqueueForwardNodes V rejects frame n (i + 1)

/-- `tx_virtqueue_forward`. -/
def txVirtqueueForward (V : Vswitch ν) (rejects : ν → Bool) (frame : Frame) : List (Effect ν) :=
  txVirtqueueForwardNodes V rejects frame V.nConnected 0

/-- The loop of `emul_raw_tx` of `libvirtio`, at frame number `i`.  The callback never fails, so
only a frame that is too long ends the loop before its end. -/
def libvirtioEmulRawTxFrames (V : Vswitch ν) (rejects : ℕ → ν → Bool) :
    ℕ → List Frame → List (ℕ × Effect ν)
  | _, [] => []
  | i, frame :: frames =>
    if maxMtu < frame.len then []
    else
      (txVirtqueueForward V (rejects i) frame).map (fun effect ↦ (i, effect)) ++
        libvirtioEmulRawTxFrames V rejects (i + 1) frames

/-- `emul_raw_tx` of `libvirtio`. -/
def libvirtioEmulRawTx (V : Vswitch ν) (rejects : ℕ → ν → Bool) (frames : List Frame) :
    List (ℕ × Effect ν) :=
  libvirtioEmulRawTxFrames V rejects 0 frames

/-! ## Who gets a frame -/

/-- The two VMMs. -/
inductive Vmm
  /-- `components/Init`. -/
  | x86
  /-- `components/VM_Arm`. -/
  | arm
  deriving DecidableEq

/-- What a VMM does for the frames of its guest. -/
def send (vmm : Vmm) (V : Vswitch ν) (rejects : ℕ → ν → Bool) (frames : List Frame) :
    List (ℕ × Effect ν) :=
  match vmm with
  | .x86 => emulRawTx V rejects frames
  | .arm => libvirtioEmulRawTx V rejects frames

/-- The node belongs to the destination set of the frame. -/
def IsDest (vmm : Vmm) (V : Vswitch ν) (frame : Frame) (node : ν) : Prop :=
  match vmm with
  | .x86 =>
    if V.eqBcast frame.destaddr || V.eqIpv6Mcast frame.destaddr then
      ∃ j, V.getDestnodeByIndex j = some node
    else V.getDestnodeByIndex (V.getDestnodeIndexByMacaddr frame.destaddr) = some node
  | .arm => ∃ j, V.getDestnodeByIndex j = some node

section

variable [DecidableEq ν]

/-- What is done to the queue of a node for frame number `i`. -/
def effectsOn (effects : List (ℕ × Effect ν)) (i : ℕ) (node : ν) : List (Effect ν) :=
  (effects.filter fun effect ↦ effect.1 = i ∧ effect.2.node = node).map Prod.snd

/-- **Every node of the destination set that accepts a frame** gets one copy and one
notification. -/
def Served (vmm : Vmm) (V : Vswitch ν) (rejects : ℕ → ν → Bool) (frames : List Frame) : Prop :=
  ∀ i frame node, frames[i]? = some frame → IsDest vmm V frame node → rejects i node = false →
    effectsOn (send vmm V rejects frames) i node = [.enqueue node frame.bytes, .notify node]

end

/-- No node is starved, when it accepts a frame.  On Arm neither that frame nor one before it is too
long.  On x86 no frame before it has an address that nobody has, all nodes of the destination sets
of these frames accept them, and all nodes before the node accept the frame, as far as they are in
its destination set. -/
def Unhindered (vmm : Vmm) (V : Vswitch ν) (rejects : ℕ → ν → Bool) (frames : List Frame) : Prop :=
  match vmm with
  | .arm => ∀ i frame node, frames[i]? = some frame → IsDest .arm V frame node →
      rejects i node = false → ∀ i' ≤ i, ∀ frame', frames[i']? = some frame' → frame'.len ≤ maxMtu
  | .x86 => ∀ i frame j node, frames[i]? = some frame → V.getDestnodeByIndex j = some node →
      IsDest .x86 V frame node → rejects i node = false →
        (∀ i' < i, ∀ frame', frames[i']? = some frame' →
          V.destnodes frame' ≠ none ∧
            ∀ node', IsDest .x86 V frame' node' → rejects i' node' = false) ∧
        ∀ j' < j, ∀ node', V.getDestnodeByIndex j' = some node' → IsDest .x86 V frame node' →
          rejects i node' = false

/-! ## What the loops do -/

section

variable {V : Vswitch ν} {frame : Frame} {n : ℕ} {j : ℤ} {node : ν}

/-- The nodes at `n` indices from `j` on, in order. -/
def visited (V : Vswitch ν) : ℕ → ℤ → List ν
  | 0, _ => []
  | n + 1, j =>
    match V.getDestnodeByIndex j with
    | none => visited V n (j + 1)
    | some node => node :: visited V n (j + 1)

/-- What is done to the queue of a node that takes the frame. -/
def copyTo (frame : Frame) (node : ν) : List (Effect ν) :=
  [.enqueue node frame.bytes, .notify node]

theorem emulRawTxNodes_eq (rejects : ν → Bool) (n : ℕ) (j : ℤ) :
    emulRawTxNodes V rejects frame n j =
      (((visited V n j).takeWhile fun node ↦ !rejects node).flatMap (copyTo frame),
        (visited V n j).all fun node ↦ !rejects node) := by
  induction n generalizing j with
  | zero => rfl
  | succ n ih =>
    rw [emulRawTxNodes, visited]
    cases V.getDestnodeByIndex j with
    | none => exact ih (j + 1)
    | some node =>
      cases hrejects : rejects node with
      | true => simp [hrejects]
      | false => simp [hrejects, ih, copyTo]

theorem txVirtqueueForwardNodes_eq (rejects : ν → Bool) (n : ℕ) (j : ℤ) :
    txVirtqueueForwardNodes V rejects frame n j =
      ((visited V n j).filter fun node ↦ !rejects node).flatMap (copyTo frame) := by
  induction n generalizing j with
  | zero => rfl
  | succ n ih =>
    rw [txVirtqueueForwardNodes, visited]
    cases V.getDestnodeByIndex j with
    | none => exact ih (j + 1)
    | some node =>
      cases hrejects : rejects node with
      | true => simp [hrejects, ih]
      | false => simp [hrejects, ih, copyTo]

theorem mem_visited : node ∈ visited V n j ↔
    ∃ k, j ≤ k ∧ k < j + n ∧ V.getDestnodeByIndex k = some node := by
  induction n generalizing j with
  | zero =>
    simp only [visited, List.not_mem_nil, false_iff, not_exists]
    intro k
    omega
  | succ n ih =>
    have hsplit : (∃ k, j ≤ k ∧ k < j + (n + 1 : ℕ) ∧ V.getDestnodeByIndex k = some node) ↔
        V.getDestnodeByIndex j = some node ∨
          ∃ k, j + 1 ≤ k ∧ k < j + 1 + n ∧ V.getDestnodeByIndex k = some node := by
      constructor
      · rintro ⟨k, hlo, hhi, hk⟩
        rcases Int.lt_or_eq_of_le hlo with hlt | rfl
        · exact .inr ⟨k, hlt, by omega, hk⟩
        · exact .inl hk
      · rintro (hj | ⟨k, hlo, hhi, hk⟩)
        · exact ⟨j, Int.le_refl j, by omega, hj⟩
        · exact ⟨k, by omega, by omega, hk⟩
    rw [hsplit, ← ih, visited]
    cases V.getDestnodeByIndex j with
    | none => simp
    | some first => simp [eq_comm]

theorem visited_append (a b : ℕ) (j : ℤ) :
    visited V (a + b) j = visited V a j ++ visited V b (j + a) := by
  induction a generalizing j with
  | zero => simp [visited]
  | succ a ih =>
    have hj : j + 1 + (a : ℤ) = j + (a + 1 : ℕ) := by omega
    rw [Nat.add_right_comm, visited, visited, ih, hj]
    cases V.getDestnodeByIndex j with
    | none => rfl
    | some first => rfl

/-- **The loop meets no node twice.** -/
theorem Vswitch.Lawful.nodup_visited (h : V.Lawful) (n : ℕ) (j : ℤ) : (visited V n j).Nodup := by
  induction n generalizing j with
  | zero => exact List.nodup_nil
  | succ n ih =>
    rw [visited]
    cases hj : V.getDestnodeByIndex j with
    | none => exact ih (j + 1)
    | some first =>
      refine List.nodup_cons.2 ⟨fun hmem ↦ ?_, ih (j + 1)⟩
      obtain ⟨k, hlo, -, hk⟩ := mem_visited.1 hmem
      have hjk := h.injective j k first hj hk
      omega

/-- **The nodes that come before** one that accepts decide whether the loop gets to it. -/
theorem Vswitch.Lawful.mem_takeWhile_iff (h : V.Lawful) {rejects : ν → Bool} {start : ℤ}
    (hlo : start ≤ j) (hhi : j < start + n) (hj : V.getDestnodeByIndex j = some node)
    (haccept : rejects node = false) :
    node ∈ (visited V n start).takeWhile (fun node ↦ !rejects node) ↔
      ∀ j', start ≤ j' → j' < j → ∀ node', V.getDestnodeByIndex j' = some node' →
        rejects node' = false := by
  obtain ⟨a, rfl⟩ := Int.le.dest hlo
  obtain ⟨b, rfl⟩ := Nat.exists_eq_add_of_lt (show a < n by omega)
  have hsplit : visited V (a + b + 1) start =
      visited V a start ++ node :: visited V b (start + a + 1) := by
    rw [Nat.add_assoc, visited_append, visited, hj]
  have hbefore : (∀ j', start ≤ j' → j' < start + a → ∀ node',
      V.getDestnodeByIndex j' = some node' → rejects node' = false) ↔
        ∀ node' ∈ visited V a start, rejects node' = false := by
    constructor
    · intro hall node' hmem
      obtain ⟨k, hk, hk', hnode'⟩ := mem_visited.1 hmem
      exact hall k hk hk' node' hnode'
    · intro hall j' hj' hj'' node' hnode'
      exact hall node' (mem_visited.2 ⟨j', hj', hj'', hnode'⟩)
  have hnodup := h.nodup_visited (a + b + 1) start
  rw [hsplit] at hnodup
  have hnot : node ∉ visited V a start := fun hmem ↦
    (List.nodup_append.1 hnodup).2.2 node hmem node (List.mem_cons_self ..) rfl
  rw [hbefore, hsplit]
  constructor
  · intro hmem
    by_contra hsome
    have hcut : ¬ (visited V a start).takeWhile (fun node ↦ !rejects node) = visited V a start := by
      rw [List.takeWhile_eq_self_iff]
      exact fun hall ↦ hsome fun node' hnode' ↦ by simpa using hall node' hnode'
    rw [List.takeWhile_append, if_neg fun hlen ↦ hcut
      ((List.takeWhile_prefix _).eq_of_length hlen)] at hmem
    exact hnot ((List.takeWhile_prefix _).subset hmem)
  · intro hall
    rw [List.takeWhile_append_of_pos (by simpa using hall)]
    simp [haccept]

/-! ## The destination set -/

/-- `emul_raw_tx` gets through with a frame. -/
def Passes (V : Vswitch ν) (rejects : ν → Bool) (frame : Frame) : Prop :=
  ∃ start n, V.destnodes frame = some (start, n) ∧
    ∀ node ∈ visited V n start, rejects node = false

/-- The range of `emul_raw_tx` is the destination set. -/
theorem Vswitch.Lawful.isDest_iff (h : V.Lawful) :
    IsDest .x86 V frame node ↔
      ∃ start n, V.destnodes frame = some (start, n) ∧ node ∈ visited V n start := by
  rw [IsDest, Vswitch.destnodes]
  split
  · constructor
    · rintro ⟨k, hk⟩
      obtain ⟨hlo, hhi⟩ := (h.isSome_iff k).1 (by simp [hk])
      exact ⟨0, V.nConnected, rfl, mem_visited.2 ⟨k, hlo, by omega, hk⟩⟩
    · rintro ⟨start, n, -, hmem⟩
      obtain ⟨k, -, -, hk⟩ := mem_visited.1 hmem
      exact ⟨k, hk⟩
  · dsimp only
    constructor
    · intro hk
      have hlo := ((h.isSome_iff _).1 (by rw [hk]; rfl)).1
      rw [if_neg (Int.not_lt.2 hlo)]
      exact ⟨_, 1, rfl, mem_visited.2 ⟨_, Int.le_refl _, by omega, hk⟩⟩
    · rintro ⟨start, n, hrange, hmem⟩
      split at hrange
      · exact nomatch hrange
      · obtain ⟨rfl, rfl⟩ := Prod.mk.inj (Option.some.inj hrange)
        obtain ⟨k, hlo, hhi, hk⟩ := mem_visited.1 hmem
        obtain rfl : k = V.getDestnodeIndexByMacaddr frame.destaddr := by omega
        exact hk

theorem Vswitch.Lawful.passes_iff (h : V.Lawful) {rejects : ν → Bool} :
    Passes V rejects frame ↔ V.destnodes frame ≠ none ∧
      ∀ node, IsDest .x86 V frame node → rejects node = false := by
  simp only [h.isDest_iff]
  constructor
  · rintro ⟨start, n, hdest, hall⟩
    refine ⟨by rw [hdest]; exact nofun, ?_⟩
    rintro node ⟨start', n', hdest', hmem⟩
    obtain ⟨rfl, rfl⟩ := Prod.mk.inj (Option.some.inj (hdest.symm.trans hdest'))
    exact hall node hmem
  · rintro ⟨hsome, hall⟩
    obtain ⟨⟨start, n⟩, hdest⟩ := Option.ne_none_iff_exists'.1 hsome
    exact ⟨start, n, hdest, fun node hmem ↦ hall node ⟨start, n, hdest, hmem⟩⟩

/-! ## Frame by frame -/

variable {rejects : ℕ → ν → Bool} {frames : List Frame} {i m : ℕ}

/-- The frames from number `i` on leave no marks of frames before it. -/
theorem le_of_mem_emulRawTxFrames {effect : ℕ × Effect ν}
    (h : effect ∈ emulRawTxFrames V rejects i frames) : i ≤ effect.1 := by
  induction frames generalizing i with
  | nil => exact absurd h List.not_mem_nil
  | cons frame frames ih =>
    rw [emulRawTxFrames] at h
    split at h
    · exact absurd h List.not_mem_nil
    · have hfirst : ∀ sent : List (Effect ν),
          effect ∈ sent.map (fun effect ↦ (i, effect)) → i ≤ effect.1 := by
        intro sent hmem
        obtain ⟨_, -, rfl⟩ := List.mem_map.1 hmem
        exact Nat.le_refl i
      dsimp only at h
      split at h
      · rcases List.mem_append.1 h with hmem | hmem
        · exact hfirst _ hmem
        · exact Nat.le_of_succ_le (ih hmem)
      · exact hfirst _ h

/-- What the first frame leaves of the others. -/
theorem emulRawTxFrames_cons (V : Vswitch ν) (rejects : ℕ → ν → Bool) (i : ℕ) (frame : Frame)
    (frames : List Frame) :
    (Passes V (rejects i) frame → ∃ sent : List (Effect ν),
        emulRawTxFrames V rejects i (frame :: frames) =
          sent.map (fun effect ↦ (i, effect)) ++ emulRawTxFrames V rejects (i + 1) frames) ∧
      (¬ Passes V (rejects i) frame → ∃ sent : List (Effect ν),
        emulRawTxFrames V rejects i (frame :: frames) = sent.map fun effect ↦ (i, effect)) := by
  rw [emulRawTxFrames]
  cases hdest : V.destnodes frame with
  | none =>
    refine ⟨?_, fun _ ↦ ⟨[], rfl⟩⟩
    rintro ⟨start, n, hsome, -⟩
    exact nomatch hdest.symm.trans hsome
  | some range =>
    obtain ⟨start, n⟩ := range
    have hpasses : Passes V (rejects i) frame ↔
        (emulRawTxNodes V (rejects i) frame n start).2 = true := by
      rw [emulRawTxNodes_eq, List.all_eq_true]
      constructor
      · rintro ⟨start', n', hsome, hall⟩
        obtain ⟨rfl, rfl⟩ := Prod.mk.inj (Option.some.inj (hdest.symm.trans hsome))
        simpa using hall
      · intro hall
        exact ⟨start, n, hdest, by simpa using hall⟩
    rw [hpasses]
    exact ⟨fun h ↦ ⟨_, if_pos h⟩, fun h ↦ ⟨_, if_neg h⟩⟩

theorem le_of_mem_libvirtioEmulRawTxFrames {effect : ℕ × Effect ν}
    (h : effect ∈ libvirtioEmulRawTxFrames V rejects i frames) : i ≤ effect.1 := by
  induction frames generalizing i with
  | nil => exact absurd h List.not_mem_nil
  | cons frame frames ih =>
    rw [libvirtioEmulRawTxFrames] at h
    split at h
    · exact absurd h List.not_mem_nil
    · rcases List.mem_append.1 h with hmem | hmem
      · obtain ⟨_, -, rfl⟩ := List.mem_map.1 hmem
        exact Nat.le_refl i
      · exact Nat.le_of_succ_le (ih hmem)

variable [DecidableEq ν]

/-- A list of copies has those of one node once. -/
theorem filter_flatMap_copyTo {nodes : List ν} (h : nodes.Nodup) (node : ν) :
    (nodes.flatMap (copyTo frame)).filter (fun effect ↦ effect.node = node) =
      if node ∈ nodes then copyTo frame node else [] := by
  induction nodes with
  | nil => rfl
  | cons first nodes ih =>
    obtain ⟨hnot, hnodup⟩ := List.nodup_cons.1 h
    rw [List.flatMap_cons, List.filter_append, ih hnodup]
    by_cases hfirst : first = node
    · subst hfirst
      simp [copyTo, Effect.node, hnot]
    · simp [copyTo, Effect.node, hfirst, Ne.symm hfirst]

theorem effectsOn_append (effects effects' : List (ℕ × Effect ν)) (i : ℕ) (node : ν) :
    effectsOn (effects ++ effects') i node =
      effectsOn effects i node ++ effectsOn effects' i node := by
  simp [effectsOn]

/-- What is done for a frame counts for that frame. -/
theorem effectsOn_map (effects : List (Effect ν)) (i : ℕ) (node : ν) :
    effectsOn (effects.map fun effect ↦ (i, effect)) i node =
      effects.filter fun effect ↦ effect.node = node := by
  simp [effectsOn, List.filter_map, Function.comp_def]

/-- It does not count for another one. -/
theorem effectsOn_map_of_ne (effects : List (Effect ν)) {i i' : ℕ} (h : i ≠ i') (node : ν) :
    effectsOn (effects.map fun effect ↦ (i, effect)) i' node = [] := by
  simp [effectsOn, h]

theorem effectsOn_eq_nil {effects : List (ℕ × Effect ν)} {i : ℕ}
    (h : ∀ effect ∈ effects, effect.1 ≠ i) (node : ν) : effectsOn effects i node = [] := by
  rw [effectsOn, List.map_eq_nil_iff, List.filter_eq_nil_iff]
  intro effect heffect hi
  exact h effect heffect (of_decide_eq_true hi).1

/-- Behind a frame that does not get through, nobody gets a frame. -/
theorem effectsOn_of_not_passes {k : ℕ} {stopped : Frame} (hstopped : frames[k]? = some stopped)
    (hnot : ¬ Passes V (rejects (i + k)) stopped) (hkm : k < m) (node : ν) :
    effectsOn (emulRawTxFrames V rejects i frames) (i + m) node = [] := by
  induction frames generalizing i k m with
  | nil => exact nomatch hstopped
  | cons first frames ih =>
    obtain ⟨hpass, hstop⟩ := emulRawTxFrames_cons V rejects i first frames
    by_cases hfirst : Passes V (rejects i) first
    · cases k with
      | zero =>
        obtain rfl := Option.some.inj hstopped
        exact absurd hfirst hnot
      | succ k =>
        obtain ⟨m, rfl⟩ := Nat.exists_eq_succ_of_ne_zero (Nat.ne_zero_of_lt hkm)
        obtain ⟨sent, hsent⟩ := hpass hfirst
        have heq : i + (m + 1) = i + 1 + m := by omega
        rw [hsent, effectsOn_append, effectsOn_map_of_ne sent (by omega), List.nil_append, heq]
        refine ih (k := k) hstopped ?_ (Nat.lt_of_succ_lt_succ hkm)
        rwa [Nat.add_assoc, Nat.add_comm 1 k]
    · obtain ⟨sent, hsent⟩ := hstop hfirst
      rw [hsent, effectsOn_map_of_ne sent (by omega)]

/-- **A frame that `emul_raw_tx` gets to** goes to its nodes up to the first that rejects it. -/
theorem effectsOn_of_passes {start : ℤ} (hframe : frames[m]? = some frame)
    (hpass : ∀ k < m, ∀ frame', frames[k]? = some frame' → Passes V (rejects (i + k)) frame')
    (hdest : V.destnodes frame = some (start, n)) (node : ν) :
    effectsOn (emulRawTxFrames V rejects i frames) (i + m) node =
      (emulRawTxNodes V (rejects (i + m)) frame n start).1.filter
        fun effect ↦ effect.node = node := by
  induction m generalizing i frames with
  | zero =>
    cases frames with
    | nil => exact nomatch hframe
    | cons first frames =>
      obtain rfl := Option.some.inj hframe
      have hrest : effectsOn (emulRawTxFrames V rejects (i + 1) frames) i node = [] :=
        effectsOn_eq_nil (fun effect heffect ↦
          Nat.ne_of_gt (le_of_mem_emulRawTxFrames heffect)) node
      rw [emulRawTxFrames, hdest]
      simp only [Nat.add_zero]
      split
      · rw [effectsOn_append, effectsOn_map, hrest, List.append_nil]
      · rw [effectsOn_map]
  | succ m ih =>
    cases frames with
    | nil => exact nomatch hframe
    | cons first frames =>
      obtain ⟨sent, hsent⟩ := (emulRawTxFrames_cons V rejects i first frames).1
        (hpass 0 (Nat.succ_pos m) first rfl)
      have heq : i + (m + 1) = i + 1 + m := by omega
      rw [hsent, effectsOn_append, effectsOn_map_of_ne sent (by omega), List.nil_append, heq]
      refine ih hframe fun k hk frame' hframe' ↦ ?_
      rw [Nat.add_assoc, Nat.add_comm 1 k]
      exact hpass (k + 1) (Nat.succ_lt_succ hk) frame' hframe'

/-- **A frame of an Arm guest** goes to all nodes that do not reject it, if no frame up to it is too
long. -/
theorem effectsOn_libvirtioEmulRawTxFrames (rejects : ℕ → ν → Bool)
    (hframe : frames[m]? = some frame)
    (hfits : ∀ k ≤ m, ∀ frame', frames[k]? = some frame' → frame'.len ≤ maxMtu) (node : ν) :
    effectsOn (libvirtioEmulRawTxFrames V rejects i frames) (i + m) node =
      (txVirtqueueForward V (rejects (i + m)) frame).filter fun effect ↦ effect.node = node := by
  induction frames generalizing i m with
  | nil => exact nomatch hframe
  | cons first frames ih =>
    have hfirst : ¬ maxMtu < first.len := Nat.not_lt.2 (hfits 0 (Nat.zero_le m) first rfl)
    rw [libvirtioEmulRawTxFrames, if_neg hfirst, effectsOn_append]
    cases m with
    | zero =>
      obtain rfl := Option.some.inj hframe
      have hrest : effectsOn (libvirtioEmulRawTxFrames V rejects (i + 1) frames) i node = [] :=
        effectsOn_eq_nil (fun effect heffect ↦
          Nat.ne_of_gt (le_of_mem_libvirtioEmulRawTxFrames heffect)) node
      rw [Nat.add_zero, effectsOn_map, hrest, List.append_nil]
    | succ m =>
      have heq : i + (m + 1) = i + 1 + m := by omega
      rw [effectsOn_map_of_ne _ (by omega), List.nil_append, heq]
      exact ih hframe fun k hk frame' hframe' ↦ hfits (k + 1) (Nat.succ_le_succ hk) frame' hframe'

/-- **From a frame on that is too long**, nobody gets one. -/
theorem effectsOn_of_too_long {k : ℕ} {long : Frame} (hlong : frames[k]? = some long)
    (hlen : maxMtu < long.len) (hkm : k ≤ m) (node : ν) :
    effectsOn (libvirtioEmulRawTxFrames V rejects i frames) (i + m) node = [] := by
  induction frames generalizing i k m with
  | nil => exact nomatch hlong
  | cons first frames ih =>
    rw [libvirtioEmulRawTxFrames]
    split
    · rfl
    · rename_i hfirst
      cases k with
      | zero =>
        obtain rfl := Option.some.inj hlong
        exact absurd hlen hfirst
      | succ k =>
        obtain ⟨m, rfl⟩ := Nat.exists_eq_succ_of_ne_zero (Nat.ne_zero_of_lt hkm)
        have heq : i + (m + 1) = i + 1 + m := by omega
        rw [effectsOn_append, effectsOn_map_of_ne _ (by omega), List.nil_append, heq]
        exact ih (k := k) hlong (Nat.le_of_succ_le_succ hkm)

/-! ## Everybody is served -/

/-- **Whether a node that accepts a frame gets it on x86.** -/
theorem Vswitch.Lawful.effectsOn_emulRawTx_iff (h : V.Lawful) (hframe : frames[m]? = some frame)
    (hj : V.getDestnodeByIndex j = some node) (hdest : IsDest .x86 V frame node)
    (haccept : rejects m node = false) :
    effectsOn (emulRawTx V rejects frames) m node = copyTo frame node ↔
      (∀ k < m, ∀ frame', frames[k]? = some frame' → Passes V (rejects k) frame') ∧
        ∀ j' < j, ∀ node', V.getDestnodeByIndex j' = some node' → IsDest .x86 V frame node' →
          rejects m node' = false := by
  obtain ⟨start, n, hrange, hmem⟩ := h.isDest_iff.1 hdest
  obtain ⟨k, hlo, hhi, hk⟩ := mem_visited.1 hmem
  obtain rfl := h.injective k j node hk hj
  have hbefore : (∀ j' < k, ∀ node', V.getDestnodeByIndex j' = some node' →
      IsDest .x86 V frame node' → rejects m node' = false) ↔
        node ∈ (visited V n start).takeWhile fun node ↦ !rejects m node := by
    rw [h.mem_takeWhile_iff hlo hhi hk haccept]
    constructor
    · intro hall j' hj' hj'' node' hnode'
      exact hall j' hj'' node' hnode' (h.isDest_iff.2
        ⟨start, n, hrange, mem_visited.2 ⟨j', hj', by omega, hnode'⟩⟩)
    · intro hall j' hj' node' hnode' hdest'
      obtain ⟨start', n', hrange', hmem'⟩ := h.isDest_iff.1 hdest'
      obtain ⟨rfl, rfl⟩ := Prod.mk.inj (Option.some.inj (hrange.symm.trans hrange'))
      obtain ⟨k', hk', -, hnode''⟩ := mem_visited.1 hmem'
      obtain rfl := h.injective k' j' node' hnode'' hnode'
      exact hall k' hk' hj' node' hnode'
  rw [hbefore, emulRawTx]
  by_cases hpass : ∀ k < m, ∀ frame', frames[k]? = some frame' → Passes V (rejects k) frame'
  · have heffects := effectsOn_of_passes (i := 0) hframe (by simpa using hpass) hrange node
    have hnodup : ((visited V n start).takeWhile fun node ↦ !rejects m node).Nodup :=
      (List.takeWhile_sublist _).nodup (h.nodup_visited n start)
    rw [Nat.zero_add, emulRawTxNodes_eq, filter_flatMap_copyTo hnodup] at heffects
    rw [heffects, and_iff_right hpass]
    split
    · rename_i hin
      exact iff_of_true rfl hin
    · rename_i hout
      exact iff_of_false nofun hout
  · refine iff_of_false (fun heq ↦ ?_) fun hboth ↦ hpass hboth.1
    simp only [not_forall] at hpass
    obtain ⟨k', hk', stopped, hstopped, hnot⟩ := hpass
    have hnil := effectsOn_of_not_passes (i := 0) hstopped (by simpa using hnot) hk' node
    rw [Nat.zero_add, heq] at hnil
    exact nomatch hnil

/-- **Whether a node that accepts a frame gets it on Arm.** -/
theorem Vswitch.Lawful.effectsOn_libvirtioEmulRawTx_iff (h : V.Lawful)
    (hframe : frames[m]? = some frame) (hdest : IsDest .arm V frame node)
    (haccept : rejects m node = false) :
    effectsOn (libvirtioEmulRawTx V rejects frames) m node = copyTo frame node ↔
      ∀ k ≤ m, ∀ frame', frames[k]? = some frame' → frame'.len ≤ maxMtu := by
  rw [libvirtioEmulRawTx]
  constructor
  · intro hcopy k hk long hlong
    by_contra hlen
    have hnil : effectsOn (libvirtioEmulRawTxFrames V rejects 0 frames) (0 + m) node = [] :=
      effectsOn_of_too_long hlong (Nat.lt_of_not_le hlen) hk node
    rw [Nat.zero_add, hcopy] at hnil
    exact nomatch hnil
  · intro hfits
    obtain ⟨k, hk⟩ := hdest
    obtain ⟨hlo, hhi⟩ := (h.isSome_iff k).1 (by rw [hk]; rfl)
    have hmem : node ∈ (visited V V.nConnected 0).filter fun node ↦ !rejects m node :=
      List.mem_filter.2 ⟨mem_visited.2 ⟨k, hlo, by omega, hk⟩, by simp [haccept]⟩
    have hnodup : ((visited V V.nConnected 0).filter fun node ↦ !rejects m node).Nodup :=
      (h.nodup_visited _ _).filter _
    have heffects := effectsOn_libvirtioEmulRawTxFrames (V := V) (i := 0) rejects hframe hfits node
    rw [Nat.zero_add, txVirtqueueForward, txVirtqueueForwardNodes_eq, filter_flatMap_copyTo hnodup,
      if_pos hmem] at heffects
    exact heffects

/-- **When everybody is served.** -/
theorem served_iff (h : V.Lawful) (vmm : Vmm) (rejects : ℕ → ν → Bool) (frames : List Frame) :
    Served vmm V rejects frames ↔ Unhindered vmm V rejects frames := by
  cases vmm with
  | arm =>
    constructor
    · intro hserved i frame node hframe hdest haccept
      exact (h.effectsOn_libvirtioEmulRawTx_iff hframe hdest haccept).1
        (hserved i frame node hframe hdest haccept)
    · intro hfree i frame node hframe hdest haccept
      exact (h.effectsOn_libvirtioEmulRawTx_iff hframe hdest haccept).2
        (hfree i frame node hframe hdest haccept)
  | x86 =>
    constructor
    · intro hserved i frame j node hframe hj hdest haccept
      obtain ⟨hpass, hbefore⟩ := (h.effectsOn_emulRawTx_iff hframe hj hdest haccept).1
        (hserved i frame node hframe hdest haccept)
      exact ⟨fun i' hi' frame' hframe' ↦ h.passes_iff.1 (hpass i' hi' frame' hframe'), hbefore⟩
    · intro hfree i frame node hframe hdest haccept
      obtain ⟨start, n, -, hmem⟩ := h.isDest_iff.1 hdest
      obtain ⟨j, -, -, hj⟩ := mem_visited.1 hmem
      obtain ⟨hpass, hbefore⟩ := hfree i frame j node hframe hj hdest haccept
      exact (h.effectsOn_emulRawTx_iff hframe hj hdest haccept).2
        ⟨fun i' hi' frame' hframe' ↦ h.passes_iff.2 (hpass i' hi' frame' hframe'), hbefore⟩

end

/-- Three nodes, in the order of their last address bytes. -/
def threeNodes : Vswitch (Fin 3) where
  nConnected := 3
  getDestnodeIndexByMacaddr mac := if (mac 5).toNat < 3 then (mac 5).toNat else -1
  getDestnodeByIndex j := if h : 0 ≤ j ∧ j < 3 then some ⟨j.toNat, by omega⟩ else none
  eqBcast mac := decide (∀ k, mac k = 0xFF)
  eqIpv6Mcast mac := mac 0 == 0x33 && mac 1 == 0x33

theorem threeNodes_lawful : threeNodes.Lawful := by
  refine ⟨fun j ↦ ?_, fun j j' node hj hj' ↦ ?_, fun mac ↦ ?_⟩
  · by_cases h : 0 ≤ j ∧ j < 3 <;> simp [threeNodes, h]
  · simp only [threeNodes, Option.dite_none_right_eq_some, Option.some.injEq, Fin.ext_iff] at hj hj'
    obtain ⟨hrange, hnode⟩ := hj
    obtain ⟨hrange', hnode'⟩ := hj'
    omega
  · simp only [threeNodes]
    split <;> omega

/-- A broadcast. -/
def broadcast : Frame := ⟨fun _ ↦ 0xFF, 60⟩

/-- The broadcast on x86, when the queue of the last node is full. -/
theorem served_iff_broadcast :
    Served .x86 threeNodes (fun _ node ↦ node == 2) [broadcast] ↔
      Unhindered .x86 threeNodes (fun _ node ↦ node == 2) [broadcast] :=
  served_iff threeNodes_lawful .x86 _ _

/-- **When the queue of the first node is full**, the others do not get the broadcast. -/
theorem not_served_broadcast :
    ¬ ∀ (vmm : Vmm) (V : Vswitch (Fin 3)) (rejects : ℕ → Fin 3 → Bool) (frames : List Frame),
      V.Lawful → Served vmm V rejects frames := by
  intro h
  have hserved := h .x86 threeNodes (fun _ node ↦ node == 0) [broadcast] threeNodes_lawful 0
    broadcast 1 rfl
  have hdest : IsDest .x86 threeNodes broadcast 1 := ⟨1, rfl⟩
  exact nomatch (show [] = _ from hserved hdest rfl)

end VirtioNet
end CamkesVm
