import Mathlib.Data.List.Basic

/-!
# The table of cross-VM connections

A VM is given its cross-VM connections from two places: an array, and a linker section to which any
module can add a pointer, where a `NULL` pointer says that there is no connection after all.
`cross_vm_connections_init` counts the pointers that are not `NULL`, allocates a table for them and
for the array, and fills it.  The loop that fills it from the section steps its index at every
pointer, whether or not it has anything to store.

`complete_iff` says for which sections the two loops agree: those that have their `NULL` pointers at
the end.

## What is here

* `CamkesCrossvmConnection`, `CrossvmHandle` — a connection as it is given, and its entry in the
  table. The functions in them are called while the table is filled, so their results are fields
  here; the emit function is only passed on, and its type is a parameter.
* `Table` — the array while it is filled, and the indices that were written. A write behind the end
  is recorded as well.
* `setupConnections`, `setupDefinitions`, `crossVmConnectionsInit` — the two loops, and the function
  with the allocations that may fail.
* `Complete`, `NullsLast` — what the table should be, and what the section should look like.
* `places`, `written_setupDefinitions` — where the second loop stores; the rest is counting.
* `complete_iff`, `not_complete_nullFirst` — the exact condition, and the smallest section that
  fails it.

The order of the pointers in a linker section is the linker's, so a module that adds a `NULL`
pointer cannot see to it that it comes last.
-/

set_option autoImplicit false

namespace CamkesVm
namespace CrossVm

variable {φ : Type}

/-! ## Data -/

/-- A dataport, as a `dataport_caps_handle_t` gives it away. -/
structure DataportCapsHandle where
  /-- What `get_frame_size_bits` returns. -/
  frameSizeBits : ℕ
  /-- What `get_num_frame_caps` returns. -/
  numFrameCaps : ℕ
  /-- What `get_frame_caps` returns. -/
  frameCaps : List ℕ
  deriving DecidableEq

/-- `camkes_crossvm_connection_t`. -/
structure CamkesCrossvmConnection (φ : Type) where
  /-- `handle` -/
  handle : DataportCapsHandle
  /-- `emit_fn` -/
  emitFn : φ
  /-- `consume_badge` -/
  consumeBadge : ℕ
  /-- `connection_name` -/
  connectionName : String
  deriving DecidableEq

/-- `crossvm_dataport_handle_t`. -/
structure CrossvmDataportHandle where
  /-- `frame_size_bits` -/
  frameSizeBits : ℕ
  /-- `num_frames` -/
  numFrames : ℕ
  /-- `frames` -/
  frames : List ℕ
  deriving DecidableEq

/-- `crossvm_handle_t`. -/
structure CrossvmHandle (φ : Type) where
  /-- `dataport` -/
  dataport : CrossvmDataportHandle
  /-- `emit_fn` -/
  emitFn : φ
  /-- `consume_id` -/
  consumeId : ℕ
  /-- `connection_name` -/
  connectionName : String
  deriving DecidableEq

/-- The entry for a connection. -/
def CamkesCrossvmConnection.toHandle (connection : CamkesCrossvmConnection φ) :
    CrossvmHandle φ where
  dataport :=
    { frameSizeBits := connection.handle.frameSizeBits
      numFrames := connection.handle.numFrameCaps
      frames := connection.handle.frameCaps }
  emitFn := connection.emitFn
  consumeId := connection.consumeBadge
  connectionName := connection.connectionName

/-- The table while it is filled. -/
structure Table (φ : Type) where
  /-- `crossvm_connections`; an entry may not have been written yet. -/
  entries : List (Option (CrossvmHandle φ))
  /-- The indices that were written. -/
  written : List ℕ
  /-- How many times `calloc` was called. -/
  callocs : ℕ
  deriving DecidableEq

/-! ## Filling the table -/

section

variable (memory : ℕ → Bool)

/-- `setup_connection`.  The `k`-th `calloc` succeeds if `memory k`; `none` is the return
value -1. -/
def setupConnection (t : Table φ) (index : ℕ) (connection : CamkesCrossvmConnection φ) :
    Option (Table φ) :=
  if memory t.callocs then
    some ⟨t.entries.set index (some connection.toHandle), t.written ++ [index], t.callocs + 1⟩
  else none

/-- The loop over the array, from index `i` on. -/
def setupConnections : Table φ → ℕ → List (CamkesCrossvmConnection φ) → Option (Table φ)
  | t, _, [] => some t
  | t, i, connection :: rest =>
    match setupConnection memory t i connection with
    | none => none
    | some t => setupConnections t (i + 1) rest

/-- The loop over the section, from index `i` on. -/
def setupDefinitions : Table φ → ℕ → List (Option (CamkesCrossvmConnection φ)) → Option (Table φ)
  | t, _, [] => some t
  | t, i, none :: rest => setupDefinitions t (i + 1) rest
  | t, i, some connection :: rest =>
    match setupConnection memory t i connection with
    | none => none
    | some t => setupDefinitions t (i + 1) rest

/-- `sectioned_connections`: the pointers that are not `NULL`. -/
def sectionedConnections (definitions : List (Option (CamkesCrossvmConnection φ))) : ℕ :=
  definitions.foldl (fun n i ↦ if i.isSome then n + 1 else n) 0

/-- `cross_vm_connections_init`, as far as the table that it hands to
`cross_vm_connections_init_common`; `none` if it returns before that. -/
def crossVmConnectionsInit (connections : List (CamkesCrossvmConnection φ))
    (definitions : List (Option (CamkesCrossvmConnection φ))) : Option (Table φ) :=
  if memory 0 then
    match setupConnections memory
        ⟨List.replicate (connections.length + sectionedConnections definitions) none, [], 1⟩ 0
        connections with
    | none => none
    | some t => setupDefinitions memory t connections.length definitions
  else none

end

/-- The table has the connections of the array and those of the section, and nothing else has been
written. -/
structure Complete (connections : List (CamkesCrossvmConnection φ))
    (definitions : List (Option (CamkesCrossvmConnection φ))) (t : Table φ) : Prop where
  /-- Every index is below the number of entries that were allocated. -/
  inBounds : ∀ i ∈ t.written, i < connections.length + sectionedConnections definitions
  /-- There is an entry for every connection. -/
  length : t.entries.length = connections.length + (definitions.filterMap id).length
  /-- The entries are the connections in order, and none is empty. -/
  entries : t.entries =
    (connections ++ definitions.filterMap id).map fun connection ↦ some connection.toHandle

/-- No connection comes after a `NULL` pointer. -/
def NullsLast (definitions : List (Option (CamkesCrossvmConnection φ))) : Prop :=
  definitions.Pairwise fun i j ↦ i = none → j = none

instance [DecidableEq φ] (definitions : List (Option (CamkesCrossvmConnection φ))) :
    Decidable (NullsLast definitions) :=
  inferInstanceAs (Decidable (List.Pairwise _ _))

/-! ## Counting -/

section

variable {definitions : List (Option (CamkesCrossvmConnection φ))}

theorem sectionedConnections_eq (definitions : List (Option (CamkesCrossvmConnection φ))) :
    sectionedConnections definitions = (definitions.filterMap id).length := by
  have hfold : ∀ n, definitions.foldl (fun n i ↦ if i.isSome then n + 1 else n) n =
      n + (definitions.filterMap id).length := by
    induction definitions with
    | nil => exact fun n ↦ rfl
    | cons definition rest ih =>
      intro n
      rw [List.foldl_cons, ih]
      cases definition with
      | none => rfl
      | some connection => exact Nat.add_right_comm n 1 _
  rw [sectionedConnections, hfold, Nat.zero_add]

/-- `NULL` pointers are at the end if the section is the connections with `NULL` pointers behind. -/
theorem NullsLast.eq_append (h : NullsLast definitions) :
    ∃ n, definitions = (definitions.filterMap id).map some ++ List.replicate n none := by
  induction definitions with
  | nil => exact ⟨0, rfl⟩
  | cons definition rest ih =>
    obtain ⟨hhead, hrest⟩ := List.pairwise_cons.1 h
    obtain ⟨n, hn⟩ := ih hrest
    cases definition with
    | some connection => exact ⟨n, congrArg (List.cons (some connection)) hn⟩
    | none =>
      have hnone : rest = List.replicate rest.length none :=
        List.eq_replicate_of_mem fun j hj ↦ hhead j hj rfl
      refine ⟨rest.length + 1, ?_⟩
      rw [hnone]
      simp [List.replicate_succ]

/-- If every connection of the section has a place below `k`, there are at most `k`. -/
theorem length_filterMap_le {k : ℕ}
    (h : ∀ p connection, definitions[p]? = some (some connection) → p < k) :
    (definitions.filterMap id).length ≤ k := by
  have hdrop : (definitions.drop k).filterMap id = [] := by
    refine List.filterMap_eq_nil_iff.2 fun definition hd ↦ ?_
    obtain ⟨p, hp⟩ := List.mem_iff_getElem?.1 hd
    rw [List.getElem?_drop] at hp
    cases definition with
    | none => rfl
    | some connection => exact absurd (h _ connection hp) (by omega)
  have hsplit : definitions.filterMap id = (definitions.take k).filterMap id := by
    rw [← List.append_nil ((definitions.take k).filterMap id), ← hdrop, ← List.filterMap_append,
      List.take_append_drop]
  rw [hsplit]
  exact Nat.le_trans (List.length_filterMap_le _ _) (List.length_take_le k _)

/-- **`NULL` pointers are at the end** if every connection has a place below their number: a
connection behind a `NULL` pointer would push the last one too far. -/
theorem nullsLast_of_lt
    (h : ∀ p connection, definitions[p]? = some (some connection) →
      p < (definitions.filterMap id).length) : NullsLast definitions := by
  induction definitions with
  | nil => exact List.Pairwise.nil
  | cons definition rest ih =>
    cases definition with
    | some connection =>
      refine List.pairwise_cons.2 ⟨nofun, ih fun p c hp ↦ ?_⟩
      exact Nat.lt_of_succ_lt_succ (h (p + 1) c hp)
    | none =>
      have hall : ∀ p connection, rest[p]? = some (some connection) →
          p < (rest.filterMap id).length - 1 := by
        intro p c hp
        have hlt : p + 1 < (rest.filterMap id).length := h (p + 1) c hp
        omega
      have hle := length_filterMap_le hall
      have hnil : rest.filterMap id = [] := List.length_eq_zero_iff.1 (by
        rcases Nat.eq_zero_or_pos (rest.filterMap id).length with hzero | hpos
        · exact hzero
        · omega)
      refine List.pairwise_cons.2 ⟨fun j hj _ ↦ List.filterMap_eq_nil_iff.1 hnil j hj, ?_⟩
      exact List.pairwise_of_forall_mem_list fun _ _ j hj _ ↦
        List.filterMap_eq_nil_iff.1 hnil j hj

end

/-! ## What the loops write -/

section

variable {memory : ℕ → Bool} {t : Table φ} {i : ℕ}

/-- The indices at which the loop over the section stores something. -/
def places (i : ℕ) : List (Option (CamkesCrossvmConnection φ)) → List ℕ
  | [] => []
  | none :: rest => places (i + 1) rest
  | some _ :: rest => i :: places (i + 1) rest

theorem mem_places {definitions : List (Option (CamkesCrossvmConnection φ))} {p : ℕ}
    {connection : CamkesCrossvmConnection φ} (h : definitions[p]? = some (some connection)) :
    i + p ∈ places i definitions := by
  induction definitions generalizing i p with
  | nil => exact nomatch h
  | cons definition rest ih =>
    cases p with
    | zero =>
      obtain rfl : definition = some connection := Option.some.inj h
      exact List.mem_cons_self
    | succ p =>
      have hmem : i + 1 + p ∈ places (i + 1) rest := ih h
      rw [Nat.add_right_comm, Nat.add_assoc] at hmem
      cases definition with
      | none => exact hmem
      | some _ => exact List.mem_cons_of_mem _ hmem

/-- The loop over the array is a loop over a section without `NULL` pointers. -/
theorem setupConnections_eq (memory : ℕ → Bool) (t : Table φ) (i : ℕ)
    (connections : List (CamkesCrossvmConnection φ)) :
    setupConnections memory t i connections =
      setupDefinitions memory t i (connections.map some) := by
  induction connections generalizing t i with
  | nil => rfl
  | cons connection rest ih =>
    rw [setupConnections, List.map_cons, setupDefinitions]
    split
    · rfl
    · exact ih _ _

theorem setupConnection_of_memory (h : ∀ k, memory k = true) (t : Table φ) (i : ℕ)
    (connection : CamkesCrossvmConnection φ) :
    setupConnection memory t i connection =
      some ⟨t.entries.set i (some connection.toHandle), t.written ++ [i], t.callocs + 1⟩ :=
  if_pos (h _)

/-- `NULL` pointers at the end write nothing. -/
theorem setupDefinitions_append_replicate (memory : ℕ → Bool) (t : Table φ) (i n : ℕ)
    (definitions : List (Option (CamkesCrossvmConnection φ))) :
    setupDefinitions memory t i (definitions ++ List.replicate n none) =
      setupDefinitions memory t i definitions := by
  induction definitions generalizing t i with
  | nil =>
    rw [List.nil_append]
    induction n generalizing i with
    | zero => rfl
    | succ n ih => exact ih (i + 1)
  | cons definition rest ih =>
    cases definition with
    | none => exact ih t (i + 1)
    | some connection =>
      rw [List.cons_append, setupDefinitions, setupDefinitions]
      split
      · rfl
      · exact ih _ _

/-- **The loop over the section** stores something at the places of its connections. -/
theorem written_setupDefinitions (h : ∀ k, memory k = true) (t : Table φ) (i : ℕ)
    (definitions : List (Option (CamkesCrossvmConnection φ))) :
    ∃ u, setupDefinitions memory t i definitions = some u ∧
      u.written = t.written ++ places i definitions := by
  induction definitions generalizing t i with
  | nil => exact ⟨t, rfl, (List.append_nil _).symm⟩
  | cons definition rest ih =>
    cases definition with
    | none => exact ih t (i + 1)
    | some connection =>
      rw [setupDefinitions, setupConnection_of_memory h]
      obtain ⟨u, hu, hwritten⟩ := ih ⟨t.entries.set i (some connection.toHandle), t.written ++ [i],
        t.callocs + 1⟩ (i + 1)
      exact ⟨u, hu, by rw [hwritten, List.append_assoc]; rfl⟩

/-- **A loop that meets no `NULL` pointer** fills the table up, as far as there is room. -/
theorem setupConnections_spec (h : ∀ k, memory k = true)
    (connections : List (CamkesCrossvmConnection φ)) (done : List (Option (CrossvmHandle φ)))
    {free : ℕ} (written : List ℕ) (callocs : ℕ) (hroom : connections.length ≤ free) :
    ∃ written' callocs', setupConnections memory
        ⟨done ++ List.replicate free none, written, callocs⟩ done.length connections =
      some ⟨done ++ connections.map (fun connection ↦ some connection.toHandle) ++
        List.replicate (free - connections.length) none, written ++ written', callocs'⟩ ∧
      ∀ i ∈ written', i < done.length + connections.length := by
  induction connections generalizing done free written callocs with
  | nil => exact ⟨[], callocs, by simp [setupConnections], nofun⟩
  | cons connection rest ih =>
    obtain ⟨free, rfl⟩ : ∃ n, free = n + 1 := ⟨free - 1, by simp at hroom; omega⟩
    have hset : (done ++ List.replicate (free + 1) none).set done.length
        (some connection.toHandle) =
          (done ++ [some connection.toHandle]) ++ List.replicate free none := by
      rw [List.replicate_succ, List.set_append_right _ _ (Nat.le_refl _), Nat.sub_self,
        List.set_cons_zero, List.append_assoc, List.singleton_append]
    obtain ⟨written', callocs', heq, hlt⟩ := ih (done ++ [some connection.toHandle])
      (written ++ [done.length]) (callocs + 1) (Nat.le_of_succ_le_succ hroom)
    refine ⟨done.length :: written', callocs', ?_, ?_⟩
    · rw [List.length_append, List.length_singleton] at heq
      rw [setupConnections, setupConnection_of_memory h, hset]
      simpa using heq
    · simp only [List.length_append, List.length_singleton] at hlt
      rintro j (_ | ⟨_, hj⟩)
      · simp
      · exact Nat.lt_of_lt_of_eq (hlt j hj) (by simp; omega)

/-! ## The table -/

theorem setupConnections_append (t : Table φ) (i : ℕ)
    (connections connections' : List (CamkesCrossvmConnection φ)) :
    setupConnections memory t i (connections ++ connections') =
      match setupConnections memory t i connections with
      | none => none
      | some t => setupConnections memory t (i + connections.length) connections' := by
  induction connections generalizing t i with
  | nil => rfl
  | cons connection rest ih =>
    rw [List.cons_append, setupConnections, setupConnections]
    split
    · rfl
    · rw [ih, List.length_cons, Nat.add_right_comm, Nat.add_assoc]

/-- **A section with its `NULL` pointers at the end** makes a complete table. -/
theorem complete_of_nullsLast {connections : List (CamkesCrossvmConnection φ)}
    {definitions : List (Option (CamkesCrossvmConnection φ))} (hmemory : ∀ k, memory k = true)
    (h : NullsLast definitions) :
    ∃ t, crossVmConnectionsInit memory connections definitions = some t ∧
      Complete connections definitions t := by
  obtain ⟨n, hn⟩ := h.eq_append
  have hcount := sectionedConnections_eq definitions
  have hlen : connections.length + sectionedConnections definitions =
      (connections ++ definitions.filterMap id).length := by
    rw [hcount, List.length_append]
  -- the loop over the section goes on where the one over the array has stopped
  have hloops : crossVmConnectionsInit memory connections definitions = setupConnections memory
      ⟨List.replicate (connections ++ definitions.filterMap id).length none, [], 1⟩ 0
      (connections ++ definitions.filterMap id) := by
    rw [crossVmConnectionsInit, if_pos (hmemory 0), setupConnections_append, hlen, Nat.zero_add]
    split
    · rfl
    · rename_i t _
      rw [setupConnections_eq memory t]
      exact (congrArg (setupDefinitions memory t connections.length) hn).trans
        (setupDefinitions_append_replicate memory t _ n _)
  obtain ⟨written, callocs, heq, hlt⟩ := setupConnections_spec hmemory
    (connections ++ definitions.filterMap id) [] [] 1 (Nat.le_refl _)
  rw [List.nil_append, List.length_nil] at heq
  refine ⟨_, hloops.trans heq, ⟨fun i hi ↦ ?_, ?_, ?_⟩⟩
  · rw [hlen]
    exact Nat.lt_of_lt_of_eq (hlt i hi) (Nat.zero_add _)
  · simp
  · simp

/-- **When the table is complete**: if no allocation fails, the connections all have their entries,
and nothing is written behind them, exactly if no connection of the section comes after a `NULL`
pointer. -/
theorem complete_iff (hmemory : ∀ k, memory k = true)
    (connections : List (CamkesCrossvmConnection φ))
    (definitions : List (Option (CamkesCrossvmConnection φ))) :
    (∃ t, crossVmConnectionsInit memory connections definitions = some t ∧
      Complete connections definitions t) ↔ NullsLast definitions := by
  refine ⟨fun ⟨t, ht, hcomplete⟩ ↦ nullsLast_of_lt fun p connection hp ↦ ?_,
    complete_of_nullsLast hmemory⟩
  rw [crossVmConnectionsInit, if_pos (hmemory 0)] at ht
  split at ht
  · exact nomatch ht
  · rename_i t' _
    obtain ⟨u, hu, hwritten⟩ :=
      written_setupDefinitions hmemory t' connections.length definitions
    obtain rfl : u = t := Option.some.inj (hu.symm.trans ht)
    have hlt := hcomplete.inBounds (connections.length + p) (by
      rw [hwritten]
      exact List.mem_append_right _ (mem_places hp))
    rw [sectionedConnections_eq] at hlt
    omega

end

/-- A connection with nothing in it. -/
def someConnection : CamkesCrossvmConnection Unit := ⟨⟨12, 1, [1]⟩, (), 0, "connection"⟩

/-- The theorem at one connection in the array and one in the section, with a `NULL` pointer
behind. -/
theorem complete_iff_two :
    (∃ t, crossVmConnectionsInit (fun _ ↦ true) [someConnection] [some someConnection, none] =
        some t ∧ Complete [someConnection] [some someConnection, none] t) ↔
      NullsLast [some someConnection, none] :=
  complete_iff (fun _ ↦ rfl) [someConnection] [some someConnection, none]

/-- **A `NULL` pointer before a connection**: the table gets one entry, and the second is
written. -/
theorem not_complete_nullFirst :
    ¬ ∀ (memory : ℕ → Bool) (connections : List (CamkesCrossvmConnection Unit))
      (definitions : List (Option (CamkesCrossvmConnection Unit))), (∀ k, memory k = true) →
      ∃ t, crossVmConnectionsInit memory connections definitions = some t ∧
        Complete connections definitions t := by
  intro h
  obtain ⟨t, ht, hcomplete⟩ := h (fun _ ↦ true) [] [none, some someConnection] fun _ ↦ rfl
  obtain rfl := Option.some.inj ht
  exact absurd (hcomplete.inBounds 1 (by decide)) (by decide)

end CrossVm
end CamkesVm
