import Mathlib.Data.List.Basic
import Mathlib.Logic.Function.Basic

/-!
# Singly linked lists in memory

A linked list is a head pointer and a `next` pointer in each node.  `Linked next head l` says that
following the pointers from `head` one meets the nodes `l`, in order, and then the end.  The rules
are those of the usual operations: a store to the `next` pointer of some other node changes nothing
(`Linked.update`), and a node can be put in front of a list (`Linked.push`), or behind its last node
(`Linked.snoc`).

## How it is used

`eq_nil_iff` and `exists_cons` say what list a head pointer belongs to, one node at a time, so a
proof about a procedure that follows the pointers is an induction on the list. A store to a pointer
is a `Function.update` of `next`, and the rules here say what list that leaves. That the nodes of a
list are different from each other is asked of the list as `List.Nodup`, where an operation needs
it.

A node is a value of any type with decidable equality, so the nodes can be the addresses of a heap,
the indices of an array, or the structures themselves.
-/

set_option autoImplicit false

universe u

variable {ι : Type u}

/-- From `head` the pointers lead through the nodes `l` to the end. -/
def Linked (next : ι → Option ι) : Option ι → List ι → Prop
  | head, [] => head = none
  | head, i :: l => head = some i ∧ Linked next (next i) l

namespace Linked

variable {next next' : ι → Option ι} {head : Option ι} {l : List ι} {i m : ι} {p : Option ι}

theorem nil : Linked next none [] := rfl

/-- The empty list is the one without a first node. -/
theorem eq_nil_iff (h : Linked next head l) : head = none ↔ l = [] := by
  cases l with
  | nil => exact iff_of_true h rfl
  | cons i l => exact iff_of_false (fun hnone ↦ nomatch hnone.symm.trans h.1) nofun

/-- A list with a first node. -/
theorem exists_cons (h : Linked next (some i) l) : ∃ l', l = i :: l' ∧ Linked next (next i) l' := by
  cases l with
  | nil => exact nomatch (show some i = none from h)
  | cons j l =>
    obtain ⟨hi, htail⟩ := h
    obtain rfl := Option.some.inj hi
    exact ⟨l, rfl, htail⟩

/-- Only the pointers of the list's own nodes matter. -/
theorem congr (hnext : ∀ i ∈ l, next' i = next i) (h : Linked next head l) :
    Linked next' head l := by
  induction l generalizing head with
  | nil => exact h
  | cons i l ih =>
    refine ⟨h.1, ?_⟩
    rw [hnext i (List.mem_cons_self ..)]
    exact ih (fun j hj ↦ hnext j (List.mem_cons_of_mem _ hj)) h.2

variable [DecidableEq ι]

/-- **A store to another node's pointer** leaves a list alone. -/
theorem update (h : Linked next head l) (hm : m ∉ l) :
    Linked (Function.update next m p) head l := by
  refine h.congr fun i hi ↦ Function.update_of_ne ?_ _ _
  rintro rfl
  exact hm hi

/-- **A node in front of a list.** -/
theorem push (h : Linked next head l) (hm : m ∉ l) :
    Linked (Function.update next m head) (some m) (m :: l) := by
  refine ⟨rfl, ?_⟩
  rw [Function.update_self]
  exact h.update hm

/-- **A node behind the last node of a list.** -/
theorem snoc {last : ι} (h : Linked next head (l ++ [last])) (hnodup : (l ++ [last]).Nodup)
    (hm : m ∉ l ++ [last]) (hend : next m = none) :
    Linked (Function.update next last (some m)) head (l ++ [last] ++ [m]) := by
  induction l generalizing head with
  | nil =>
    have hne : m ≠ last := fun heq ↦ hm (by simp [heq])
    refine ⟨h.1, ?_⟩
    rw [Function.update_self]
    refine ⟨rfl, ?_⟩
    rw [Function.update_of_ne hne, hend]
    exact Linked.nil
  | cons i l ih =>
    obtain ⟨hi, hnodup'⟩ := List.nodup_cons.1 hnodup
    have hne : i ≠ last := fun heq ↦ hi (by simp [heq])
    refine ⟨h.1, ?_⟩
    rw [Function.update_of_ne hne]
    exact ih h.2 hnodup' fun hmem ↦ hm (List.mem_cons_of_mem _ hmem)

end Linked
