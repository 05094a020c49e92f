import Mathlib.Data.Multiset.AddSub

/-!
# Taking resources and giving them back

An allocator hands resources out and takes them back.  A ledger is the list of what happened, oldest
first; `settle` goes through it with the resources that are out, and stops at one that is given back
without being out.

A piece of code that cleans up behind itself has a `Balanced` ledger: it leaves out what was out
before, whatever that was.  Such ledgers can be put one behind the other (`Balanced.append`) and one
inside another (`Balanced.enclosed`), and they give back each resource as often as they take it
(`Balanced.count_eq`).

## What is here

* `Op`, `settle` — the two operations, and the resources that are out after a ledger, as a list;
  `none` if one was given back that was not out.
* `count_settle` — how often a resource is out afterwards.
* `Balanced` — nothing is out that was not out before; `Balanced.append`, `Balanced.enclosed` and
  `Balanced.count_eq` are its rules.

A function with many exits has one ledger for each; that each of them is balanced says that it
neither leaks nor gives back what it does not have, on every path. The rules follow the shape of
such functions, which allocate on the way in and release on the way out.
-/

set_option autoImplicit false

namespace Ledger

universe u

/-- What happens to a resource. -/
inductive Op (ρ : Type u)
  /-- It is handed out. -/
  | take (r : ρ)
  /-- It is given back. -/
  | give (r : ρ)
  deriving DecidableEq

variable {ρ : Type u} [DecidableEq ρ]

/-- The resources that are out afterwards, if no resource was given back that was not out. -/
def settle (held : Multiset ρ) : List (Op ρ) → Option (Multiset ρ)
  | [] => some held
  | .take r :: ops => settle (r ::ₘ held) ops
  | .give r :: ops => if r ∈ held then settle (held.erase r) ops else none

/-- What was out before is out afterwards. -/
def Balanced (ops : List (Op ρ)) : Prop := ∀ held, settle held ops = some held

variable {held held' : Multiset ρ} {ops ops' : List (Op ρ)} {r : ρ}

theorem settle_append (held : Multiset ρ) (ops ops' : List (Op ρ)) :
    settle held (ops ++ ops') = (settle held ops).bind fun held ↦ settle held ops' := by
  induction ops generalizing held with
  | nil => rfl
  | cons op ops ih =>
    cases op with
    | take r => exact ih _
    | give r =>
      rw [List.cons_append, settle, settle]
      split
      · exact ih _
      · rfl

theorem settle_map_take (held : Multiset ρ) (l : List ρ) :
    settle held (l.map .take) = some ((l : Multiset ρ) + held) := by
  induction l generalizing held with
  | nil => exact congrArg some (Multiset.zero_add held).symm
  | cons r l ih =>
    rw [List.map_cons, settle, ih, Multiset.add_cons, ← Multiset.cons_coe, Multiset.cons_add]

theorem settle_map_give (held : Multiset ρ) (l : List ρ) :
    settle ((l : Multiset ρ) + held) (l.map .give) = some held := by
  induction l with
  | nil => exact congrArg some (Multiset.zero_add held)
  | cons r l ih =>
    rw [List.map_cons, settle, ← Multiset.cons_coe, Multiset.cons_add,
      if_pos (Multiset.mem_cons_self r _), Multiset.erase_cons_head, ih]

@[simp] theorem count_take_map_take (l : List ρ) (r : ρ) :
    (l.map Op.take).count (.take r) = l.count r :=
  List.count_map_of_injective _ _ (fun _ _ ↦ Op.take.inj) r

@[simp] theorem count_give_map_give (l : List ρ) (r : ρ) :
    (l.map Op.give).count (.give r) = l.count r :=
  List.count_map_of_injective _ _ (fun _ _ ↦ Op.give.inj) r

@[simp] theorem count_take_map_give (l : List ρ) (r : ρ) :
    (l.map Op.give).count (.take r) = 0 := List.count_eq_zero.2 (by simp)

@[simp] theorem count_give_map_take (l : List ρ) (r : ρ) :
    (l.map Op.take).count (.give r) = 0 := List.count_eq_zero.2 (by simp)

/-- **What is out is what was taken and not given back.** -/
theorem count_settle (h : settle held ops = some held') (r : ρ) :
    held'.count r + ops.count (.give r) = held.count r + ops.count (.take r) := by
  induction ops generalizing held with
  | nil =>
    obtain rfl := Option.some.inj h
    rfl
  | cons op ops ih =>
    cases op with
    | take q =>
      have hrest := ih h
      rw [Multiset.count_cons] at hrest
      rw [List.count_cons_of_ne (show Op.take q ≠ .give r from nofun), List.count_cons]
      by_cases hq : r = q
      · simp [hq] at hrest ⊢
        omega
      · simpa [hq, Ne.symm hq] using hrest
    | give q =>
      rw [settle] at h
      split at h
      · rename_i hmem
        have hrest := ih h
        rw [List.count_cons_of_ne (show Op.give q ≠ .take r from nofun), List.count_cons]
        by_cases hq : r = q
        · subst hq
          have hpos := Multiset.one_le_count_iff_mem.2 hmem
          rw [Multiset.count_erase_self] at hrest
          simp
          omega
        · rw [Multiset.count_erase_of_ne hq] at hrest
          simpa [Ne.symm hq] using hrest
      · exact nomatch h

namespace Balanced

theorem nil : Balanced ([] : List (Op ρ)) := fun _ ↦ rfl

/-- **One behind the other.** -/
theorem append (h : Balanced ops) (h' : Balanced ops') : Balanced (ops ++ ops') := fun held ↦ by
  rw [settle_append, h, Option.bind_some, h']

/-- **One inside another**: resources are taken before it, and given back behind it in any
order. -/
theorem enclosed (h : Balanced ops) {l l' : List ρ} (hperm : l.Perm l') :
    Balanced (l.map .take ++ ops ++ l'.map .give) := by
  intro held
  rw [settle_append, settle_append, settle_map_take, Option.bind_some, h, Option.bind_some,
    Multiset.coe_eq_coe.2 hperm, settle_map_give]

/-- **Each resource is given back as often as it is taken.** -/
theorem count_eq (h : Balanced ops) (r : ρ) : ops.count (.give r) = ops.count (.take r) :=
  Nat.add_left_cancel (count_settle (h 0) r)

end Balanced

end Ledger
