import CamkesVm.ArmMemory.State
import CamkesVm.Lib.Ledger
import Mathlib.Algebra.Order.BigOperators.Group.List
import Mathlib.Algebra.Order.Group.Nat

/-!
# Mapping physical memory for a driver

`vm_map_paddr_with_page_size` maps a stretch of physical memory with pages of one size.  It gets a
slot and a frame for each page, and keeps the frame's cookie in an array; where the frame is not the
allocator's, the cookie is -1.  If there is no frame for a page, or the pages cannot be mapped, it
gives everything back and returns `NULL`, so that `vm_map_paddr` can try the next smaller pages.

A page of a dataport has no cookie, and its place in the array is left as it was: the array is on
the stack, and nothing has been written there.  When the call fails it frees that cookie as well.
`releases_iff` says when this goes wrong.

## What is here

* `PageAnswers`, `Attempt` — what is answered during a call, page by page, and what is on the stack
  where the cookies go. An `Effect` is one thing that is taken or given back.
* `getFrames`, `releaseFrame`, `vmMapPaddrWithPageSize` — the loop that takes, the loop that gives
  back, and the function with both.
* `findDataportFrame`, `frameSizeIndex`, `tryPageSizes`, `vmMapPaddr` — the caller: it looks for the
  stretch among the dataports, and tries the page sizes downwards.
* `ReleasesExactly` — the ledger is balanced, for slots and for cookies. It is an instance of the
  general ledgers, with `Resource` for the things.
* `Unspoilt` — the call succeeds, or each page that it copied from a dataport has -1 on the stack in
  its place.
* `getFrames_spec`, `filterMap_releaseFrame` — what each loop adds to the ledger.
* `releases_iff` — the exact condition, for one call; `exists_balanced_tryPageSizes` carries it over
  the loop of the caller.

An array on the stack that is not initialised is a parameter, `stale`: nothing is assumed of it, so
`Unspoilt` says what would have to be there by luck.
-/

set_option autoImplicit false

namespace CamkesVm
namespace ArmMemory

open Ledger

variable {w : ℕ}

/-! ## One page size -/

/-- What the VMM does to the allocator and its slots. -/
inductive Effect (w : ℕ)
  /-- `vka_cspace_alloc` -/
  | cspaceAlloc (slot : BitVec w)
  /-- `vka_cspace_free` -/
  | cspaceFree (slot : BitVec w)
  /-- The allocator's `utspace_alloc_at`, which returns a cookie. -/
  | utspaceAlloc (cookie : BitVec w)
  /-- `vka_utspace_free` -/
  | utspaceFree (cookie : BitVec w)
  /-- `vka_cnode_delete` -/
  | cnodeDelete (slot : BitVec w)
  deriving DecidableEq

/-- What is answered for one page. -/
structure PageAnswers (w : ℕ) extends Answers w where
  /-- The slot that `vka_cspace_alloc` finds. -/
  slot : BitVec w
  /-- What is on the stack where its cookie goes. -/
  stale : BitVec w

/-- What is answered during one call of `vm_map_paddr_with_page_size`. -/
structure Attempt (w : ℕ) where
  /-- The answers for each page. -/
  page : ℕ → PageAnswers w
  /-- Where `vspace_map_pages` maps the pages, if it does. -/
  mapPages : Option (BitVec w)
  /-- A cookie is the address of a node of the allocator, and so not -1. -/
  cookie_ne : ∀ i, (page i).utspaceAllocAt ≠ some (-1)

/-- What a call returns, `none` for `NULL`, and what it did. -/
structure Outcome (w : ℕ) where
  /-- The address. -/
  vaddr : Option (BitVec w)
  /-- The effects, in order. -/
  effects : List (Effect w)
  deriving DecidableEq

/-- The frames of a call, as far as it got. -/
structure Got (w : ℕ) where
  /-- What it did to get them. -/
  effects : List (Effect w)
  /-- `frames[i]` and `cookies[i]`. -/
  frames : List (BitVec w × BitVec w)
  /-- Every page has a frame. -/
  complete : Bool

/-- `num_pages`. -/
def numPages (size : BitVec w) (bits : ℕ) : BitVec 32 := (roundUp size bits >>> bits).setWidth 32

section

variable (frames : List (DataportFrame w)) (A : Attempt w) (start : BitVec w) (bits : ℕ)

/-- What `vka_utspace_alloc_at` does for page `i`.  The product is one of 32-bit numbers. -/
def allocAt (i : ℕ) : AllocAt w :=
  camkesVmUtspaceAllocAt frames bits
    (start + (BitVec.ofNat 32 i * BitVec.ofNat 32 (2 ^ bits)).setWidth w) (A.page i).toAnswers

/-- `cookies[i]` once page `i` has its frame, or `none` if it gets none. -/
def cookieOf (i : ℕ) : Option (BitVec w) :=
  match allocAt frames A start bits i with
  | .allocated cookie => some cookie
  | .copied => some (A.page i).stale
  | .error => if (A.page i).getFrameCap then some (-1) else none

/-- What `vka_utspace_alloc_at` takes for page `i`. -/
def allocEffects (i : ℕ) : List (Effect w) :=
  match allocAt frames A start bits i with
  | .allocated cookie => [.utspaceAlloc cookie]
  | .copied | .error => []

/-- The loop that gets the frames, with `left` pages to go from `i` on. -/
def getFrames : ℕ → ℕ → Got w
  | 0, _ => ⟨[], [], true⟩
  | left + 1, i =>
    let slot := (A.page i).slot
    match cookieOf frames A start bits i with
    | none => ⟨[.cspaceAlloc slot, .cspaceFree slot], [], false⟩
    | some cookie =>
      let rest := getFrames left (i + 1)
      ⟨.cspaceAlloc slot :: (allocEffects frames A start bits i ++ rest.effects),
        (slot, cookie) :: rest.frames, rest.complete⟩

end

/-- The body of the loop at `error`. -/
def releaseFrame (frame : BitVec w × BitVec w) : List (Effect w) :=
  .cnodeDelete frame.1 ::
    ((if frame.2 ≠ -1 then [.utspaceFree frame.2] else []) ++ [.cspaceFree frame.1])

/-- `vm_map_paddr_with_page_size`; `none` if an assertion stops it. -/
def vmMapPaddrWithPageSize (frames : List (DataportFrame w)) (A : Attempt w)
    (paddr size : BitVec w) (bits : ℕ) : Option (Outcome w) :=
  let start := roundDown paddr bits
  let offset := paddr - start
  let pages := numPages (size + offset) bits
  if size + offset ≤ (pages <<< bits).setWidth w then
    let got := getFrames frames A start bits pages.toNat 0
    match got.complete, A.mapPages with
    | true, some vaddr => some ⟨some (vaddr + offset), got.effects⟩
    | _, _ => some ⟨none, got.effects ++ got.frames.flatMap releaseFrame⟩
  else none

/-! ## All page sizes -/

/-- `find_dataport_frame`, which returns 0 if there is none. -/
def findDataportFrame (frames : List (DataportFrame w)) (paddr size : BitVec w) : BitVec w :=
  match frames.find? fun frame ↦ frame.paddr = paddr ∧ frame.size = size.toNat with
  | some frame => frame.vaddr
  | none => 0

/-- The largest reasonable frame size: its index in `sel4_page_sizes`. -/
def frameSizeIndex (pageSizes : List ℕ) (size : BitVec w) : ℕ :=
  ((pageSizes.drop 1).takeWhile fun bits ↦ size >>> bits ≠ 0).length

section

variable (pageSizes : List ℕ) (frames : List (DataportFrame w)) (A : ℕ → Attempt w)
  (paddr size : BitVec w)

/-- The loop of `vm_map_paddr` over the sizes with an index below the given one. -/
def tryPageSizes : ℕ → Option (Outcome w)
  | 0 => some ⟨none, []⟩
  | i + 1 =>
    match vmMapPaddrWithPageSize frames (A i) paddr size (pageSizes.getD i pageBits) with
    | none => none
    | some ⟨some vaddr, effects⟩ => some ⟨some vaddr, effects⟩
    | some ⟨none, effects⟩ =>
      (tryPageSizes i).map fun rest ↦ ⟨rest.vaddr, effects ++ rest.effects⟩

/-- `vm_map_paddr`. -/
def vmMapPaddr : Option (Outcome w) :=
  let vaddr := findDataportFrame frames paddr size
  if vaddr ≠ 0 then some ⟨some vaddr, []⟩
  else tryPageSizes pageSizes frames A paddr size (frameSizeIndex pageSizes size + 1)

end

/-! ## Releasing -/

/-- What is taken from the allocator. -/
inductive Resource (w : ℕ)
  /-- A slot. -/
  | slot (slot : BitVec w)
  /-- A piece of untyped memory, by its cookie. -/
  | cookie (cookie : BitVec w)
  deriving DecidableEq

/-- The ledger's view of an effect. -/
def Effect.op : Effect w → Option (Op (Resource w))
  | .cspaceAlloc slot => some (.take (.slot slot))
  | .cspaceFree slot => some (.give (.slot slot))
  | .utspaceAlloc cookie => some (.take (.cookie cookie))
  | .utspaceFree cookie => some (.give (.cookie cookie))
  | .cnodeDelete _ => none

/-- Everything that was taken has been freed, once, and nothing else. -/
structure ReleasesExactly (effects : List (Effect w)) : Prop where
  /-- Each slot is freed as often as it was allocated. -/
  slots : ∀ slot, effects.count (.cspaceFree slot) = effects.count (.cspaceAlloc slot)
  /-- So is each cookie. -/
  cookies : ∀ cookie, effects.count (.utspaceFree cookie) = effects.count (.utspaceAlloc cookie)
  /-- Nothing is freed that is not out, and the allocator is left as it was. -/
  balanced : Balanced (effects.filterMap Effect.op)

/-- A call that fails has copied no capability to a dataport frame whose cookie is not -1 by
chance: it gets and maps all its pages, or an assertion stops it, or of the pages it gets those of a
dataport find -1 on the stack. -/
def Unspoilt (frames : List (DataportFrame w)) (A : Attempt w) (paddr size : BitVec w) (bits : ℕ) :
    Prop :=
  let start := roundDown paddr bits
  let pages := numPages (size + (paddr - start)) bits
  size + (paddr - start) ≤ (pages <<< bits).setWidth w →
    ((∀ i < pages.toNat, cookieOf frames A start bits i ≠ none) ∧ A.mapPages ≠ none) ∨
      ∀ i < pages.toNat, (∀ j ≤ i, cookieOf frames A start bits j ≠ none) →
        allocAt frames A start bits i = .copied → (A.page i).stale = -1

/-! ## The frames a call gets -/

section

variable {frames : List (DataportFrame w)} {A : Attempt w} {start : BitVec w} {bits : ℕ}

/-- The pages that get a frame, of `left` pages from `i` on. -/
def obtained (frames : List (DataportFrame w)) (A : Attempt w) (start : BitVec w) (bits : ℕ) :
    ℕ → ℕ → List ℕ
  | 0, _ => []
  | left + 1, i =>
    if cookieOf frames A start bits i = none then []
    else i :: obtained frames A start bits left (i + 1)

theorem mem_obtained {left i k : ℕ} : k ∈ obtained frames A start bits left i ↔
    i ≤ k ∧ k < i + left ∧ ∀ j, i ≤ j → j ≤ k → cookieOf frames A start bits j ≠ none := by
  induction left generalizing i with
  | zero => exact iff_of_false (by simp [obtained]) fun h ↦ by omega
  | succ left ih =>
    rw [obtained]
    split
    · rename_i hnone
      exact iff_of_false (by simp) fun h ↦ h.2.2 i (Nat.le_refl i) h.1 hnone
    · rename_i hsome
      rw [List.mem_cons, ih]
      constructor
      · rintro (rfl | ⟨hle, hlt, hall⟩)
        · refine ⟨Nat.le_refl _, by omega, fun j hj hj' ↦ ?_⟩
          obtain rfl := Nat.le_antisymm hj' hj
          exact hsome
        · refine ⟨by omega, by omega, fun j hj hj' ↦ ?_⟩
          rcases Nat.eq_or_lt_of_le hj with rfl | hij
          · exact hsome
          · exact hall j hij hj'
      · rintro ⟨hle, hlt, hall⟩
        rcases Nat.eq_or_lt_of_le hle with rfl | hik
        · exact .inl rfl
        · exact .inr ⟨hik, by omega, fun j hj hj' ↦ hall j (by omega) hj'⟩

/-- What a page takes. -/
def owned (frames : List (DataportFrame w)) (A : Attempt w) (start : BitVec w) (bits i : ℕ) :
    List (Resource w) :=
  match allocAt frames A start bits i with
  | .allocated cookie => [.cookie cookie]
  | .copied | .error => []

/-- The cookie that is freed for a page. -/
def freed (frames : List (DataportFrame w)) (A : Attempt w) (start : BitVec w) (bits i : ℕ) :
    List (Resource w) :=
  let cookie := (cookieOf frames A start bits i).getD (-1)
  if cookie ≠ -1 then [.cookie cookie] else []

/-- **What is freed for a page** is what it took, unless it was copied from a dataport and there
was something else on the stack. -/
theorem freed_eq (i : ℕ) : freed frames A start bits i =
    if allocAt frames A start bits i = .copied ∧ (A.page i).stale ≠ -1 then
      [.cookie (A.page i).stale]
    else owned frames A start bits i := by
  rw [freed, cookieOf, owned]
  cases halloc : allocAt frames A start bits i with
  | error => by_cases hcap : (A.page i).getFrameCap = true <;> simp [hcap]
  | copied => by_cases hstale : (A.page i).stale = -1 <;> simp [hstale]
  | allocated cookie =>
    have hne : cookie ≠ -1 := by
      rintro rfl
      refine A.cookie_ne i ?_
      rw [allocAt, camkesVmUtspaceAllocAt] at halloc
      split at halloc
      · split at halloc <;> exact nomatch halloc
      · split at halloc
        · exact nomatch halloc
        · rename_i cookie hcookie
          obtain rfl : cookie = -1 := AllocAt.allocated.inj halloc
          exact hcookie
    simpa using hne

/-- What the pages of a list take. -/
def taken (frames : List (DataportFrame w)) (A : Attempt w) (start : BitVec w) (bits : ℕ)
    (l : List ℕ) : List (Resource w) :=
  l.flatMap fun i ↦ .slot (A.page i).slot :: owned frames A start bits i

/-- What is given back for them. -/
def given (frames : List (DataportFrame w)) (A : Attempt w) (start : BitVec w) (bits : ℕ)
    (l : List ℕ) : List (Resource w) :=
  l.flatMap fun i ↦ freed frames A start bits i ++ [.slot (A.page i).slot]

/-- **What the first loop does.**  The slot of a page that gets no frame is given back at once. -/
theorem getFrames_spec (frames : List (DataportFrame w)) (A : Attempt w) (start : BitVec w)
    (bits left i : ℕ) :
    (∃ slots : List (BitVec w), (getFrames frames A start bits left i).effects.filterMap Effect.op =
        (taken frames A start bits (obtained frames A start bits left i)).map .take ++
          slots.flatMap fun slot ↦ [.take (.slot slot), .give (.slot slot)]) ∧
      (getFrames frames A start bits left i).frames = (obtained frames A start bits left i).map
        (fun i ↦ ((A.page i).slot, (cookieOf frames A start bits i).getD (-1))) ∧
      ((getFrames frames A start bits left i).complete = true ↔
        ∀ j, i ≤ j → j < i + left → cookieOf frames A start bits j ≠ none) := by
  induction left generalizing i with
  | zero => exact ⟨⟨[], rfl⟩, rfl, iff_of_true rfl fun j hj hj' ↦ absurd hj' (by omega)⟩
  | succ left ih =>
    rw [getFrames, obtained]
    cases hcookie : cookieOf frames A start bits i with
    | none =>
      refine ⟨⟨[(A.page i).slot], rfl⟩, rfl, iff_of_false (by simp) fun h ↦ ?_⟩
      exact h i (Nat.le_refl i) (by omega) hcookie
    | some cookie =>
      obtain ⟨⟨slots, heffects⟩, hframes, hcomplete⟩ := ih (i + 1)
      have hfirst : (allocEffects frames A start bits i).filterMap Effect.op =
          (owned frames A start bits i).map .take := by
        rw [allocEffects, owned]
        split <;> rfl
      rw [if_neg nofun, taken, List.flatMap_cons]
      refine ⟨⟨slots, ?_⟩, ?_, ?_⟩
      · change .take (.slot (A.page i).slot) :: List.filterMap Effect.op (_ ++ _) = _
        rw [List.filterMap_append, hfirst, heffects, ← List.append_assoc, ← List.map_append]
        rfl
      · rw [List.map_cons, ← hframes, hcookie]
        rfl
      · refine hcomplete.trans ⟨fun h j hj hj' ↦ ?_, fun h j hj hj' ↦ h j (by omega) (by omega)⟩
        rcases Nat.eq_or_lt_of_le hj with rfl | hij
        · rw [hcookie]
          exact nofun
        · exact h j hij (by omega)

/-- **What the loop at `error` does.** -/
theorem filterMap_releaseFrame (l : List ℕ) :
    ((l.map fun i ↦ ((A.page i).slot, (cookieOf frames A start bits i).getD (-1))).flatMap
      releaseFrame).filterMap Effect.op = (given frames A start bits l).map .give := by
  induction l with
  | nil => rfl
  | cons i l ih =>
    have hfirst : (releaseFrame ((A.page i).slot,
        (cookieOf frames A start bits i).getD (-1))).filterMap Effect.op =
          (freed frames A start bits i ++ [Resource.slot (A.page i).slot]).map .give := by
      rw [releaseFrame, freed]
      split <;> rfl
    rw [List.map_cons, List.flatMap_cons, List.filterMap_append, ih, hfirst, ← List.map_append]
    rfl

/-! ## What is given back -/

/-- The resources of a page, if its cookie is not a stale one. -/
theorem taken_perm_given {l : List ℕ}
    (h : ∀ i ∈ l, freed frames A start bits i = owned frames A start bits i) :
    (taken frames A start bits l).Perm (given frames A start bits l) := by
  induction l with
  | nil => exact .nil
  | cons i l ih =>
    rw [taken, given, List.flatMap_cons, List.flatMap_cons, h i List.mem_cons_self]
    exact (List.perm_append_singleton _ _).symm.append
      (ih fun j hj ↦ h j (List.mem_cons_of_mem i hj))

/-- **A stale cookie** is freed more often than it was allocated. -/
theorem count_taken_lt_given {l : List ℕ} {i : ℕ} (hi : i ∈ l)
    (hcopied : allocAt frames A start bits i = .copied) (hstale : (A.page i).stale ≠ -1) :
    (taken frames A start bits l).count (.cookie (A.page i).stale) <
      (given frames A start bits l).count (.cookie (A.page i).stale) := by
  rw [taken, given, List.count_flatMap, List.count_flatMap]
  refine List.sum_lt_sum _ _ (fun j _ ↦ ?_) ⟨i, hi, ?_⟩
  · simp only [Function.comp_apply, List.count_append, freed_eq]
    split
    · rename_i hj
      rw [owned, hj.1]
      simp
    · simp
  · simp only [Function.comp_apply, List.count_append, freed_eq]
    rw [if_pos ⟨hcopied, hstale⟩, owned, hcopied]
    simp

/-! ## When everything is given back -/

theorem Effect.op_inj {e e' : Effect w} (hsome : e.op.isSome) (h : e.op = e'.op) : e = e' := by
  cases e <;> cases e' <;> simp_all [Effect.op]

theorem count_eq_count_op {e : Effect w} {o : Op (Resource w)} (h : e.op = some o)
    (effects : List (Effect w)) : effects.count e = (effects.filterMap Effect.op).count o := by
  rw [List.count_filterMap, List.count]
  refine List.countP_congr fun e' _ ↦ ?_
  rw [beq_iff_eq, beq_iff_eq]
  exact ⟨fun he ↦ he ▸ h, fun ho ↦ Effect.op_inj (ho ▸ rfl) (ho.trans h.symm)⟩

theorem releasesExactly_of_balanced {effects : List (Effect w)}
    (h : Balanced (effects.filterMap Effect.op)) : ReleasesExactly effects where
  slots slot := by
    rw [count_eq_count_op rfl, count_eq_count_op rfl]
    exact h.count_eq (.slot slot)
  cookies cookie := by
    rw [count_eq_count_op rfl, count_eq_count_op rfl]
    exact h.count_eq (.cookie cookie)
  balanced := h

/-- **A call that fails after `left` pages** gives back exactly what it took, unless it meets a
stale cookie. -/
theorem releasesExactly_iff (frames : List (DataportFrame w)) (A : Attempt w) (start : BitVec w)
    (bits left : ℕ) :
    ReleasesExactly ((getFrames frames A start bits left 0).effects ++
        (getFrames frames A start bits left 0).frames.flatMap releaseFrame) ↔
      ∀ i ∈ obtained frames A start bits left 0, allocAt frames A start bits i = .copied →
        (A.page i).stale = -1 := by
  obtain ⟨⟨slots, heffects⟩, hframes, -⟩ := getFrames_spec frames A start bits left 0
  generalize obtained frames A start bits left 0 = l at heffects hframes ⊢
  have hslots : Balanced (slots.flatMap fun slot ↦
      [Op.take (Resource.slot slot), .give (.slot slot)]) := by
    clear heffects
    induction slots with
    | nil => exact .nil
    | cons slot slots ih =>
      exact Balanced.append (Balanced.nil.enclosed (List.Perm.refl [Resource.slot slot])) ih
  have hops : ((getFrames frames A start bits left 0).effects ++
      (getFrames frames A start bits left 0).frames.flatMap releaseFrame).filterMap Effect.op =
        (taken frames A start bits l).map .take ++
          (slots.flatMap fun slot ↦ [.take (.slot slot), .give (.slot slot)]) ++
          (given frames A start bits l).map .give := by
    rw [List.filterMap_append, heffects, hframes, filterMap_releaseFrame]
  constructor
  · intro h i hi hcopied
    by_contra hstale
    have hlt := count_taken_lt_given hi hcopied hstale
    have hcount := h.balanced.count_eq (.cookie (A.page i).stale)
    have hmid := hslots.count_eq (.cookie (A.page i).stale)
    rw [hops] at hcount
    simp only [List.count_append, count_give_map_take, count_give_map_give, count_take_map_take,
      count_take_map_give] at hcount
    omega
  · intro h
    refine releasesExactly_of_balanced (hops ▸ hslots.enclosed (taken_perm_given fun i hi ↦ ?_))
    rw [freed_eq, if_neg fun hbad ↦ hbad.2 (h i hi hbad.1)]

end

/-- **When a mapping that fails gives everything back.**  Whatever fails, a call that returns `NULL`
frees each slot it allocated and each cookie it obtained, once, and nothing else, exactly if no page
that it got from a dataport left a stale cookie behind. -/
theorem releases_iff (frames : List (DataportFrame w)) (A : Attempt w) (paddr size : BitVec w)
    (bits : ℕ) :
    (∀ outcome, vmMapPaddrWithPageSize frames A paddr size bits = some outcome →
        outcome.vaddr = none → ReleasesExactly outcome.effects) ↔
      Unspoilt frames A paddr size bits := by
  simp only [vmMapPaddrWithPageSize, Unspoilt]
  set start := roundDown paddr bits
  set pages := numPages (size + (paddr - start)) bits
  split
  swap
  · rename_i hassert
    exact iff_of_true (fun _ h ↦ nomatch h) fun h ↦ absurd h hassert
  rename_i hassert
  rw [forall_prop_of_true hassert]
  obtain ⟨-, -, hcomplete⟩ := getFrames_spec frames A start bits pages.toNat 0
  have hfails := releasesExactly_iff frames A start bits pages.toNat
  simp only [mem_obtained, Nat.zero_le, true_implies, true_and, Nat.zero_add, and_imp]
    at hcomplete hfails
  by_cases hall : (getFrames frames A start bits pages.toNat 0).complete = true
  · cases hmap : A.mapPages with
    | some vaddr =>
      rw [hall]
      refine iff_of_true (fun outcome h hnull ↦ ?_) (.inl ⟨hcomplete.1 hall, nofun⟩)
      obtain rfl := Option.some.inj h
      exact nomatch hnull
    | none =>
      rw [hall]
      simp only [Option.some.injEq, forall_eq', true_implies, ne_eq, not_true, and_false, false_or]
      exact hfails
  · have hnot : ¬ ∀ i < pages.toNat, cookieOf frames A start bits i ≠ none := mt hcomplete.2 hall
    rw [Bool.not_eq_true] at hall
    rw [hall]
    simp only [Option.some.injEq, forall_eq', true_implies, hnot, false_and, false_or]
    exact hfails

/-- **Every attempt starts from the same state** of the allocator, if no page leaves a stale cookie
behind: what the attempts before the last one did balances. -/
theorem exists_balanced_tryPageSizes {pageSizes : List ℕ} {frames : List (DataportFrame w)}
    {A : ℕ → Attempt w} {paddr size : BitVec w} {n : ℕ} {outcome : Outcome w}
    (hunspoilt : ∀ i, Unspoilt frames (A i) paddr size (pageSizes.getD i pageBits))
    (h : tryPageSizes pageSizes frames A paddr size n = some outcome) :
    ∃ failed last, outcome.effects = failed ++ last ∧ Balanced (failed.filterMap Effect.op) ∧
      (outcome.vaddr = none → last = []) := by
  induction n generalizing outcome with
  | zero =>
    obtain rfl := Option.some.inj h
    exact ⟨[], [], rfl, .nil, fun _ ↦ rfl⟩
  | succ n ih =>
    rw [tryPageSizes] at h
    split at h
    · exact nomatch h
    · obtain rfl := Option.some.inj h
      exact ⟨[], _, rfl, .nil, nofun⟩
    · rename_i effects hattempt
      obtain ⟨rest, hrest, rfl⟩ := Option.map_eq_some_iff.1 h
      obtain ⟨failed, last, heffects, hbalanced, hlast⟩ := ih hrest
      have hreleases := (releases_iff frames (A n) paddr size _).2 (hunspoilt n) _ hattempt rfl
      refine ⟨effects ++ failed, last, ?_, ?_, hlast⟩
      · rw [heffects, List.append_assoc]
      · rw [List.filterMap_append]
        exact hreleases.balanced.append hbalanced

/-- The page of a dataport at `0x10000`. -/
def dataportPage : DataportFrame 64 := ⟨0x10000, 0x500000, 7, 4096⟩

/-- It is copied to slot 9, but cannot be mapped; `0xdead` is on the stack. -/
def unmappable : Attempt 64 where
  page _ :=
    { copies := true, utspaceAllocAt := none, getFrameCap := false, slot := 9, stale := 0xdead }
  mapPages := none
  cookie_ne _ := nofun

/-- **A page of a dataport that cannot be mapped**: the cookie `0xdead` is freed, which nobody
allocated.  `vm_map_paddr` gets there with an address inside the page: only the whole frame, by its
own address and size, is found by `find_dataport_frame` beforehand. -/
theorem not_releases_dataport :
    ¬ ∀ (frames : List (DataportFrame 64)) (A : Attempt 64) (paddr size : BitVec 64) (bits : ℕ)
      (outcome : Outcome 64), findDataportFrame frames paddr size = 0 →
        vmMapPaddrWithPageSize frames A paddr size bits = some outcome →
        outcome.vaddr = none → ReleasesExactly outcome.effects := by
  intro h
  have hreleases := h [dataportPage] unmappable 0x10800 0x100 12
    ⟨none, [.cspaceAlloc 9, .cnodeDelete 9, .utspaceFree 0xdead, .cspaceFree 9]⟩ (by decide)
    (by decide) rfl
  exact absurd (hreleases.cookies 0xdead) (by decide)

end ArmMemory
end CamkesVm
