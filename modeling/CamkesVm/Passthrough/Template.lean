import CamkesVm.Lib.Tiling
import Mathlib.Data.Nat.Find

/-!
# What the device tree template hands out

`templates/seL4VMDTBPassthrough-to.template.c` is expanded when the system is built.  It walks over
the nodes of a device tree query, cuts the pages of their registers into blocks of untyped memory,
and collects their interrupts.  The C functions it expands to, `camkes_dtb_get_nth_untyped` and the
others, serve the results to the VMM, whose `vmm_init` gives all blocks to the VM's allocator.

`Template` is what the expansion accumulates.  The device tree macros, which read the registers and
interrupts of a node, and `get_untypeds_from_range`, which cuts a range of pages into blocks, are
not part of the repository: a `Node` is what the first return, and the second is a parameter that is
assumed to tile the range (`TilesPages`).

The start and the length of a register are rounded to pages one by one, so the page of its last byte
can be missing.  `covered_iff_lastPage` says when it is not.

## What is here

* `Irq`, `Node`, `Cap`, `Untyped`, `Template` — what the template reads, and its lists and maps. The
  template accumulates them in loops, which are folds here.
* `Template.addReg`, `Template.addIrq`, `Template.addNode`, `expand` — the bodies of the loops, from
  the inside out.
* `Template.camkesDtbGetNthUntyped`, `Template.vmmInit` — the C functions, and the loop that asks
  for one block after the other.
* `untypedDtbMmio_expand`, `vmmInit_eq` — the blocks in a closed form.
* `TilesPages` — the law of the cutter, and `cutBlocks`, the greedy one, which obeys it.
* `Template.Covers`, `LastPage`, `covered_iff_lastPage` — whether the bytes of a register are in
  some block, and when.
-/

set_option autoImplicit false

namespace CamkesVm
namespace Passthrough

/-! ## The template -/

/-- An element of `irq_set`. -/
structure Irq where
  /-- `irq['irq']`. -/
  irq : ℕ
  /-- `irq['trigger']`, if there is one. -/
  trigger : Option ℕ

/-- A node of the query, as `parse_dtb_node_reg` and `parse_dtb_node_interrupts` return it. -/
structure Node where
  /-- `reg_set`: pairs of `paddr` and `size`. -/
  regSet : List (ℕ × ℕ)
  /-- `irq_set`. -/
  irqSet : List Irq

/-- What `alloc` makes a capability for. -/
inductive Cap
  /-- `seL4_UntypedObject`. -/
  | untypedObject (paddr sizeBits : ℕ)
  /-- `seL4_IRQHandler`. -/
  | irqHandler (number : ℕ) (trigger : Option ℕ)
  deriving DecidableEq

/-- An element of `untyped_dtb_mmio`. -/
structure Untyped where
  /-- `paddr_alloc`. -/
  paddr : ℕ
  /-- `size_bits`. -/
  sizeBits : ℕ
  /-- `cap`. -/
  cap : Cap
  deriving DecidableEq

/-- The bytes of the block. -/
def Untyped.extent (u : Untyped) : Extent := ⟨u.paddr, 2 ^ u.sizeBits⟩

/-- What the template accumulates. -/
structure Template where
  /-- `untyped_dtb_mmio`. -/
  untypedDtbMmio : List Untyped := []
  /-- `dtb_irqs_map`. -/
  dtbIrqsMap : ℕ → Option Cap := fun _ ↦ none
  /-- `dtb_irqs`. -/
  dtbIrqs : List (ℕ × Cap) := []

/-- `macros.ROUND_DOWN`. -/
def roundDown (n boundary : ℕ) : ℕ := n / boundary * boundary

/-- `macros.ROUND_UP`. -/
def roundUp (n boundary : ℕ) : ℕ := (n + boundary - 1) / boundary * boundary

/-- The body of the loop over the blocks of a range. -/
def Template.addUntyped (t : Template) (block : ℕ × ℕ) : Template :=
  let cap := Cap.untypedObject block.1 block.2
  { t with untypedDtbMmio := t.untypedDtbMmio ++ [⟨block.1, block.2, cap⟩] }

/-- The body of the loop over `reg_set`. -/
def Template.addReg (getUntypedsFromRange : ℕ → ℕ → List (ℕ × ℕ)) (t : Template)
    (reg : ℕ × ℕ) : Template :=
  let paddr := roundDown reg.1 4096
  let size := roundUp reg.2 4096
  (getUntypedsFromRange paddr size).foldl Template.addUntyped t

/-- An interrupt that is not in the map yet gets a capability. -/
def Template.addIrqCap (t : Template) (irq : ℕ) (cap : Cap) : Template :=
  match t.dtbIrqsMap irq with
  | none => { t with
      dtbIrqs := t.dtbIrqs ++ [(irq, cap)]
      dtbIrqsMap := Function.update t.dtbIrqsMap irq (some cap) }
  | some _ => t

/-- The body of the loop over `irq_set`. -/
def Template.addIrq (t : Template) (irq : Irq) : Template :=
  t.addIrqCap irq.irq (.irqHandler irq.irq irq.trigger)

/-- The body of the loop over the nodes. -/
def Template.addNode (getUntypedsFromRange : ℕ → ℕ → List (ℕ × ℕ)) (t : Template) (node : Node) :
    Template :=
  node.irqSet.foldl Template.addIrq
    (node.regSet.foldl (Template.addReg getUntypedsFromRange) t)

/-- The body of the loop over the `dtb_irqs` of the configuration. -/
def Template.addConfiguredIrq (t : Template) (irq : ℕ) : Template :=
  t.addIrqCap irq (.irqHandler irq none)

/-- The expansion of the template for the nodes `dtb` and the `dtb_irqs` of the configuration. -/
def expand (getUntypedsFromRange : ℕ → ℕ → List (ℕ × ℕ)) (dtb : List Node)
    (configuredIrqs : List ℕ) : Template :=
  configuredIrqs.foldl Template.addConfiguredIrq
    (dtb.foldl (Template.addNode getUntypedsFromRange) {})

/-! ## The functions it expands to -/

/-- `camkes_dtb_irqs`. -/
def Template.camkesDtbIrqs (t : Template) : List ℕ := t.dtbIrqs.map Prod.fst

/-- `camkes_dtb_untyped_count`. -/
def Template.camkesDtbUntypedCount (t : Template) : ℕ := t.untypedDtbMmio.length

/-- `camkes_dtb_get_nth_untyped`, which asserts that there is an `n`-th block. -/
def Template.camkesDtbGetNthUntyped (t : Template) (n : ℕ) : Option Untyped := t.untypedDtbMmio[n]?

/-- The loop of `vmm_init` over the blocks from number `i` on, `left` of them: the blocks it adds to
the allocator. -/
def Template.addUntypeds (t : Template) : ℕ → ℕ → Option (List Untyped)
  | 0, _ => some []
  | left + 1, i => do
    let untyped ← t.camkesDtbGetNthUntyped i
    let rest ← t.addUntypeds left (i + 1)
    some (untyped :: rest)

/-- The blocks that `vmm_init` adds to the allocator. -/
def Template.vmmInit (t : Template) : Option (List Untyped) :=
  t.addUntypeds t.camkesDtbUntypedCount 0

/-! ## What the expansion accumulates -/

section

variable {getUntypedsFromRange : ℕ → ℕ → List (ℕ × ℕ)}

/-- The blocks of one register. -/
def regUntypeds (getUntypedsFromRange : ℕ → ℕ → List (ℕ × ℕ)) (reg : ℕ × ℕ) : List Untyped :=
  (getUntypedsFromRange (roundDown reg.1 4096) (roundUp reg.2 4096)).map fun block ↦
    ⟨block.1, block.2, .untypedObject block.1 block.2⟩

/-- The pages of one register, as the template rounds them. -/
def pages (reg : ℕ × ℕ) : Extent := ⟨roundDown reg.1 4096, roundUp reg.2 4096⟩

theorem foldl_addUntyped (blocks : List (ℕ × ℕ)) (t : Template) :
    blocks.foldl Template.addUntyped t = { t with
      untypedDtbMmio := t.untypedDtbMmio ++
        blocks.map fun block ↦ ⟨block.1, block.2, .untypedObject block.1 block.2⟩ } := by
  induction blocks generalizing t with
  | nil => simp
  | cons block blocks ih => simp [ih, Template.addUntyped]

theorem foldl_addReg (regs : List (ℕ × ℕ)) (t : Template) :
    regs.foldl (Template.addReg getUntypedsFromRange) t = { t with
      untypedDtbMmio := t.untypedDtbMmio ++
        regs.flatMap (regUntypeds getUntypedsFromRange) } := by
  induction regs generalizing t with
  | nil => simp
  | cons reg regs ih =>
    rw [List.foldl_cons, ih, Template.addReg, foldl_addUntyped]
    simp [regUntypeds]

theorem untypedDtbMmio_addIrqCap (t : Template) (irq : ℕ) (cap : Cap) :
    (t.addIrqCap irq cap).untypedDtbMmio = t.untypedDtbMmio := by
  rw [Template.addIrqCap]
  split <;> rfl

/-- Interrupts add no memory. -/
theorem untypedDtbMmio_foldl {α : Type*} {f : Template → α → Template}
    (hf : ∀ t a, (f t a).untypedDtbMmio = t.untypedDtbMmio) (l : List α) (t : Template) :
    (l.foldl f t).untypedDtbMmio = t.untypedDtbMmio := by
  induction l generalizing t with
  | nil => rfl
  | cons a l ih => rw [List.foldl_cons, ih, hf]

/-- **The blocks of the registers, one register after the other.** -/
theorem untypedDtbMmio_expand (dtb : List Node) (configuredIrqs : List ℕ) :
    (expand getUntypedsFromRange dtb configuredIrqs).untypedDtbMmio =
      (dtb.flatMap Node.regSet).flatMap (regUntypeds getUntypedsFromRange) := by
  have hnodes : ∀ t : Template,
      (dtb.foldl (Template.addNode getUntypedsFromRange) t).untypedDtbMmio =
        t.untypedDtbMmio ++
          (dtb.flatMap Node.regSet).flatMap (regUntypeds getUntypedsFromRange) := by
    induction dtb with
    | nil => simp
    | cons node dtb ih =>
      intro t
      have hirqs := untypedDtbMmio_foldl (f := Template.addIrq)
        (fun t irq ↦ untypedDtbMmio_addIrqCap t _ _) node.irqSet
      rw [List.foldl_cons, ih, Template.addNode, hirqs, foldl_addReg]
      simp
  have hconfigured := untypedDtbMmio_foldl (f := Template.addConfiguredIrq)
    (fun t irq ↦ untypedDtbMmio_addIrqCap t _ _) configuredIrqs
  rw [expand, hconfigured, hnodes, List.nil_append]

theorem addUntypeds_eq {t : Template} {left i : ℕ} (h : i + left = t.camkesDtbUntypedCount) :
    t.addUntypeds left i = some (t.untypedDtbMmio.drop i) := by
  induction left generalizing i with
  | zero =>
    have hle : t.untypedDtbMmio.length ≤ i := Nat.le_of_eq h.symm
    rw [Template.addUntypeds, List.drop_eq_nil_of_le hle]
  | succ left ih =>
    have hi : i < t.untypedDtbMmio.length := by
      rw [Template.camkesDtbUntypedCount] at h
      omega
    rw [Template.addUntypeds, Template.camkesDtbGetNthUntyped, List.getElem?_eq_getElem hi,
      ih (by omega), List.drop_eq_getElem_cons hi]
    rfl

/-- **`vmm_init` adds each block**, in order. -/
theorem vmmInit_eq (t : Template) : t.vmmInit = some t.untypedDtbMmio :=
  addUntypeds_eq (Nat.zero_add _)

/-- What the template relies on: `get_untypeds_from_range` cuts a range of pages into blocks that
tile it. -/
def TilesPages (getUntypedsFromRange : ℕ → ℕ → List (ℕ × ℕ)) : Prop :=
  ∀ p s, 4096 ∣ p → 4096 ∣ s →
    Extent.Tiling ((getUntypedsFromRange p s).map fun block ↦ ⟨block.1, 2 ^ block.2⟩) p (p + s)

theorem TilesPages.tiling (h : TilesPages getUntypedsFromRange) (reg : ℕ × ℕ) :
    Extent.Tiling ((regUntypeds getUntypedsFromRange reg).map Untyped.extent)
      (pages reg).first (pages reg).past := by
  have htiling := h (roundDown reg.1 4096) (roundUp reg.2 4096) (Nat.dvd_mul_left _ _)
    (Nat.dvd_mul_left _ _)
  rw [regUntypeds, List.map_map]
  exact htiling

end

/-! ## Blocks as big as they can be -/

/-- The size of the largest block that starts at `base` and has at most `size` bytes. -/
def largestBits (base size : ℕ) : ℕ :=
  Nat.findGreatest (fun bits ↦ 2 ^ bits ∣ base ∧ 2 ^ bits ≤ size) (Nat.log2 size)

/-- Cuts `size` bytes from `base` on into blocks, the largest aligned one first. -/
def cutBlocks : ℕ → ℕ → ℕ → List (ℕ × ℕ)
  | 0, _, _ => []
  | fuel + 1, base, size =>
    if size = 0 then []
    else
      let bits := largestBits base size
      (base, bits) :: cutBlocks fuel (base + 2 ^ bits) (size - 2 ^ bits)

theorem largestBits_le (base : ℕ) {size : ℕ} (h : size ≠ 0) : 2 ^ largestBits base size ≤ size :=
  (Nat.findGreatest_spec (P := fun bits ↦ 2 ^ bits ∣ base ∧ 2 ^ bits ≤ size) (Nat.zero_le _)
    ⟨Nat.one_dvd base, Nat.one_le_iff_ne_zero.2 h⟩).2

theorem chain_cutBlocks {fuel : ℕ} (base : ℕ) {size : ℕ} (h : size ≤ fuel) :
    Extent.Chain base ((cutBlocks fuel base size).map fun block ↦ ⟨block.1, 2 ^ block.2⟩)
      (base + size) := by
  induction fuel generalizing base size with
  | zero =>
    obtain rfl := Nat.le_zero.1 h
    rfl
  | succ fuel ih =>
    rw [cutBlocks]
    split
    · rename_i hzero
      subst hzero
      rfl
    · rename_i hne
      have hle := largestBits_le base hne
      have hpos : 0 < 2 ^ largestBits base size := Nat.two_pow_pos _
      refine ⟨rfl, ?_⟩
      have hrest := ih (base + 2 ^ largestBits base size)
        (show size - 2 ^ largestBits base size ≤ fuel by omega)
      rwa [Nat.add_assoc, Nat.add_sub_cancel' hle] at hrest

/-- **Cutting greedily tiles.** -/
theorem tilesPages_cutBlocks : TilesPages fun base size ↦ cutBlocks size base size :=
  fun _ _ _ _ ↦ (chain_cutBlocks _ (Nat.le_refl _)).tiling

/-! ## Coverage -/

/-- Every byte of the extent is in a block that `camkes_dtb_get_nth_untyped` enumerates. -/
def Template.Covers (t : Template) (e : Extent) : Prop :=
  ∀ b ∈ e, ∃ n untyped, t.camkesDtbGetNthUntyped n = some untyped ∧ b ∈ untyped.extent

/-- The page behind the pages of a register does not hold bytes of the register, or it belongs to
the pages of some register. -/
def LastPage (dtb : List Node) (reg : ℕ × ℕ) : Prop :=
  reg.1 % 4096 + reg.2 ≤ roundUp reg.2 4096 ∨
    ∃ other ∈ dtb.flatMap Node.regSet, (pages reg).past ∈ pages other

section

variable {getUntypedsFromRange : ℕ → ℕ → List (ℕ × ℕ)} {dtb : List Node} {configuredIrqs : List ℕ}
  {reg : ℕ × ℕ}

/-- **The blocks hold the rounded pages of the registers.** -/
theorem TilesPages.exists_untyped_iff (h : TilesPages getUntypedsFromRange) (b : ℕ) :
    (∃ n untyped, (expand getUntypedsFromRange dtb configuredIrqs).camkesDtbGetNthUntyped n =
        some untyped ∧ b ∈ untyped.extent) ↔
      ∃ reg ∈ dtb.flatMap Node.regSet, b ∈ pages reg := by
  have htiling : ∀ reg ∈ dtb.flatMap Node.regSet,
      Extent.Tiling ((regUntypeds getUntypedsFromRange reg).map Untyped.extent)
        (pages reg).first (pages reg).past := fun reg _ ↦ h.tiling reg
  rw [← Extent.covered_flatMap_iff htiling, ← List.map_flatMap,
    ← untypedDtbMmio_expand dtb configuredIrqs]
  simp only [Extent.Covered, List.mem_map, Template.camkesDtbGetNthUntyped]
  constructor
  · rintro ⟨n, untyped, hn, hb⟩
    exact ⟨_, ⟨untyped, List.mem_of_getElem? hn, rfl⟩, hb⟩
  · rintro ⟨_, ⟨untyped, hmem, rfl⟩, hb⟩
    obtain ⟨n, hn⟩ := List.mem_iff_getElem?.1 hmem
    exact ⟨n, untyped, hn, hb⟩

/-- The first byte of a page is in the pages of a register only if the whole page is. -/
theorem mem_pages_of_past_mem {other : ℕ × ℕ} {b : ℕ} (h : (pages reg).past ∈ pages other)
    (hlo : (pages reg).past ≤ b) (hhi : b < (pages reg).past + 4096) : b ∈ pages other := by
  simp only [pages, Extent.past, Extent.mem_mk, roundDown, roundUp] at h hlo hhi ⊢
  omega

/-- **When a register is covered**: the rounding loses the page behind the rounded length, if the
register gets there, unless that page is somebody's. -/
theorem covered_iff_lastPage (htiles : TilesPages getUntypedsFromRange)
    (hreg : reg ∈ dtb.flatMap Node.regSet) (hsize : 0 < reg.2) :
    (expand getUntypedsFromRange dtb configuredIrqs).Covers ⟨reg.1, reg.2⟩ ↔
      LastPage dtb reg := by
  simp only [Template.Covers, htiles.exists_untyped_iff]
  constructor
  · intro hcovers
    by_cases hfits : reg.1 % 4096 + reg.2 ≤ roundUp reg.2 4096
    · exact .inl hfits
    · have hpast : (pages reg).past ∈ Extent.mk reg.1 reg.2 := by
        simp only [pages, Extent.past, Extent.mem_mk, roundDown, roundUp] at hfits ⊢
        omega
      exact .inr (hcovers _ hpast)
  · intro hlast b hb
    rcases Nat.lt_or_ge b (pages reg).past with hlt | hge
    · refine ⟨reg, hreg, ?_, hlt⟩
      exact Nat.le_trans (Nat.div_mul_le_self reg.1 4096) hb.1
    · have hpage : b < (pages reg).past + 4096 := by
        simp only [pages, Extent.past, Extent.mem_mk, roundDown, roundUp] at hb ⊢
        omega
      rcases hlast with hfits | ⟨other, hother, hpast⟩
      · simp only [pages, Extent.past, Extent.mem_mk, roundDown, roundUp] at hfits hb hge
        omega
      · exact ⟨other, hother, mem_pages_of_past_mem hpast hge hpage⟩

end

/-- A register of three pages on a page boundary, cut greedily. -/
theorem covered_iff_lastPage_threePages :
    (expand (fun base size ↦ cutBlocks size base size) [⟨[(0x10000000, 0x3000)], []⟩] []).Covers
        ⟨0x10000000, 0x3000⟩ ↔
      LastPage [⟨[(0x10000000, 0x3000)], []⟩] (0x10000000, 0x3000) :=
  @covered_iff_lastPage _ _ _ (0x10000000, 0x3000) tilesPages_cutBlocks (by decide) (by decide)

/-- A register of one page that starts in the middle of a page loses its second half. -/
theorem not_covered_halfPage :
    ¬ ∀ (getUntypedsFromRange : ℕ → ℕ → List (ℕ × ℕ)) (dtb : List Node) (configuredIrqs : List ℕ),
      TilesPages getUntypedsFromRange → ∀ reg ∈ dtb.flatMap Node.regSet, 0 < reg.2 →
        (expand getUntypedsFromRange dtb configuredIrqs).Covers ⟨reg.1, reg.2⟩ := by
  intro h
  have hcovers := h _ [⟨[(0x10000800, 0x1000)], []⟩] [] tilesPages_cutBlocks (0x10000800, 0x1000)
    (by decide) (by decide) 0x10001000 (by decide)
  rw [tilesPages_cutBlocks.exists_untyped_iff] at hcovers
  exact absurd hcovers (by decide)

end Passthrough
end CamkesVm
