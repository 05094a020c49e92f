import CamkesVm.Passthrough.Template

/-!
# Nothing is handed out twice

The template keeps a map of the interrupts it has met, so that an interrupt which several nodes, or
the configuration, name gets one entry in `camkes_dtb_irqs` (`count_camkesDtbIrqs`).  There is no
such map for the memory: the blocks of a register follow those of the registers before it, whether
or not they are of the same page.

`route_irqs` then registers first the interrupts that the platform's header lists in `linux_pt_irqs`
and then those of the device tree, until a registration fails.  `handedOnce_iff` says what of the
device tree and of that list makes sure that nothing is handed out twice.

## What is here

* `Routes`, `routeIrq`, `routeAll`, `routeIrqs` — the registrations, with the three calls of
  `route_irq` that may fail, each with an answer that may depend on what was registered so far.
* `Template.IrqsOnce`, `count_camkesDtbIrqs` — what the map is for, as an invariant of the
  expansion.
* `HandedOnce` — nothing twice: memory, entries and registrations.
* `untypeds_apart_iff` — blocks of untyped memory are apart exactly if the page ranges of the
  registers are, by the general facts on tilings.
* `routes_nodup_iff`, `handedOnce_iff` — the registrations, and everything together.

If the registrations fail half way, what was registered is a part of the two lists, and it is shown
for every way they may go.
-/

set_option autoImplicit false

namespace CamkesVm
namespace Passthrough

/-! ## Routing interrupts -/

/-- Where `route_irq` gives up. -/
inductive RouteFailure
  /-- `calloc` has no memory for the token. -/
  | calloc
  /-- `vm_register_irq` returns -1. -/
  | vmRegisterIrq
  /-- `irq_server_register_irq` returns a negative number. -/
  | irqServerRegisterIrq
  deriving DecidableEq

/-- What has been registered, the latest last. -/
structure Routes (η : Type) where
  /-- The virtual interrupts that `vm_register_irq` took. -/
  vm : List ℕ
  /-- The interrupts that `irq_server_register_irq` took, with their handlers. -/
  irqServer : List (ℕ × η)

section

variable {η : Type} (getCustomIrqHandler : Option (ℕ → Option η)) (irqHandler : η)
  (fails : Routes η → ℕ → Option RouteFailure)

/-- The handler `route_irq` registers: `irq_handler`, unless the platform has one of its own. -/
def handlerOf (irqNum : ℕ) : η :=
  match getCustomIrqHandler with
  | none => irqHandler
  | some custom => (custom irqNum).getD irqHandler

/-- `route_irq`, which may fail in three places; whether it does may depend on what is registered
already.  The boolean says whether it returns 0. -/
def routeIrq (s : Routes η) (irqNum : ℕ) : Routes η × Bool :=
  let handler := handlerOf getCustomIrqHandler irqHandler irqNum
  match fails s irqNum with
  | some .calloc => (s, false)
  | some .vmRegisterIrq => (s, false)
  | some .irqServerRegisterIrq => ({ s with vm := s.vm ++ [irqNum] }, false)
  | none => (⟨s.vm ++ [irqNum], s.irqServer ++ [(irqNum, handler)]⟩, true)

/-- A loop of `route_irqs`, which ends at the first failure. -/
def routeAll (s : Routes η) : List ℕ → Routes η × Bool
  | [] => (s, true)
  | irqNum :: irqs =>
    match routeIrq getCustomIrqHandler irqHandler fails s irqNum with
    | (s, false) => (s, false)
    | (s, true) => routeAll s irqs

/-- `route_irqs`.  The device tree interrupts are there if the VM has a passthrough connector. -/
def routeIrqs (linuxPtIrqs : List ℕ) (camkesDtbGetIrqs : Option (List ℕ)) : Routes η × Bool :=
  match routeAll getCustomIrqHandler irqHandler fails ⟨[], []⟩ linuxPtIrqs with
  | (s, false) => (s, false)
  | (s, true) =>
    match camkesDtbGetIrqs with
    | none => (s, true)
    | some irqs => routeAll getCustomIrqHandler irqHandler fails s irqs

variable {getCustomIrqHandler irqHandler fails}

variable (getCustomIrqHandler irqHandler fails) in
/-- A loop registers its interrupts in order, up to where it fails. -/
theorem routeAll_spec (irqs : List ℕ) (s : Routes η) :
    ∃ vm server, (routeAll getCustomIrqHandler irqHandler fails s irqs).1 =
        ⟨s.vm ++ vm, s.irqServer ++
          server.map fun irqNum ↦ (irqNum, handlerOf getCustomIrqHandler irqHandler irqNum)⟩ ∧
      vm <+: irqs ∧ server <+: vm ∧
      ((routeAll getCustomIrqHandler irqHandler fails s irqs).2 = true → server = irqs) := by
  induction irqs generalizing s with
  | nil => exact ⟨[], [], by simp [routeAll], List.prefix_rfl, List.prefix_rfl, fun _ ↦ rfl⟩
  | cons irqNum irqs ih =>
    rw [routeAll, routeIrq]
    cases hfails : fails s irqNum with
    | some failure =>
      cases failure with
      | calloc => exact ⟨[], [], by simp, List.nil_prefix, List.prefix_rfl, nofun⟩
      | vmRegisterIrq => exact ⟨[], [], by simp, List.nil_prefix, List.prefix_rfl, nofun⟩
      | irqServerRegisterIrq =>
        exact ⟨[irqNum], [], by simp, by simp, List.nil_prefix, nofun⟩
    | none =>
      obtain ⟨vm, server, heq, hvm, hserver, hall⟩ := ih ⟨s.vm ++ [irqNum],
        s.irqServer ++ [(irqNum, handlerOf getCustomIrqHandler irqHandler irqNum)]⟩
      refine ⟨irqNum :: vm, irqNum :: server, ?_, ?_, ?_, fun hdone ↦ ?_⟩
      · simpa using heq
      · exact (List.prefix_cons_inj irqNum).2 hvm
      · exact (List.prefix_cons_inj irqNum).2 hserver
      · rw [hall hdone]

theorem routeAll_append (first second : List ℕ) (s : Routes η) :
    routeAll getCustomIrqHandler irqHandler fails s (first ++ second) =
      match routeAll getCustomIrqHandler irqHandler fails s first with
      | (s, false) => (s, false)
      | (s, true) => routeAll getCustomIrqHandler irqHandler fails s second := by
  induction first generalizing s with
  | nil => rfl
  | cons irqNum first ih =>
    simp only [List.cons_append, routeAll]
    split
    · rfl
    · exact ih _

/-- **The two loops are one.** -/
theorem routeIrqs_eq (linuxPtIrqs dtbIrqs : List ℕ) :
    routeIrqs getCustomIrqHandler irqHandler fails linuxPtIrqs (some dtbIrqs) =
      routeAll getCustomIrqHandler irqHandler fails ⟨[], []⟩ (linuxPtIrqs ++ dtbIrqs) := by
  rw [routeAll_append, routeIrqs]

/-- A loop in which nothing fails registers all. -/
theorem routeAll_of_never (irqs : List ℕ) (s : Routes η) :
    (routeAll getCustomIrqHandler irqHandler (fun _ _ ↦ none) s irqs).1.vm = s.vm ++ irqs := by
  induction irqs generalizing s with
  | nil => simp [routeAll]
  | cons irqNum irqs ih => simp [routeAll, routeIrq, ih]

end

/-! ## The interrupts of the template -/

/-- The interrupts that the nodes and the configuration name. -/
def irqNumbers (dtb : List Node) (configuredIrqs : List ℕ) : List ℕ :=
  (dtb.flatMap Node.irqSet).map Irq.irq ++ configuredIrqs

/-- The map knows the interrupts of the list, and the list has each of them once. -/
structure Template.IrqsOnce (t : Template) : Prop where
  /-- The map and the list agree. -/
  mem_iff : ∀ irq, irq ∈ t.camkesDtbIrqs ↔ t.dtbIrqsMap irq ≠ none
  /-- No entry is there twice. -/
  nodup : t.camkesDtbIrqs.Nodup

section

variable {t : Template} {getUntypedsFromRange : ℕ → ℕ → List (ℕ × ℕ)}

/-- An interrupt is added if it is not there. -/
theorem Template.IrqsOnce.addIrqCap (h : t.IrqsOnce) (irq : ℕ) (cap : Cap) :
    (t.addIrqCap irq cap).IrqsOnce ∧
      ∀ i, i ∈ (t.addIrqCap irq cap).camkesDtbIrqs ↔ i ∈ t.camkesDtbIrqs ∨ i = irq := by
  rw [Template.addIrqCap]
  split
  · rename_i hnew
    have hmem : irq ∉ t.camkesDtbIrqs := fun hirq ↦ (h.mem_iff irq).1 hirq hnew
    have hlist : ({ t with
        dtbIrqs := t.dtbIrqs ++ [(irq, cap)]
        dtbIrqsMap := Function.update t.dtbIrqsMap irq (some cap) } : Template).camkesDtbIrqs =
          t.camkesDtbIrqs ++ [irq] := by
      simp [Template.camkesDtbIrqs]
    refine ⟨⟨fun i ↦ ?_, ?_⟩, fun i ↦ ?_⟩
    · rw [hlist]
      by_cases hi : i = irq
      · subst hi
        simp
      · simpa [hi] using h.mem_iff i
    · rw [hlist, List.nodup_append]
      refine ⟨h.nodup, List.pairwise_singleton _ irq, fun i hi j hj ↦ ?_⟩
      rintro rfl
      exact hmem (List.mem_singleton.1 hj ▸ hi)
    · rw [hlist]
      simp
  · rename_i cap' hold
    refine ⟨h, fun i ↦ (or_iff_left_of_imp ?_).symm⟩
    rintro rfl
    refine (h.mem_iff i).2 ?_
    rw [hold]
    exact Option.some_ne_none cap'

/-- A loop that adds interrupts. -/
theorem Template.IrqsOnce.foldl {α : Type*} (h : t.IrqsOnce) (f : Template → α → Template)
    (number : α → ℕ)
    (hf : ∀ t : Template, t.IrqsOnce → ∀ a, (f t a).IrqsOnce ∧
      ∀ i, i ∈ (f t a).camkesDtbIrqs ↔ i ∈ t.camkesDtbIrqs ∨ i = number a)
    (l : List α) :
    (l.foldl f t).IrqsOnce ∧
      ∀ i, i ∈ (l.foldl f t).camkesDtbIrqs ↔ i ∈ t.camkesDtbIrqs ∨ i ∈ l.map number := by
  induction l generalizing t with
  | nil => exact ⟨h, fun i ↦ by simp⟩
  | cons a l ih =>
    obtain ⟨hone, hmem⟩ := hf t h a
    obtain ⟨hrest, hmems⟩ := ih hone
    refine ⟨hrest, fun i ↦ ?_⟩
    rw [List.foldl_cons, hmems, hmem, List.map_cons, List.mem_cons, or_assoc]

/-- A node adds the interrupts it names. -/
theorem Template.IrqsOnce.addNode (h : t.IrqsOnce)
    (getUntypedsFromRange : ℕ → ℕ → List (ℕ × ℕ)) (node : Node) :
    (t.addNode getUntypedsFromRange node).IrqsOnce ∧
      ∀ i, i ∈ (t.addNode getUntypedsFromRange node).camkesDtbIrqs ↔
        i ∈ t.camkesDtbIrqs ∨ i ∈ node.irqSet.map Irq.irq := by
  have hregs : (node.regSet.foldl (Template.addReg getUntypedsFromRange) t).IrqsOnce := by
    rw [foldl_addReg]
    exact ⟨h.mem_iff, h.nodup⟩
  have hnode := hregs.foldl Template.addIrq Irq.irq (fun t ht irq ↦ ht.addIrqCap irq.irq _)
    node.irqSet
  rw [foldl_addReg] at hnode
  rw [Template.addNode, foldl_addReg]
  exact hnode

theorem irqsOnce_expand (getUntypedsFromRange : ℕ → ℕ → List (ℕ × ℕ)) (dtb : List Node)
    (configuredIrqs : List ℕ) :
    (expand getUntypedsFromRange dtb configuredIrqs).IrqsOnce ∧
      ∀ i, i ∈ (expand getUntypedsFromRange dtb configuredIrqs).camkesDtbIrqs ↔
        i ∈ irqNumbers dtb configuredIrqs := by
  have hnodes : ∀ t : Template, t.IrqsOnce →
      (dtb.foldl (Template.addNode getUntypedsFromRange) t).IrqsOnce ∧
        ∀ i, i ∈ (dtb.foldl (Template.addNode getUntypedsFromRange) t).camkesDtbIrqs ↔
          i ∈ t.camkesDtbIrqs ∨ i ∈ (dtb.flatMap Node.irqSet).map Irq.irq := by
    induction dtb with
    | nil => exact fun t h ↦ ⟨h, fun i ↦ by simp⟩
    | cons node dtb ih =>
      intro t h
      obtain ⟨hone, hmem⟩ := h.addNode getUntypedsFromRange node
      obtain ⟨hrest, hmems⟩ := ih _ hone
      refine ⟨hrest, fun i ↦ ?_⟩
      rw [List.foldl_cons, hmems, hmem, List.flatMap_cons, List.map_append, List.mem_append,
        or_assoc]
  obtain ⟨hall, hmem⟩ := hnodes {} ⟨fun i ↦ by simp [Template.camkesDtbIrqs], List.nodup_nil⟩
  obtain ⟨hone, hmems⟩ := hall.foldl Template.addConfiguredIrq id
    (fun t ht irq ↦ ht.addIrqCap irq _) configuredIrqs
  refine ⟨hone, fun i ↦ ?_⟩
  rw [expand, hmems, hmem, irqNumbers, List.mem_append, List.map_id]
  simp [Template.camkesDtbIrqs]

/-- **Each interrupt has one entry in `camkes_dtb_irqs`.** -/
theorem count_camkesDtbIrqs (dtb : List Node) (configuredIrqs : List ℕ) (irq : ℕ) :
    (expand getUntypedsFromRange dtb configuredIrqs).camkesDtbIrqs.count irq =
      if irq ∈ irqNumbers dtb configuredIrqs then 1 else 0 := by
  obtain ⟨hone, hmem⟩ := irqsOnce_expand getUntypedsFromRange dtb configuredIrqs
  rw [hone.nodup.count]
  simp only [hmem]

end

/-! ## Once -/

/-- Everything is handed over once: the blocks that the allocator gets are apart, `camkes_dtb_irqs`
has each interrupt of the device tree once, and `route_irqs` registers no interrupt twice, and none
of the device tree is missing when it returns 0. -/
structure HandedOnce {η : Type} (getUntypedsFromRange : ℕ → ℕ → List (ℕ × ℕ)) (dtb : List Node)
    (configuredIrqs linuxPtIrqs : List ℕ) (getCustomIrqHandler : Option (ℕ → Option η))
    (irqHandler : η) : Prop where
  /-- The memory. -/
  untypeds : ∃ untypeds,
    (expand getUntypedsFromRange dtb configuredIrqs).vmmInit = some untypeds ∧
      (untypeds.map Untyped.extent).Pairwise Extent.Apart
  /-- The interrupts. -/
  irqs : ∀ irq, (expand getUntypedsFromRange dtb configuredIrqs).camkesDtbIrqs.count irq =
    if irq ∈ irqNumbers dtb configuredIrqs then 1 else 0
  /-- The registrations. -/
  routes : ∀ (fails : Routes η → ℕ → Option RouteFailure) (s : Routes η) (ok : Bool),
    routeIrqs getCustomIrqHandler irqHandler fails linuxPtIrqs
        (some (expand getUntypedsFromRange dtb configuredIrqs).camkesDtbIrqs) = (s, ok) →
      s.vm.Nodup ∧ (s.irqServer.map Prod.fst).Nodup ∧
        (ok = true → ∀ irq ∈ irqNumbers dtb configuredIrqs, irq ∈ s.irqServer.map Prod.fst)

section

variable {η : Type} {getUntypedsFromRange : ℕ → ℕ → List (ℕ × ℕ)}

/-- **The blocks are apart exactly where the rounded registers are.** -/
theorem untypeds_apart_iff (htiles : TilesPages getUntypedsFromRange) (dtb : List Node)
    (configuredIrqs : List ℕ) :
    (∃ untypeds, (expand getUntypedsFromRange dtb configuredIrqs).vmmInit = some untypeds ∧
        (untypeds.map Untyped.extent).Pairwise Extent.Apart) ↔
      ((dtb.flatMap Node.regSet).map pages).Pairwise Extent.Apart := by
  have htiling : ∀ reg ∈ dtb.flatMap Node.regSet,
      Extent.Tiling ((regUntypeds getUntypedsFromRange reg).map Untyped.extent)
        (pages reg).first (pages reg).past := fun reg _ ↦ htiles.tiling reg
  rw [← Extent.pairwise_apart_flatMap_iff htiling, ← List.map_flatMap,
    ← untypedDtbMmio_expand dtb configuredIrqs]
  simp only [vmmInit_eq, Option.some.injEq, exists_eq_left']

/-- **No interrupt is registered twice exactly if the two lists have none twice.** -/
theorem routes_nodup_iff (getCustomIrqHandler : Option (ℕ → Option η)) (irqHandler : η)
    (linuxPtIrqs dtbIrqs : List ℕ) :
    (∀ (fails : Routes η → ℕ → Option RouteFailure) (s : Routes η) (ok : Bool),
        routeIrqs getCustomIrqHandler irqHandler fails linuxPtIrqs (some dtbIrqs) = (s, ok) →
          s.vm.Nodup ∧ (s.irqServer.map Prod.fst).Nodup ∧
            (ok = true → ∀ irq ∈ dtbIrqs, irq ∈ s.irqServer.map Prod.fst)) ↔
      (linuxPtIrqs ++ dtbIrqs).Nodup := by
  constructor
  · intro h
    have hvm := (h (fun _ _ ↦ none) _ _ ((routeIrqs_eq _ _).trans (Prod.eta _).symm)).1
    rwa [routeAll_of_never, List.nil_append] at hvm
  · intro hnodup fails s ok hroute
    obtain ⟨vm, server, heq, hvm, hserver, hall⟩ := routeAll_spec getCustomIrqHandler irqHandler
      fails (linuxPtIrqs ++ dtbIrqs) ⟨[], []⟩
    rw [routeIrqs_eq] at hroute
    rw [hroute] at heq hall
    subst heq
    have hfst : (server.map fun irqNum ↦
        (irqNum, handlerOf getCustomIrqHandler irqHandler irqNum)).map Prod.fst = server := by
      rw [List.map_map]
      exact List.map_id _
    simp only [List.nil_append, hfst]
    refine ⟨hvm.sublist.nodup hnodup, (hserver.trans hvm).sublist.nodup hnodup,
      fun hok irq hirq ↦ ?_⟩
    rw [hall hok]
    exact List.mem_append_right _ hirq

/-- **When nothing is handed out twice**: the rounded registers of the device tree do not overlap,
and the list of the platform names no interrupt twice and none of the device tree. -/
theorem handedOnce_iff (htiles : TilesPages getUntypedsFromRange) (dtb : List Node)
    (configuredIrqs linuxPtIrqs : List ℕ) (getCustomIrqHandler : Option (ℕ → Option η))
    (irqHandler : η) :
    HandedOnce getUntypedsFromRange dtb configuredIrqs linuxPtIrqs getCustomIrqHandler
        irqHandler ↔
      ((dtb.flatMap Node.regSet).map pages).Pairwise Extent.Apart ∧ linuxPtIrqs.Nodup ∧
        ∀ irq ∈ linuxPtIrqs, irq ∉ irqNumbers dtb configuredIrqs := by
  obtain ⟨hone, hmem⟩ := irqsOnce_expand getUntypedsFromRange dtb configuredIrqs
  have hlists : (linuxPtIrqs ++
      (expand getUntypedsFromRange dtb configuredIrqs).camkesDtbIrqs).Nodup ↔
        linuxPtIrqs.Nodup ∧ ∀ irq ∈ linuxPtIrqs, irq ∉ irqNumbers dtb configuredIrqs := by
    rw [List.nodup_append]
    simp only [hone.nodup, true_and, hmem]
    exact and_congr_right fun _ ↦ ⟨fun h irq hirq hdtb ↦ h irq hirq irq hdtb rfl,
      fun h irq hirq _ hdtb heq ↦ h irq hirq (heq ▸ hdtb)⟩
  have hroutes := routes_nodup_iff getCustomIrqHandler irqHandler linuxPtIrqs
    (expand getUntypedsFromRange dtb configuredIrqs).camkesDtbIrqs
  rw [hlists] at hroutes
  simp only [hmem] at hroutes
  rw [← hroutes, ← untypeds_apart_iff htiles dtb configuredIrqs]
  exact ⟨fun h ↦ ⟨h.untypeds, h.routes⟩,
    fun h ↦ ⟨h.1, count_camkesDtbIrqs dtb configuredIrqs, h.2⟩⟩

end

/-- Two timers of one page, and an interrupt that both have. -/
def sharedPage : List Node :=
  [⟨[(0x10000100, 0x80)], [⟨32, some 1⟩]⟩, ⟨[(0x10000200, 0x80)], [⟨32, some 1⟩]⟩]

theorem handedOnce_iff_sharedPage :
    HandedOnce (fun base size ↦ cutBlocks size base size) sharedPage [] [] none () ↔
      ((sharedPage.flatMap Node.regSet).map pages).Pairwise Extent.Apart ∧ ([] : List ℕ).Nodup ∧
        ∀ irq ∈ ([] : List ℕ), irq ∉ irqNumbers sharedPage [] :=
  handedOnce_iff tilesPages_cutBlocks sharedPage [] [] none ()

/-- **Two nodes whose registers share a page** hand the page out twice. -/
theorem not_handedOnce_sharedPage :
    ¬ ∀ (getUntypedsFromRange : ℕ → ℕ → List (ℕ × ℕ)) (dtb : List Node) (configuredIrqs : List ℕ),
      TilesPages getUntypedsFromRange →
        HandedOnce getUntypedsFromRange dtb configuredIrqs [] none () := by
  intro h
  have hapart := (untypeds_apart_iff tilesPages_cutBlocks sharedPage []).1
    (h _ sharedPage [] tilesPages_cutBlocks).untypeds
  have hpages : (pages (0x10000100, 0x80)).Apart (pages (0x10000200, 0x80)) := by
    simpa [sharedPage] using hapart
  exact hpages 0x10000000 (by decide) (by decide)

end Passthrough
end CamkesVm
