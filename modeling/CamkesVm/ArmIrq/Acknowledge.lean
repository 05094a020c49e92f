import CamkesVm.Lib.Transition
import CamkesVm.Passthrough.Once
import Mathlib.Logic.Function.Basic

/-!
# Acknowledging passed-through interrupts

An interrupt that `route_irq` has routed is delivered to the VMM with a pair of `acknowledge_fn` and
`ack_data`, and stays masked until somebody invokes the first with the second.  `irq_handler` puts
the pair into the token of the interrupt and injects the virtual interrupt; when the guest is done
with it, the end-of-interrupt callback `do_irq_server_ack` finds the pair in the token and invokes
it.  On the Exynos 5410 the interrupts of the combiner have a handler of their own,
`vcombiner_irq_handler`, which puts the pair into the token as well but invokes it at once.

Delivery number `k` has the pair `(k, k)`: its two pointers, which the interrupt server passes and
which are not NULL.  The virtual interrupt controller is not part of the repository; what is
modelled of it is which virtual interrupts are pending and active.  It may refuse an injection.  The
guest may also end an interrupt that it has not got, and make one pending by itself.

`run_acknowledged_iff` says in which runs each pair is invoked once, and no interrupt stays masked
for good.

## What is here

* `State`, `Event`, `next` — the tokens, the virtual interrupts, and what was delivered,
  acknowledged and dropped so far. The two handlers and the callback are each a function of the
  state.
* `Enabled` — what keeps an event from happening: a real interrupt is not delivered while it is
  masked, and the guest takes only what is pending. Ending an interrupt asks for nothing.
* `Acknowledged` — at most once, and the guest still has those that are left; `Proper` is its
  condition on the state before an event.
* `Sound`, `sound_next` — the invariant of the tokens, and the step lemma: a pair that was not
  invoked is in the token of its interrupt.
* `proper_eoi_iff`, `run_acknowledged_iff` — the end of an interrupt decides, and from it the runs.
* `not_acknowledged_combiner` — the shortest run that goes wrong: one delivery to the handler of the
  combiner, taken and ended by the guest.

That no interrupt stays masked for good is a statement about states and not about time: whoever is
not acknowledged is pending or active, so an end of interrupt of the guest will do it.
-/

set_option autoImplicit false

namespace CamkesVm
namespace ArmIrq

open Transition Passthrough

/-! ## The system -/

/-- The functions that `route_irq` registers as handlers. -/
inductive Handler
  /-- `irq_handler`. -/
  | irqHandler
  /-- `vcombiner_irq_handler`. -/
  | vcombinerIrqHandler
  deriving DecidableEq

/-- `get_custom_irq_handler` of the Exynos 5410.  Other platforms have none. -/
def getCustomIrqHandler (irq : ℕ) : Option Handler :=
  if 32 ≤ irq ∧ irq ≤ 63 then some .vcombinerIrqHandler else none

/-- `struct irq_token`, the two pointers of it that change. -/
structure IrqToken where
  /-- `acknowledge_fn`, by the delivery it is from. -/
  acknowledgeFn : Option ℕ := none
  /-- `ack_data`, by the delivery it is from. -/
  ackData : Option ℕ := none
  deriving DecidableEq

/-- A virtual interrupt. -/
structure Virq where
  /-- Waiting for the guest. -/
  pending : Bool := false
  /-- Taken by the guest. -/
  active : Bool := false
  deriving DecidableEq

/-- The tokens, the virtual interrupts, and what has happened to the pairs. -/
structure State where
  /-- The token of each interrupt. -/
  token : ℕ → IrqToken
  /-- The virtual interrupt of each interrupt. -/
  virq : ℕ → Virq
  /-- The interrupts that were delivered, in order. -/
  delivered : List ℕ
  /-- The pairs that were invoked, in order. -/
  invoked : List (ℕ × ℕ)

/-- Nothing has been delivered; the tokens are as `calloc` leaves them. -/
def State.initial (virq : ℕ → Virq) : State := ⟨fun _ ↦ {}, virq, [], []⟩

/-- What happens next. -/
inductive Event
  /-- An interrupt is delivered to `irq_handler`; says whether `vm_inject_irq` succeeds. -/
  | deliver (irq : ℕ) (injected : Bool)
  /-- An interrupt is delivered to `vcombiner_irq_handler`; says which virtual interrupts
  `vm_combiner_irq_handler` injects. -/
  | deliverCombiner (irq : ℕ) (injected : List ℕ)
  /-- The guest makes a virtual interrupt pending. -/
  | setPending (irq : ℕ)
  /-- The guest takes a pending interrupt. -/
  | accept (irq : ℕ)
  /-- The guest ends an interrupt. -/
  | eoi (irq : ℕ)

/-- The handler puts its arguments into the token. -/
def State.fill (s : State) (irq : ℕ) : State :=
  let k := s.delivered.length
  { s with
    token := Function.update s.token irq ⟨some k, some k⟩
    delivered := s.delivered ++ [irq] }

/-- A virtual interrupt becomes pending. -/
def State.setPending (s : State) (irq : ℕ) : State :=
  { s with virq := Function.update s.virq irq { s.virq irq with pending := true } }

/-- `irq_handler`.  When the injection fails the interrupt is dropped. -/
def State.irqHandler (s : State) (irq : ℕ) (injected : Bool) : State :=
  let s := s.fill irq
  if injected then s.setPending irq else s

/-- `vcombiner_irq_handler`. -/
def State.vcombinerIrqHandler (s : State) (irq : ℕ) (injected : List ℕ) : State :=
  let k := s.delivered.length
  let s := injected.foldl State.setPending (s.fill irq)
  { s with invoked := s.invoked ++ [(k, k)] }

/-- `do_irq_server_ack`. -/
def State.doIrqServerAck (s : State) (irq : ℕ) : State :=
  let token := s.token irq
  match token.acknowledgeFn, token.ackData with
  | some f, some d => { s with
      invoked := s.invoked ++ [(f, d)]
      token := Function.update s.token irq { token with ackData := none } }
  | _, _ => s

/-- The guest takes a pending interrupt. -/
def State.accept (s : State) (irq : ℕ) : State :=
  { s with virq := Function.update s.virq irq ⟨false, true⟩ }

/-- The guest ends an interrupt, and the virtual interrupt controller calls the callback. -/
def State.eoi (s : State) (irq : ℕ) : State :=
  { s with
    virq := Function.update s.virq irq { s.virq irq with active := false } }.doIrqServerAck irq

section

variable (custom : Option (ℕ → Option Handler))

/-- The handler of an interrupt. -/
abbrev handler (irq : ℕ) : Handler := handlerOf custom .irqHandler irq

/-- Every delivery of the interrupt has been acknowledged, so it can be delivered again. -/
def State.Unmasked (s : State) (irq : ℕ) : Prop :=
  ∀ k < s.delivered.length, s.delivered[k]? = some irq → (k, k) ∈ s.invoked

/-- When something can happen. -/
def Enabled (s : State) : Event → Prop
  | .deliver irq _ => handler custom irq = .irqHandler ∧ s.Unmasked irq
  | .deliverCombiner irq _ => handler custom irq = .vcombinerIrqHandler ∧ s.Unmasked irq
  | .accept irq => (s.virq irq).pending = true
  | .setPending _ | .eoi _ => True

/-- What happens then. -/
def next (s : State) : Event → State
  | .deliver irq injected => s.irqHandler irq injected
  | .deliverCombiner irq injected => s.vcombinerIrqHandler irq injected
  | .setPending irq => s.setPending irq
  | .accept irq => s.accept irq
  | .eoi irq => s.eoi irq

/-! ## Acknowledgement -/

/-- The guest has the interrupt before it. -/
def Virq.Held (v : Virq) : Prop := v.pending = true ∨ v.active = true

/-- Each pair is invoked at most once, and until it is, the guest has the interrupt before it. -/
structure Acknowledged (s : State) : Prop where
  /-- No pair is invoked twice. -/
  once : s.invoked.Nodup
  /-- Somebody will invoke the others. -/
  held : ∀ k irq, s.delivered[k]? = some irq → (k, k) ∉ s.invoked → (s.virq irq).Held

/-- The injection of a delivered interrupt succeeds, or the guest has the interrupt before it
already; and when the guest ends an interrupt of the combiner, no delivery has filled the token. -/
def Proper (s : State) : Event → Prop
  | .deliver irq injected => injected = true ∨ (s.virq irq).Held
  | .eoi irq => handler custom irq = .vcombinerIrqHandler → (s.token irq).ackData = none
  | _ => True

/-! ## The tokens -/

/-- What holds of the tokens. -/
structure Sound (s : State) : Prop where
  /-- The pairs that were invoked are pairs that were delivered. -/
  invoked : ∀ pair ∈ s.invoked, pair.1 = pair.2 ∧ pair.1 < s.delivered.length
  /-- A token has the pair of a delivery of its interrupt. -/
  token : ∀ irq k, (s.token irq).ackData = some k →
    (s.token irq).acknowledgeFn = some k ∧ s.delivered[k]? = some irq
  /-- A pair that was not invoked is in the token. -/
  kept : ∀ k irq, s.delivered[k]? = some irq → (k, k) ∉ s.invoked →
    (s.token irq).ackData = some k
  /-- What `irq_handler` has left in a token was not invoked. -/
  direct : ∀ irq k, handler custom irq = .irqHandler → (s.token irq).ackData = some k →
    (k, k) ∉ s.invoked
  /-- What `vcombiner_irq_handler` has left in a token was invoked. -/
  combined : ∀ irq k, handler custom irq = .vcombinerIrqHandler →
    (s.token irq).ackData = some k → (k, k) ∈ s.invoked

end

section

variable {custom : Option (ℕ → Option Handler)} {s : State} {irq : ℕ}

theorem sound_initial (custom : Option (ℕ → Option Handler)) (virq : ℕ → Virq) :
    Sound custom (.initial virq) :=
  ⟨nofun, nofun, nofun, nofun, nofun⟩

/-- The virtual interrupts do not matter to the tokens. -/
theorem Sound.congr {t : State} (h : Sound custom s) (htoken : t.token = s.token)
    (hdelivered : t.delivered = s.delivered) (hinvoked : t.invoked = s.invoked) :
    Sound custom t := by
  refine ⟨?_, ?_, ?_, ?_, ?_⟩
  · rw [hinvoked, hdelivered]
    exact h.invoked
  · rw [htoken, hdelivered]
    exact h.token
  · rw [htoken, hdelivered, hinvoked]
    exact h.kept
  · rw [htoken, hinvoked]
    exact h.direct
  · rw [htoken, hinvoked]
    exact h.combined

/-- The pair of the next delivery was not invoked. -/
theorem Sound.not_invoked (h : Sound custom s) :
    (s.delivered.length, s.delivered.length) ∉ s.invoked :=
  fun hmem ↦ Nat.lt_irrefl _ (h.invoked _ hmem).2

theorem foldl_setPending (injected : List ℕ) (s : State) :
    (injected.foldl State.setPending s).token = s.token ∧
      (injected.foldl State.setPending s).delivered = s.delivered ∧
      (injected.foldl State.setPending s).invoked = s.invoked ∧
      ∀ i, (s.virq i).Held → ((injected.foldl State.setPending s).virq i).Held := by
  induction injected generalizing s with
  | nil => exact ⟨rfl, rfl, rfl, fun _ h ↦ h⟩
  | cons irq injected ih =>
    obtain ⟨htoken, hdelivered, hinvoked, hheld⟩ := ih (s.setPending irq)
    refine ⟨htoken, hdelivered, hinvoked, fun i hi ↦ hheld i ?_⟩
    by_cases hirq : i = irq
    · subst hirq
      simp [State.setPending, Virq.Held]
    · simpa [State.setPending, hirq] using hi

/-- **Filling a token** loses nothing, when the interrupt was unmasked. -/
theorem getElem?_fill {k i : ℕ} (h : (s.fill irq).delivered[k]? = some i) :
    (k < s.delivered.length ∧ s.delivered[k]? = some i) ∨
      (k = s.delivered.length ∧ i = irq) := by
  change (s.delivered ++ [irq])[k]? = some i at h
  rcases Nat.lt_or_ge k s.delivered.length with hlt | hge
  · rw [List.getElem?_append_left hlt] at h
    exact .inl ⟨hlt, h⟩
  · rw [List.getElem?_append_right hge, List.getElem?_singleton] at h
    split at h
    · rename_i hk
      exact .inr ⟨by omega, (Option.some.inj h).symm⟩
    · exact nomatch h

/-- What the handlers leave: the token is filled, and the combiner's handler has invoked the
pair. -/
theorem Sound.deliver (h : Sound custom s) (hunmasked : s.Unmasked irq) {extra : List (ℕ × ℕ)}
    (hextra : (handler custom irq = .irqHandler ∧ extra = []) ∨
      (handler custom irq = .vcombinerIrqHandler ∧
        extra = [(s.delivered.length, s.delivered.length)])) :
    Sound custom { s.fill irq with invoked := s.invoked ++ extra } := by
  have hextra_eq : ∀ pair ∈ extra, pair = (s.delivered.length, s.delivered.length) := by
    intro pair hpair
    obtain ⟨-, rfl⟩ | ⟨-, rfl⟩ := hextra
    · exact absurd hpair List.not_mem_nil
    · exact List.mem_singleton.1 hpair
  have hother : ∀ i k, i ≠ irq → ((s.fill irq).token i).ackData = some k →
      (s.token i).ackData = some k ∧ (k, k) ∉ extra := by
    intro i k hi hk
    have hk' : (s.token i).ackData = some k := by simpa [State.fill, hi] using hk
    refine ⟨hk', fun hmem ↦ ?_⟩
    have hlt := (List.getElem?_eq_some_iff.1 (h.token i k hk').2).1
    have heq := congrArg Prod.fst (hextra_eq _ hmem)
    exact Nat.ne_of_lt hlt heq
  have hself : ∀ k, ((s.fill irq).token irq).ackData = some k → k = s.delivered.length := by
    intro k hk
    simpa [State.fill, eq_comm] using hk
  refine ⟨fun pair hpair ↦ ?_, fun i k hk ↦ ?_, fun k i hk hnot ↦ ?_, fun i k hi hk hmem ↦ ?_,
    fun i k hi hk ↦ ?_⟩
  · have hlen : (s.fill irq).delivered.length = s.delivered.length + 1 := by simp [State.fill]
    rcases List.mem_append.1 hpair with hold | hnew
    · obtain ⟨heq, hlt⟩ := h.invoked pair hold
      exact ⟨heq, hlen ▸ Nat.lt_succ_of_lt hlt⟩
    · rw [hextra_eq pair hnew]
      exact ⟨rfl, hlen ▸ Nat.lt_succ_self _⟩
  · by_cases hirq : i = irq
    · subst hirq
      obtain rfl := hself k hk
      simp [State.fill]
    · obtain ⟨hk', -⟩ := hother i k hirq hk
      obtain ⟨hfn, hdelivered⟩ := h.token i k hk'
      have hlt := (List.getElem?_eq_some_iff.1 hdelivered).1
      simp [State.fill, hirq, hfn, List.getElem?_append_left hlt, hdelivered]
  · obtain ⟨hlt, hold⟩ | ⟨rfl, rfl⟩ := getElem?_fill hk
    · have hnot' : (k, k) ∉ s.invoked := fun hmem ↦ hnot (List.mem_append_left _ hmem)
      have hirq : i ≠ irq := by
        rintro rfl
        exact hnot' (hunmasked k hlt hold)
      simpa [State.fill, hirq] using h.kept k i hold hnot'
    · simp [State.fill]
  · by_cases hirq : i = irq
    · subst hirq
      obtain rfl := hself k hk
      obtain ⟨-, rfl⟩ | ⟨hcombiner, -⟩ := hextra
      · exact h.not_invoked (by simpa using hmem)
      · exact nomatch hi.symm.trans hcombiner
    · obtain ⟨hk', hnot⟩ := hother i k hirq hk
      exact (List.mem_append.1 hmem).elim (h.direct i k hi hk') hnot
  · by_cases hirq : i = irq
    · subst hirq
      obtain rfl := hself k hk
      obtain ⟨hdirect, -⟩ | ⟨-, rfl⟩ := hextra
      · exact nomatch hi.symm.trans hdirect
      · exact List.mem_append_right _ (List.mem_singleton.2 rfl)
    · exact List.mem_append_left _ (h.combined i k hi (hother i k hirq hk).1)

/-- What the callback does, case by case. -/
theorem Sound.doIrqServerAck_cases (h : Sound custom s) (irq : ℕ) :
    ((s.token irq).ackData = none ∧ s.doIrqServerAck irq = s) ∨
      ∃ k, (s.token irq).ackData = some k ∧ s.doIrqServerAck irq = { s with
        invoked := s.invoked ++ [(k, k)]
        token := Function.update s.token irq { s.token irq with ackData := none } } := by
  cases hdata : (s.token irq).ackData with
  | none =>
    refine .inl ⟨rfl, ?_⟩
    rw [State.doIrqServerAck]
    split
    · rename_i f d _ hd
      exact nomatch hdata.symm.trans hd
    · rfl
  | some k =>
    refine .inr ⟨k, rfl, ?_⟩
    simp only [State.doIrqServerAck, hdata, (h.token irq k hdata).1]

/-- **The callback keeps the tokens sound.** -/
theorem Sound.doIrqServerAck (h : Sound custom s) (irq : ℕ) :
    Sound custom (s.doIrqServerAck irq) := by
  obtain ⟨-, hack⟩ | ⟨k, hk, hack⟩ := h.doIrqServerAck_cases irq
  · rwa [hack]
  · rw [hack]
    have hother : ∀ i k',
        (Function.update s.token irq { s.token irq with ackData := none } i).ackData
        = some k' → i ≠ irq ∧ (s.token i).ackData = some k' := by
      intro i k' hk'
      by_cases hirq : i = irq
      · subst hirq
        simp at hk'
      · exact ⟨hirq, by simpa [hirq] using hk'⟩
    have hpair : ∀ i k', i ≠ irq → (s.token i).ackData = some k' → k' ≠ k := by
      rintro i k' hirq hk' rfl
      exact hirq (Option.some.inj ((h.token i k' hk').2.symm.trans (h.token irq k' hk).2))
    refine ⟨fun pair hmem ↦ ?_, fun i k' hk' ↦ ?_, fun k' i hi hnot ↦ ?_, fun i k' hi hk' hmem ↦ ?_,
      fun i k' hi hk' ↦ ?_⟩
    · rcases List.mem_append.1 hmem with hold | hnew
      · exact h.invoked pair hold
      · rw [List.mem_singleton.1 hnew]
        exact ⟨rfl, (List.getElem?_eq_some_iff.1 (h.token irq k hk).2).1⟩
    · obtain ⟨hirq, hold⟩ := hother i k' hk'
      simpa [hirq] using h.token i k' hold
    · have hold := h.kept k' i hi fun hmem ↦ hnot (List.mem_append_left _ hmem)
      have hirq : i ≠ irq := by
        rintro rfl
        obtain rfl := Option.some.inj (hold.symm.trans hk)
        exact hnot (List.mem_append_right _ (List.mem_singleton.2 rfl))
      simpa [hirq] using hold
    · obtain ⟨hirq, hold⟩ := hother i k' hk'
      rcases List.mem_append.1 hmem with hin | hin
      · exact h.direct i k' hi hold hin
      · exact hpair i k' hirq hold (congrArg Prod.fst (List.mem_singleton.1 hin))
    · exact List.mem_append_left _ (h.combined i k' hi (hother i k' hk').2)

/-- **Every event keeps the tokens sound.** -/
theorem sound_next (h : Sound custom s) {a : Event} (ha : Enabled custom s a) :
    Sound custom (next s a) := by
  cases a with
  | deliver irq injected =>
    have hfill := h.deliver ha.2 (.inl ⟨ha.1, rfl⟩)
    rw [List.append_nil] at hfill
    cases injected with
    | false => exact hfill
    | true => exact hfill.congr rfl rfl rfl
  | deliverCombiner irq injected =>
    obtain ⟨htoken, hdelivered, hinvoked, -⟩ := foldl_setPending injected (s.fill irq)
    refine (h.deliver ha.2 (.inr ⟨ha.1, rfl⟩)).congr htoken hdelivered ?_
    exact congrArg (· ++ [(s.delivered.length, s.delivered.length)]) hinvoked
  | setPending irq => exact h.congr rfl rfl rfl
  | accept irq => exact h.congr rfl rfl rfl
  | eoi irq =>
    have hactive : Sound custom { s with
        virq := Function.update s.virq irq { s.virq irq with active := false } } :=
      h.congr rfl rfl rfl
    exact hactive.doIrqServerAck irq

/-! ## Exactly once -/

/-- A delivery to `irq_handler` needs an interrupt that the guest will end. -/
theorem proper_deliver_iff (h : Sound custom s) (hs : Acknowledged s) (injected : Bool) :
    Proper custom s (.deliver irq injected) ↔ Acknowledged (s.irqHandler irq injected) := by
  have hinvoked : (s.irqHandler irq injected).invoked = s.invoked := by cases injected <;> rfl
  have hdelivered : (s.irqHandler irq injected).delivered = s.delivered ++ [irq] := by
    cases injected <;> rfl
  have hother : ∀ i, i ≠ irq → (s.irqHandler irq injected).virq i = s.virq i := by
    intro i hi
    cases injected <;> simp [State.irqHandler, State.fill, State.setPending, hi]
  have hself : ((s.irqHandler irq injected).virq irq).Held ↔
      Proper custom s (.deliver irq injected) := by
    cases injected <;>
      simp [State.irqHandler, State.fill, State.setPending, Virq.Held, Proper]
  constructor
  · intro hproper
    refine ⟨hinvoked ▸ hs.once, fun k i hk hnot ↦ ?_⟩
    rw [hinvoked] at hnot
    by_cases hi : i = irq
    · subst hi
      exact hself.2 hproper
    · rw [hother i hi]
      rw [hdelivered] at hk
      obtain ⟨-, hold⟩ | ⟨-, rfl⟩ := getElem?_fill hk
      · exact hs.held k i hold hnot
      · exact absurd rfl hi
  · intro hafter
    refine hself.1 (hafter.held s.delivered.length irq ?_ ?_)
    · simp [hdelivered]
    · rw [hinvoked]
      exact h.not_invoked

/-- A delivery to `vcombiner_irq_handler` is acknowledged at once. -/
theorem acknowledged_vcombinerIrqHandler (h : Sound custom s) (hs : Acknowledged s)
    (injected : List ℕ) : Acknowledged (s.vcombinerIrqHandler irq injected) := by
  obtain ⟨-, hdelivered, hinvoked, hheld⟩ := foldl_setPending injected (s.fill irq)
  have hinvoked' : (s.vcombinerIrqHandler irq injected).invoked =
      s.invoked ++ [(s.delivered.length, s.delivered.length)] :=
    congrArg (· ++ [(s.delivered.length, s.delivered.length)]) hinvoked
  refine ⟨?_, fun k i hk hnot ↦ ?_⟩
  · rw [hinvoked', List.nodup_append]
    refine ⟨hs.once, List.pairwise_singleton _ _, fun pair hpair pair' hpair' ↦ ?_⟩
    rintro rfl
    exact h.not_invoked (List.mem_singleton.1 hpair' ▸ hpair)
  · rw [hinvoked'] at hnot
    change (injected.foldl State.setPending (s.fill irq)).delivered[k]? = some i at hk
    rw [hdelivered] at hk
    obtain ⟨-, hold⟩ | ⟨rfl, -⟩ := getElem?_fill hk
    · exact hheld i (hs.held k i hold fun hmem ↦ hnot (List.mem_append_left _ hmem))
    · exact absurd (List.mem_append_right _ (List.mem_singleton.2 rfl)) hnot

/-- **Ending an interrupt is right unless the token has a pair that was invoked already.** -/
theorem proper_eoi_iff (h : Sound custom s) (hs : Acknowledged s) :
    Proper custom s (.eoi irq) ↔ Acknowledged (s.eoi irq) := by
  have hactive : Sound custom { s with
      virq := Function.update s.virq irq { s.virq irq with active := false } } :=
    h.congr rfl rfl rfl
  rw [State.eoi]
  obtain ⟨hnone, hack⟩ | ⟨k, hk, hack⟩ := hactive.doIrqServerAck_cases irq
  · -- there is nothing to invoke, so every delivery of the interrupt was invoked
    rw [hack]
    refine iff_of_true (fun _ ↦ hnone) ⟨hs.once, fun k i hki hnot ↦ ?_⟩
    have hi : i ≠ irq := by
      rintro rfl
      exact nomatch hnone.symm.trans (h.kept k i hki hnot)
    simpa [hi] using hs.held k i hki hnot
  · rw [hack]
    have hk' : (s.token irq).ackData = some k := hk
    constructor
    · intro hproper
      have hdirect : handler custom irq = .irqHandler := by
        cases hhandler : handler custom irq with
        | irqHandler => rfl
        | vcombinerIrqHandler => exact nomatch (hproper hhandler).symm.trans hk'
      refine ⟨?_, fun k' i hki hnot ↦ ?_⟩
      · refine List.nodup_append.2 ⟨hs.once, List.pairwise_singleton _ _, ?_⟩
        rintro pair hpair _ hpair' rfl
        exact h.direct irq k hdirect hk' (List.mem_singleton.1 hpair' ▸ hpair)
      · have hnot' : (k', k') ∉ s.invoked := fun hmem ↦ hnot (List.mem_append_left _ hmem)
        have hi : i ≠ irq := by
          rintro rfl
          obtain rfl := Option.some.inj ((h.kept k' i hki hnot').symm.trans hk')
          exact hnot (List.mem_append_right _ (List.mem_singleton.2 rfl))
        simpa [hi] using hs.held k' i hki hnot'
    · intro hafter hcombiner
      have hmem := h.combined irq k hcombiner hk'
      exact absurd rfl ((List.nodup_append.1 hafter.once).2.2 (k, k) hmem (k, k)
        (List.mem_singleton.2 rfl))

/-- Whether an event keeps the acknowledgements right. -/
theorem proper_iff (h : Sound custom s) (hs : Acknowledged s) {a : Event}
    (ha : Enabled custom s a) : Proper custom s a ↔ Acknowledged (next s a) := by
  cases a with
  | deliver irq injected => exact proper_deliver_iff h hs injected
  | deliverCombiner irq injected =>
    exact iff_of_true trivial (acknowledged_vcombinerIrqHandler h hs injected)
  | setPending irq =>
    refine iff_of_true trivial ⟨hs.once, fun k i hk hnot ↦ ?_⟩
    exact (foldl_setPending [irq] s).2.2.2 i (hs.held k i hk hnot)
  | accept irq =>
    refine iff_of_true trivial ⟨hs.once, fun k i hk hnot ↦ ?_⟩
    have hheld := hs.held k i hk hnot
    by_cases hi : i = irq
    · subst hi
      simp [next, State.accept, Virq.Held]
    · simpa [next, State.accept, hi] using hheld
  | eoi irq => exact proper_eoi_iff h hs

/-- **When interrupts are acknowledged exactly once.**  The runs in which every interrupt that is
delivered to `irq_handler` gets to the guest, and no interrupt of the combiner is ended by the guest
after it was delivered, are those in which every state has each pair invoked at most once, and the
interrupts of the others before the guest. -/
theorem run_acknowledged_iff (custom : Option (ℕ → Option Handler)) (virq : ℕ → Virq)
    (as : List Event) (t : State) :
    Run (Guarded (Proper custom) (Does (Enabled custom) next)) (.initial virq) as t ↔
      Run (Guarded (fun s _ ↦ Acknowledged s) (Does (Enabled custom) next)) (.initial virq) as t ∧
        Acknowledged t := by
  refine Run.guarded_iff_of_invariant (J := Sound custom) ⟨List.nodup_nil, nofun⟩
    (sound_initial custom virq) ?_ ?_
  · rintro s a _ hsound - ⟨ha, rfl⟩
    exact sound_next hsound ha
  · rintro s a _ hsound hs ⟨ha, rfl⟩
    exact proper_iff hsound hs ha

/-- **An interrupt of the combiner that the guest ends** is acknowledged twice. -/
theorem not_acknowledged_combiner :
    ¬ ∀ (custom : Option (ℕ → Option Handler)) (as : List Event) (t : State),
      Run (Does (Enabled custom) next) (.initial fun _ ↦ {}) as t → Acknowledged t := by
  intro h
  have hacknowledged := h (some getCustomIrqHandler)
    [.deliverCombiner 32 [32], .accept 32, .eoi 32] _
    (run_foldl ⟨⟨rfl, nofun⟩, rfl, trivial, trivial⟩)
  exact absurd hacknowledged.once (by decide)

end

end ArmIrq
end CamkesVm
