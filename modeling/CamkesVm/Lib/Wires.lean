import Mathlib.Logic.Function.Basic

/-!
# Lines and the sources that drive them

Some sources share some lines: each source is routed to one line, and may be pending.  A line that
is high is *owned* if a pending source is routed to it; then the source can lower the line again,
when it is acknowledged.

Driving its line keeps a source from leaving one behind (`OwnedBut.drive`).  Changing routes may
leave a line high that nobody owns, and `owned_move_iff` says when moving one source does.  Where
some lines are about to be lowered whoever owns them, the others are what matters (`OwnedBut`).

## How it is used

A device with several interrupt sources is a `Board` seen through its registers. The invariant is
`Board.Owned`; a call that asserts or retracts one source is `Board.drive`, a write to a routing
register is `Board.move`, and lowering lines wholesale is `Board.lower`. `OwnedBut.drive` keeps the
invariant without conditions, and the two equivalences say exactly when the others do.

The invariant does not say that a pending source has its line high, since a line may be shared and
another source may have lowered it: that is the price of level lines without a count.
-/

set_option autoImplicit false

namespace Wires

universe u v

variable {ι : Type u} {ρ : Type v}

/-- The lines and the sources. -/
@[ext]
structure Board (ι : Type u) (ρ : Type v) where
  /-- The line is high. -/
  level : ρ → Bool
  /-- The source is pending. -/
  pending : ι → Bool
  /-- The line the source is routed to. -/
  route : ι → ρ

namespace Board

/-- Every line that is high has an owner, but for the lines `p`. -/
def OwnedBut (p : ρ → Prop) (b : Board ι ρ) : Prop :=
  ∀ r, ¬p r → b.level r = true → ∃ i, b.pending i = true ∧ b.route i = r

/-- Every line that is high has an owner. -/
def Owned (b : Board ι ρ) : Prop := ∀ r, b.level r = true → ∃ i, b.pending i = true ∧ b.route i = r

/-- Some lines are lowered. -/
def lower (p : ρ → Prop) [DecidablePred p] (b : Board ι ρ) : Board ι ρ :=
  { b with level := fun r ↦ b.level r && !decide (p r) }

variable {p : ρ → Prop} {b : Board ι ρ}

theorem Owned.but (h : b.Owned) (p : ρ → Prop) : b.OwnedBut p := fun r _ ↦ h r

theorem ownedBut_false_iff : (b.OwnedBut fun _ ↦ False) ↔ b.Owned :=
  forall_congr' fun _ ↦ forall_prop_of_true not_false

/-- **Lowering the lines without an owner** leaves those that have one. -/
theorem owned_lower_iff [DecidablePred p] : (b.lower p).Owned ↔ b.OwnedBut p := by
  refine ⟨fun h r hp hr ↦ h r ?_, fun h r hr ↦ ?_⟩
  · change (b.level r && !decide (p r)) = true
    rw [hr, decide_eq_false hp]
    rfl
  · obtain ⟨hlevel, hp⟩ := Bool.and_eq_true_iff.mp hr
    exact h r (by simpa using hp) hlevel

variable [DecidableEq ι]

/-- A source is routed to another line. -/
def move (b : Board ι ρ) (i : ι) (r : ρ) : Board ι ρ :=
  { b with route := Function.update b.route i r }

@[simp] theorem route_move_self (b : Board ι ρ) (i : ι) (r : ρ) : (b.move i r).route i = r :=
  Function.update_self ..

theorem route_move_of_ne (b : Board ι ρ) (i : ι) (r : ρ) {j : ι} (h : j ≠ i) :
    (b.move i r).route j = b.route j := Function.update_of_ne h ..

variable [DecidableEq ρ]

/-- A source starts or stops being pending, and drives its line accordingly. -/
def drive (b : Board ι ρ) (i : ι) (v : Bool) : Board ι ρ where
  level := Function.update b.level (b.route i) v
  pending := Function.update b.pending i v
  route := b.route

section

variable (b) (i : ι) (v : Bool) {j : ι} {r' : ρ}

@[simp] theorem route_drive : (b.drive i v).route = b.route := rfl

@[simp] theorem pending_drive_self : (b.drive i v).pending i = v := Function.update_self ..

theorem pending_drive_of_ne (h : j ≠ i) : (b.drive i v).pending j = b.pending j :=
  Function.update_of_ne h ..

@[simp] theorem level_drive_self : (b.drive i v).level (b.route i) = v := Function.update_self ..

theorem level_drive_of_ne (h : r' ≠ b.route i) : (b.drive i v).level r' = b.level r' :=
  Function.update_of_ne h ..

end

/-- **Driving a line keeps the lines owned.** -/
theorem OwnedBut.drive (h : b.OwnedBut p) (i : ι) (v : Bool) : (b.drive i v).OwnedBut p := by
  intro r hp hr
  by_cases hri : r = b.route i
  · rw [hri, level_drive_self] at hr
    exact ⟨i, (pending_drive_self b i v).trans hr, hri.symm⟩
  · rw [level_drive_of_ne b i v hri] at hr
    obtain ⟨j, hj, hroute⟩ := h r hp hr
    have hji : j ≠ i := by
      rintro rfl
      exact hri hroute.symm
    exact ⟨j, (pending_drive_of_ne b i v hji).trans hj, hroute⟩

theorem Owned.drive (h : b.Owned) (i : ι) (v : Bool) : (b.drive i v).Owned :=
  ownedBut_false_iff.mp ((ownedBut_false_iff.mpr h).drive i v)

/-- **Moving a source** leaves a line behind, unless the source is not pending, or stays where it
is, or the line is low, or another pending source is routed to it. -/
theorem owned_move_iff (h : b.Owned) (i : ι) (r : ρ) :
    (b.move i r).Owned ↔
      (b.pending i = true → r ≠ b.route i → b.level (b.route i) = true →
        ∃ j ≠ i, b.pending j = true ∧ b.route j = b.route i) := by
  refine ⟨fun hmoved _ hr hlevel ↦ ?_, fun hleft r' hlevel ↦ ?_⟩
  · obtain ⟨j, hj, hroute⟩ := hmoved _ hlevel
    have hji : j ≠ i := by
      rintro rfl
      exact hr ((route_move_self b j r).symm.trans hroute)
    exact ⟨j, hji, hj, (route_move_of_ne b i r hji).symm.trans hroute⟩
  · obtain ⟨j, hj, rfl⟩ := h r' hlevel
    by_cases hji : j = i
    · subst hji
      by_cases hr : r = b.route j
      · exact ⟨j, hj, (route_move_self b j r).trans hr⟩
      · obtain ⟨k, hk, hpending, hroute⟩ := hleft hj hr hlevel
        exact ⟨k, hpending, (route_move_of_ne b j r hk).trans hroute⟩
    · exact ⟨j, hj, route_move_of_ne b i r hji⟩

/-- Lowering the line it was moved to does not make up for the one a source has left behind. -/
theorem owned_move_drive_iff (h : b.Owned) (i : ι) (r : ρ) :
    ((b.move i r).drive i false).Owned ↔ (b.move i r).Owned := by
  refine ⟨fun hdriven r' hlevel ↦ ?_, fun hmoved ↦ hmoved.drive i false⟩
  by_cases hr : r' = r
  · obtain ⟨j, hj, hjr⟩ := h r' hlevel
    by_cases hji : j = i
    · exact ⟨i, hji ▸ hj, (route_move_self b i r).trans hr.symm⟩
    · exact ⟨j, hj, (route_move_of_ne b i r hji).trans hjr⟩
  · have hne : r' ≠ (b.move i r).route i := by rwa [route_move_self]
    obtain ⟨j, hj, hjr⟩ := hdriven r' ((level_drive_of_ne _ i false hne).trans hlevel)
    have hji : j ≠ i := by
      rintro rfl
      exact hne hjr.symm
    exact ⟨j, (pending_drive_of_ne _ i false hji).symm.trans hj, hjr⟩

end Board

end Wires
