/- # AugmentedLagrangian.Proofs.MeritAgreement — the merit function in one call and in several

The merit function and its gradient can be evaluated together, one after the other, or each on its
own.  With constraints, every way to the gradient begins with the shifted multipliers.  Computing
them alone leaves what the merit function leaves, where that succeeds
(`Composes.shiftedValues_of_merit`).  What follows is the gradient from these multipliers.  So the
combined evaluation is the merit function and then this gradient, and the separate one is the
shifted multipliers and then this gradient.

`merit_evaluations_agree` compares the outcomes, for a problem with any primitives and nothing of
its own beside them.  A primitive is any function of its arguments and of what its buffer holds; it
may fail, with whatever it has written by then.
-/
import AugmentedLagrangian.Problem.Basic

namespace AugmentedLagrangian

set_option autoImplicit false

namespace Written

variable {B α : Type}

def Succeeds (w : Written B α) : Prop :=
  ∃ a, w.outcome = .ok a

@[simp] theorem succeeds_done (kept : B) (a : α) : (done kept a).Succeeds :=
  ⟨a, rfl⟩

@[simp] theorem not_succeeds_failed (kept : B) (e : EvalError) :
    ¬ (failed kept e : Written B α).Succeeds :=
  nofun

/-- An evaluation succeeds with what it leaves, or fails with it. -/
theorem done_or_failed (w : Written B α) :
    (∃ kept a, w = done kept a) ∨ ∃ kept e, w = failed kept e := by
  rcases w with ⟨kept, e | a⟩
  · exact .inr ⟨kept, e, rfl⟩
  · exact .inl ⟨kept, a, rfl⟩

end Written

namespace Problem

open Written (done failed)

variable {R : Type} [Scalar R] (p : Problem R)

/-- The merit function, its gradient, and what they call but the primitives, the kernel and the
Lagrangian's gradient, are the composed ones. -/
structure Composes : Prop where
  costWithGrad : p.costWithGrad = Composed.costWithGrad p.cost p.costGrad
  costWithConstr : p.costWithConstr = Composed.costWithConstr p.cost p.constr
  merit : p.merit = Composed.merit p.m p.cost p.costWithConstr p.shifted
  meritGradFrom : p.meritGradFrom = Composed.meritGradFrom p.m p.costGrad p.lagrGrad
  meritGrad :
    p.meritGrad = Composed.meritGrad p.m p.costGrad p.constr p.shifted p.meritGradFrom
  meritWithGrad : p.meritWithGrad =
    Composed.meritWithGrad p.m p.costWithGrad p.costWithConstr p.shifted p.lagrGrad

theorem composes_assemble (c : Constraints R) (duplicable : Except EvalError Unit)
    (prims : Primitives R) : (assemble c duplicable prims {}).Composes :=
  ⟨rfl, rfl, rfl, rfl, rfl, rfl⟩

variable (x y weights grad work buffer : List R)

/-- The shifted multipliers, without the merit function. -/
def shiftedValues : Written (List R) R :=
  (p.constr x buffer).andThen fun g _ => p.shifted g y weights

/-- The ways to the merit function and its gradient agree: both in one call, the merit function, its
gradient, and its gradient from the shifted multipliers that the merit function has left. -/
structure MeritAgrees : Prop where
  succeeds_iff : (p.meritWithGrad x y weights grad work buffer).Succeeds ↔
    (p.merit x y weights buffer).Succeeds ∧ (p.meritGrad x y weights grad work buffer).Succeeds
  value : ∀ {ψ}, (p.meritWithGrad x y weights grad work buffer).outcome = .ok ψ →
    (p.merit x y weights buffer).outcome = .ok ψ
  shifted : 0 < p.m → (p.meritWithGrad x y weights grad work buffer).Succeeds →
    (p.meritWithGrad x y weights grad work buffer).kept.2.2 = (p.merit x y weights buffer).kept
  gradient : (p.meritWithGrad x y weights grad work buffer).Succeeds →
    (p.meritWithGrad x y weights grad work buffer).kept.1 =
      (p.meritGrad x y weights grad work buffer).kept.1
  gradientFrom : (p.meritWithGrad x y weights grad work buffer).Succeeds →
    (p.meritGradFrom x (p.merit x y weights buffer).kept grad work).Succeeds ∧
      (p.meritWithGrad x y weights grad work buffer).kept.1 =
        (p.meritGradFrom x (p.merit x y weights buffer).kept grad work).kept.1
  /-- With constraints, the error is that of the merit function, or else that of its gradient. -/
  error : 0 < p.m → ∀ {e}, (p.meritWithGrad x y weights grad work buffer).outcome = .error e →
    (p.merit x y weights buffer).outcome = .error e ∨
      (p.merit x y weights buffer).Succeeds ∧
        (p.meritGrad x y weights grad work buffer).outcome = .error e

namespace MeritAgrees

variable {p} {x y weights grad work buffer}

/-- The ways agree where all of them succeed, with one value and one gradient. -/
theorem of_done {ψ : R} {ŷ s gradient work₁ work₂ work₃ s₂ : List R}
    (both : p.meritWithGrad x y weights grad work buffer = done (gradient, work₁, s) ψ)
    (merit : p.merit x y weights buffer = done ŷ ψ)
    (alone : p.meritGrad x y weights grad work buffer = done (gradient, work₂, s₂) ())
    (following : p.meritGradFrom x ŷ grad work = done (gradient, work₃) ())
    (same : 0 < p.m → s = ŷ) : p.MeritAgrees x y weights grad work buffer where
  succeeds_iff := by simp [both, merit, alone]
  value outcome := by
    rw [both] at outcome
    rw [merit]
    exact outcome
  shifted some _ := by
    rw [both, merit]
    exact same some
  gradient _ := by rw [both, alone]; rfl
  gradientFrom _ := by
    have kept : (p.merit x y weights buffer).kept = ŷ := by rw [merit]; rfl
    rw [kept, following, both]
    exact ⟨Written.succeeds_done _ _, rfl⟩
  error _ _ failed := by
    rw [both] at failed
    cases failed

/-- Where both in one call fail, only that and the error have to be compared. -/
theorem of_failed {kept : List R × List R × List R} {e : EvalError}
    (both : p.meritWithGrad x y weights grad work buffer = failed kept e)
    (separate : (p.merit x y weights buffer).Succeeds →
      ¬ (p.meritGrad x y weights grad work buffer).Succeeds)
    (error : 0 < p.m → (p.merit x y weights buffer).outcome = .error e ∨
      (p.merit x y weights buffer).Succeeds ∧
        (p.meritGrad x y weights grad work buffer).outcome = .error e) :
    p.MeritAgrees x y weights grad work buffer := by
  have fails : ¬ (p.meritWithGrad x y weights grad work buffer).Succeeds := by simp [both]
  exact {
    succeeds_iff := ⟨fun succeeds => absurd succeeds fails,
      fun succeeds => absurd succeeds.2 (separate succeeds.1)⟩
    value := fun outcome => absurd ⟨_, outcome⟩ fails
    shifted := fun _ succeeds => absurd succeeds fails
    gradient := fun succeeds => absurd succeeds fails
    gradientFrom := fun succeeds => absurd succeeds fails
    error := fun some e' failed => by
      rw [both] at failed
      cases failed
      exact error some }

end MeritAgrees

namespace Composes

variable {p} (composes : p.Composes) {x y weights grad work buffer}

include composes

/-! ## With constraints -/

section Constrained

variable (constrained : 0 < p.m)

include constrained

theorem merit_eq : p.merit x y weights buffer =
    Composed.costWithShifted p.costWithConstr p.shifted x y weights buffer := by
  rw [composes.merit]
  exact if_neg (Nat.ne_of_gt constrained)

/-- Both in one call: the merit function, then its gradient from what that left. -/
theorem meritWithGrad_eq : p.meritWithGrad x y weights grad work buffer =
    ((p.merit x y weights buffer).on (grad, work, ·)).andThen fun (grad, work, ŷ) ψ =>
      ((p.meritGradFrom x ŷ grad work).map fun _ => ψ).on fun (grad, work) => (grad, work, ŷ) := by
  rw [composes.merit_eq constrained, composes.meritWithGrad, composes.meritGradFrom,
    Composed.meritWithGrad, if_neg (Nat.ne_of_gt constrained)]
  simp only [Composed.meritGradFrom, if_neg (Nat.ne_of_gt constrained)]

/-- The gradient alone: the shifted multipliers, then the gradient from them. -/
theorem meritGrad_eq : p.meritGrad x y weights grad work buffer =
    ((p.shiftedValues x y weights buffer).on (grad, work, ·)).andThen fun (grad, work, ŷ) _ =>
      (p.meritGradFrom x ŷ grad work).on fun (grad, work) => (grad, work, ŷ) := by
  rw [composes.meritGrad, Composed.meritGrad, if_neg (Nat.ne_of_gt constrained)]
  rfl

/-- The merit function leaves the shifted multipliers as they are without it. -/
theorem shiftedValues_of_merit {ŷ : List R} {ψ : R} (merit : p.merit x y weights buffer = done ŷ ψ) :
    ∃ distance, p.shiftedValues x y weights buffer = done ŷ distance := by
  rw [composes.merit_eq constrained, Composed.costWithShifted, composes.costWithConstr,
    Composed.costWithConstr] at merit
  rw [shiftedValues]
  rcases (p.constr x buffer).done_or_failed with ⟨g, u, constr⟩ | ⟨g, e, constr⟩
  all_goals
    rw [constr] at merit ⊢
    simp only [Written.andThen_done, Written.andThen_failed] at merit ⊢
  · -- the cost is all that the merit function evaluates besides
    rcases cost : p.cost x with e | f
    all_goals rw [cost] at merit
    · cases merit
    rcases (p.shifted g y weights).done_or_failed with ⟨kept, distance, kernel⟩ | ⟨kept, e, kernel⟩
    all_goals
      change (p.shifted g y weights).map _ = _ at merit
      rw [kernel] at merit ⊢
      cases merit
    exact ⟨distance, rfl⟩
  · cases merit

/-- Once the merit function has succeeded, both other ways go on with the gradient from what it has
left; where it fails, so does the combined one. -/
theorem agrees_of_constrained : p.MeritAgrees x y weights grad work buffer := by
  have both : p.meritWithGrad x y weights grad work buffer = _ :=
    composes.meritWithGrad_eq constrained
  have alone : p.meritGrad x y weights grad work buffer = _ := composes.meritGrad_eq constrained
  rcases (p.merit x y weights buffer).done_or_failed with ⟨ŷ, ψ, merit⟩ | ⟨kept, e, merit⟩
  · obtain ⟨distance, values⟩ := composes.shiftedValues_of_merit constrained merit
    rw [merit, Written.on_done, Written.andThen_done] at both
    rw [values, Written.on_done, Written.andThen_done] at alone
    rcases (p.meritGradFrom x ŷ grad work).done_or_failed with
      ⟨kept, u, following⟩ | ⟨kept, e, following⟩
    all_goals simp only [following] at both alone
    · exact .of_done both merit alone following fun _ => rfl
    · exact .of_failed both (fun _ => by simp [alone])
        fun _ => .inr ⟨by simp [merit], by rw [alone]; rfl⟩
  · rw [merit, Written.on_failed, Written.andThen_failed] at both
    exact .of_failed both (by simp [merit]) fun _ => .inl (by rw [merit]; rfl)

end Constrained

/-! ## Without constraints -/

/-- Without constraints, the cost and its gradient are all that is evaluated. -/
theorem agrees_of_unconstrained (unconstrained : p.m = 0) :
    p.MeritAgrees x y weights grad work buffer := by
  have both : p.meritWithGrad x y weights grad work buffer =
      ((p.costGrad x grad).andThen fun grad _ => ⟨grad, p.cost x⟩).on (·, work, buffer) := by
    rw [composes.meritWithGrad, Composed.meritWithGrad, if_pos unconstrained, composes.costWithGrad]
    rfl
  have merit : p.merit x y weights buffer = ⟨buffer, p.cost x⟩ := by
    rw [composes.merit]
    exact if_pos unconstrained
  have alone : p.meritGrad x y weights grad work buffer =
      (p.costGrad x grad).on (·, work, buffer) := by
    rw [composes.meritGrad]
    exact if_pos unconstrained
  have following : p.meritGradFrom x buffer grad work = (p.costGrad x grad).on (·, work) := by
    rw [composes.meritGradFrom]
    exact if_pos unconstrained
  have none : ¬ 0 < p.m := by omega
  rcases (p.costGrad x grad).done_or_failed with ⟨kept, u, gradient⟩ | ⟨kept, e, gradient⟩
  all_goals rw [gradient] at both alone following
  · rcases cost : p.cost x with e | f
    all_goals rw [cost] at both merit
    · exact .of_failed both (by rw [merit]; nofun) fun some => absurd some none
    · exact .of_done both merit alone following fun some => absurd some none
  · exact .of_failed both (fun _ => by rw [alone]; nofun) fun some => absurd some none

end Composes

/-- Whatever primitives a problem has, the ways to its merit function and to its gradient agree: in
whether they succeed, in what they return and leave, and with constraints in how they fail. -/
theorem merit_evaluations_agree (c : Constraints R) (duplicable : Except EvalError Unit)
    (prims : Primitives R) :
    (assemble c duplicable prims {}).MeritAgrees x y weights grad work buffer := by
  have composes := composes_assemble c duplicable prims
  rcases Nat.eq_zero_or_pos (assemble c duplicable prims {}).m with unconstrained | constrained
  · exact composes.agrees_of_unconstrained unconstrained
  · exact composes.agrees_of_constrained constrained

end Problem

end AugmentedLagrangian
