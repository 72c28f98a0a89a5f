/- # AugmentedLagrangian.Proofs.QuadraticSolution — where a solve of the quadratic can come to rest

The outer loop rests at a point and multipliers where the gradient of the merit function vanishes
and the kernel leaves the multipliers as they are.  For the quadratic, in exact arithmetic, the
first is a pair of linear equations in the point and the shifted multipliers, and the second is
complementarity in the box `ℝ × [½, ∞)`, whatever the weights (`Box.Corrects`).  Together they have
one solution: `(-1/6, 1/2)` with multipliers `(0, -4/3)`.

That point is the minimum.  The cost is `4/3 x₁² + 3/2 (x₀ + x₁/3)²`, of which the first term grows
from the bound on, and the second is zero there.
-/
import AugmentedLagrangian.Proofs.Complementarity
import AugmentedLagrangian.Proofs.Derivatives
import AugmentedLagrangian.Proofs.MeritAgreement

namespace AugmentedLagrangian

set_option autoImplicit false

/-- The kernel keeps exactly those multipliers that are complementary to the constraint values. -/
theorem Box.Corrects.kept_iff_complementary {box : Box (Exact ℝ)} {σ g y e ŷ : Space box.size}
    (corrects : box.Corrects σ g y e ŷ) :
    ŷ = y ↔ ∀ i, (Multipliers.intervalAt box i).Complementary (g i) (y i) := by
  rw [corrects.kept_iff, corrects.vanishes_iff, contains_held, ← forall_and]
  exact forall_congr' fun i => Interval.complementary_iff.symm

namespace Quadratic

open MvPolynomial (eval X)
open Multipliers (Weigh intervalAt multipliers)

/-- The problem over the real numbers. -/
noncomputable abbrev real : Problem (Exact ℝ) :=
  standard.problem

/-! ## The box -/

/-- The interval `[½, ∞)` of the second constraint. -/
theorem between_eq : Interval.between (0.5 : Exact ℝ) Scalar.infinity OrdersBounds.second =
    ⟨.fin (1 / 2), .posInf, trivial⟩ := by
  simp only [Interval.between, Exact.half_eq]
  rfl

theorem halfPlane_meets : ∀ i ∈ (halfPlane : Constraints (Exact ℝ)).values.intervals, i.Meets := by
  intro i member
  rcases List.mem_pair.1 member with rfl | rfl
  · exact ⟨0, trivial, trivial⟩
  · rw [between_eq]
    exact ⟨1 / 2, le_refl (1 / 2 : ℝ), trivial⟩

theorem complementary_line {g y : ℝ} :
    (Interval.line : Interval (Exact ℝ)).Complementary g y ↔ y = 0 := by
  constructor
  · rintro ⟨-, upper, lower⟩
    refine le_antisymm (not_lt.1 fun positive => ?_) (not_lt.1 fun negative => ?_)
    · exact nomatch upper positive
    · exact nomatch lower negative
  · rintro rfl
    exact ⟨rfl, fun positive => absurd positive (lt_irrefl 0),
      fun negative => absurd negative (lt_irrefl 0)⟩

theorem complementary_between {g y : ℝ} :
    (Interval.between (0.5 : Exact ℝ) Scalar.infinity OrdersBounds.second).Complementary g y ↔
      1 / 2 ≤ g ∧ y ≤ 0 ∧ (y < 0 → 1 / 2 = g) := by
  rw [between_eq]
  constructor
  · rintro ⟨holds, upper, lower⟩
    exact ⟨(Interval.holds_eq_true.1 holds).1, not_lt.1 fun positive => (nomatch upper positive),
      fun negative => Exact.fin.inj (lower negative)⟩
  · rintro ⟨least, most, lower⟩
    exact ⟨Interval.holds_eq_true.2 ⟨least, trivial⟩, fun positive => absurd positive most.not_gt,
      fun negative => congrArg Exact.fin (lower negative)⟩

theorem contains_iff {x : Space 2} :
    (halfPlane : Constraints (Exact ℝ)).values.contains (held x) = true ↔ 1 / 2 ≤ x 1 := by
  have each : (halfPlane : Constraints (Exact ℝ)).values.contains (held x) = true ↔
      ∀ i : Fin 2, _ := Box.contains_held
  let half : Interval (Exact ℝ) := .between 0.5 Scalar.infinity OrdersBounds.second
  have bound : half.holds (.fin (x 1)) = true ↔ 1 / 2 ≤ x 1 := by
    show (Interval.between _ _ _).holds _ = true ↔ _
    rw [between_eq]
    exact Interval.holds_eq_true.trans (and_iff_left trivial)
  exact each.trans (Fin.forall_fin_two.trans ((and_iff_right rfl).trans bound))

/-- What the kernel makes of the multipliers. -/
noncomputable def shiftedAt (x y σ : Space 2) : Space 2 :=
  multipliers (intervalAt (halfPlane : Constraints (Exact ℝ)).values) y σ x

/-- The multipliers that the kernel leaves as they are. -/
theorem kept_iff {x y σ : Space 2} (positive : ∀ i, 0 < σ i) :
    shiftedAt x y σ = y ↔ y 0 = 0 ∧ 1 / 2 ≤ x 1 ∧ y 1 ≤ 0 ∧ (y 1 < 0 → 1 / 2 = x 1) := by
  have corrects : Box.Corrects (halfPlane : Constraints (Exact ℝ)).values σ x y _ _ :=
    Multipliers.corrects halfPlane_meets positive
  exact corrects.kept_iff_complementary.trans
    (Fin.forall_fin_two.trans (and_congr complementary_line complementary_between))

/-! ## The gradient -/

/-- The gradient of the Lagrangian of a quadratic with this matrix. -/
noncomputable def slope (p₀ p₁ p₂ : ℝ) (x y : Space 2) : Space 2 :=
  Space.of ((matrix p₀ p₁ p₂).mulVec x + y)

theorem gradient_eq_slope (p₀ p₁ p₂ : ℝ) (x y : Space 2) :
    vector (gradient (lagrangian (polynomial (p₀ / 2) p₁ (p₂ / 2)) X y) x) =
      held (slope p₀ p₁ p₂ x y) := by
  rw [gradient_lagrangian, sum_gradient_X, gradient_polynomial]
  rfl

theorem slope_eq_zero_iff {p₀ p₁ p₂ : ℝ} {x y : Space 2} : slope p₀ p₁ p₂ x y = 0 ↔
    p₀ * x 0 + p₁ * x 1 + y 0 = 0 ∧ p₁ * x 0 + p₂ * x 1 + y 1 = 0 := by
  rw [PiLp.ext_iff, Fin.forall_fin_two]
  simp [slope, matrix, Matrix.vecHead, Matrix.vecTail]

/-- The two conditions have one solution. -/
theorem settles_iff {x y : Space 2} :
    slope 3 1 3 x y = 0 ∧ y 0 = 0 ∧ 1 / 2 ≤ x 1 ∧ y 1 ≤ 0 ∧ (y 1 < 0 → 1 / 2 = x 1) ↔
      (x 0 = -1 / 6 ∧ x 1 = 1 / 2) ∧ y 0 = 0 ∧ y 1 = -4 / 3 := by
  rw [slope_eq_zero_iff]
  constructor
  · rintro ⟨⟨first, second⟩, free, least, -, pressed⟩
    -- From the bound on, the second equation takes a multiplier that is not zero.
    have bound := pressed (by linarith)
    refine ⟨⟨?_, ?_⟩, free, ?_⟩ <;> linarith
  · rintro ⟨⟨h₀, h₁⟩, free, h⟩
    refine ⟨⟨?_, ?_⟩, free, ?_, ?_, fun _ => ?_⟩ <;> linarith

/-! ## The cost -/

theorem cost_real (x : Space 2) :
    real.cost (held x) = .ok (.fin (eval x (polynomial (3 / 2) 1 (3 / 2)))) :=
  derives_standard.cost x

theorem eval_polynomial (x : Space 2) : eval x (polynomial (3 / 2) 1 (3 / 2)) =
    4 / 3 * x 1 ^ 2 + 3 / 2 * (x 0 + x 1 / 3) ^ 2 := by
  simp [polynomial]
  ring

/-- In the half-plane the cost is least at one point. -/
theorem least_cost {x : Space 2} (inside : 1 / 2 ≤ x 1) :
    1 / 3 ≤ eval x (polynomial (3 / 2) 1 (3 / 2)) ∧
      (eval x (polynomial (3 / 2) 1 (3 / 2)) = 1 / 3 ↔ x 0 = -1 / 6 ∧ x 1 = 1 / 2) := by
  have bound : (1 / 2) ^ 2 ≤ x 1 ^ 2 := pow_le_pow_left₀ one_half_pos.le inside 2
  have square : 0 ≤ (x 0 + x 1 / 3) ^ 2 := sq_nonneg _
  rw [eval_polynomial]
  refine ⟨by linarith, fun least => ?_, fun ⟨h₀, h₁⟩ => by rw [h₀, h₁]; norm_num⟩
  have foot : x 0 + x 1 / 3 = 0 := (pow_eq_zero_iff two_ne_zero).1 (by linarith)
  have edge : x 1 = 1 / 2 :=
    (pow_left_inj₀ (one_half_pos.le.trans inside) one_half_pos.le two_ne_zero).1 (by linarith)
  exact ⟨by linarith, edge⟩

/-! ## The problem's evaluations -/

theorem composes {R : Type} [Scalar R] (q : Quadratic R) : q.problem.Composes :=
  ⟨q.costWithGrad_eq, rfl, rfl, rfl, rfl, rfl⟩

section Evaluations

variable (x y : Space 2) {σ : Space 2} (positive : ∀ i, 0 < σ i) {weights : List (Exact ℝ)}
  (weigh : Weigh weights σ) {grad work buffer : List (Exact ℝ)}

theorem constr_held (length : buffer.length = 2) :
    real.constr (held x) buffer = .done (held x) () := by
  refine (derives_standard.constr x length).trans ?_
  simp only [MvPolynomial.eval_X]
  rfl

theorem meritGradFrom_held (hgrad : grad.length = 2) (hwork : work.length = 2) :
    ∃ left, real.meritGradFrom (held x) (held y) grad work =
      .done (held (slope 3 1 3 x y), left) () := by
  obtain ⟨left, written⟩ := derives_standard.lagrGrad x y hgrad hwork
  rw [gradient_eq_slope] at written
  exact ⟨left, written⟩

include positive weigh

theorem shifted_held : ∃ total, real.shifted (held x) (held y) weights =
    .done (held (shiftedAt x y σ)) (.fin total) :=
  ⟨_, Multipliers.shifted_held halfPlane_meets y positive weigh x⟩

theorem merit_held (hbuffer : buffer.length = 2) : ∃ ψ,
    real.merit (held x) (held y) weights buffer = .done (held (shiftedAt x y σ)) (.fin ψ) := by
  obtain ⟨total, kernel⟩ := shifted_held x y positive weigh
  have both : real.costWithConstr (held x) buffer =
      .done (held x) (.fin (eval x (polynomial (3 / 2) 1 (3 / 2)))) := by
    rw [(composes standard).costWithConstr, Composed.costWithConstr, constr_held x hbuffer,
      Written.andThen_done, cost_real]
    rfl
  rw [(composes standard).merit]
  exact ⟨_, Composed.merit_eq (cost_real x) (fun _ => both) kernel (absurd · two_ne_zero) hbuffer⟩

theorem meritGrad_held (hgrad : grad.length = 2) (hwork : work.length = 2)
    (hbuffer : buffer.length = 2) : ∃ left,
    real.meritGrad (held x) (held y) weights grad work buffer =
      .done (held (slope 3 1 3 x (shiftedAt x y σ)), left, held (shiftedAt x y σ)) () := by
  obtain ⟨total, kernel⟩ := shifted_held x y positive weigh
  obtain ⟨left, gradient⟩ := meritGradFrom_held x (shiftedAt x y σ) hgrad hwork
  have values : real.shiftedValues (held x) (held y) weights buffer =
      .done (held (shiftedAt x y σ)) (.fin total) := by
    rw [Problem.shiftedValues, constr_held x hbuffer, Written.andThen_done, kernel]
  refine ⟨left, ?_⟩
  rw [(composes standard).meritGrad_eq (show 0 < real.m from two_pos), values, Written.on_done,
    Written.andThen_done]
  exact congrArg (Written.on · _) gradient

end Evaluations

/-- The outer loop can come to rest nowhere but at the documented solution, whatever the weights,
and that is the only minimum under the constraint. -/
theorem standard_solution :
    let solution : Space 2 := Space.of ![-1 / 6, 1 / 2]
    (∀ (x y σ : Space 2) (weights grad work buffer : List (Exact ℝ)), (∀ i, 0 < σ i) →
      Weigh weights σ → grad.length = 2 → work.length = 2 → buffer.length = 2 →
      ∃ (slope ŷ : Space 2) (ψ : ℝ) (left : List (Exact ℝ)),
        real.merit (held x) (held y) weights buffer = .done (held ŷ) (.fin ψ) ∧
        real.meritGrad (held x) (held y) weights grad work buffer =
          .done (held slope, left, held ŷ) () ∧
        (slope = 0 ∧ ŷ = y ↔ x = solution ∧ y = Space.of ![0, -4 / 3])) ∧
      real.constraints.values.contains (held solution) = true ∧
      ∃ least, real.cost (held solution) = .ok (.fin least) ∧
        ∀ (x : Space 2) (buffer : List (Exact ℝ)), buffer.length = 2 →
          ∃ values f, real.constr (held x) buffer = .done values () ∧
            real.cost (held x) = .ok (.fin f) ∧
            (real.constraints.values.contains values = true →
              least ≤ f ∧ (f = least ↔ x = solution)) := by
  intro solution
  have coordinates {v : Space 2} {a b : ℝ} : v = Space.of ![a, b] ↔ v 0 = a ∧ v 1 = b :=
    PiLp.ext_iff.trans Fin.forall_fin_two
  refine ⟨?_, contains_iff.2 (le_refl (1 / 2 : ℝ)), 1 / 3, ?_, ?_⟩
  · intro x y σ weights grad work buffer positive weigh hgrad hwork hbuffer
    obtain ⟨ψ, merit⟩ := merit_held x y positive weigh hbuffer
    obtain ⟨left, gradient⟩ := meritGrad_held x y positive weigh hgrad hwork hbuffer
    have same : slope 3 1 3 x (shiftedAt x y σ) = 0 ∧ shiftedAt x y σ = y ↔
        slope 3 1 3 x y = 0 ∧ shiftedAt x y σ = y := and_congr_left fun kept => by rw [kept]
    refine ⟨_, _, ψ, left, merit, gradient, ?_⟩
    rw [same, kept_iff positive, settles_iff, coordinates, coordinates]
  · rw [cost_real, (least_cost (le_refl (1 / 2 : ℝ))).2.2 ⟨rfl, rfl⟩]
  · intro x buffer length
    refine ⟨_, _, constr_held x length, cost_real x, fun inside => ?_⟩
    rw [coordinates]
    exact least_cost (contains_iff.1 inside)

/-- At the solution, under one weight for both constraints, the gradient vanishes and the
multipliers stay. -/
theorem standard_solution_rests :
    let x : Space 2 := Space.of ![-1 / 6, 1 / 2]
    let y : Space 2 := Space.of ![0, -4 / 3]
    ∃ (ψ : ℝ) (left : List (Exact ℝ)),
      real.merit (held x) (held y) [.fin 4] [.nan, .nan] = .done (held y) (.fin ψ) ∧
      real.meritGrad (held x) (held y) [.fin 4] [.nan, .nan] [.nan, .nan] [.nan, .nan] =
        .done (held (0 : Space 2), left, held y) () := by
  intro x y
  have weigh : Weigh [.fin 4] (Space.of fun _ : Fin 2 => 4) := .inr ⟨4, rfl, fun _ => rfl⟩
  obtain ⟨slope, ŷ, ψ, left, merit, gradient, rests⟩ :=
    standard_solution.1 x y _ _ [.nan, .nan] [.nan, .nan] [.nan, .nan]
      (fun _ => four_pos) weigh rfl rfl rfl
  obtain ⟨flat, kept⟩ := rests.2 ⟨rfl, rfl⟩
  rw [kept] at merit
  rw [flat, kept] at gradient
  exact ⟨ψ, left, merit, gradient⟩

end Quadratic

end AugmentedLagrangian
