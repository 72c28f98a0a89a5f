/- # AugmentedLagrangian.Reference.Rosenbrock — the Rosenbrock valley

    f(x; p) = (1 − x₀)² + p (x₁ − x₀²)²    on [-0.25, 0.9] × [-0.5, 0.8]

without constraints.  The curvature `p` is a parameter and starts at 100; the box leaves out the
unconstrained minimum at `(1, 1)`.
-/
import AugmentedLagrangian.Problem.Family
import AugmentedLagrangian.Problem.Planar

namespace AugmentedLagrangian.Rosenbrock

set_option autoImplicit false

variable {R : Type} [Scalar R]

/-- The cost at `(x₀, x₁)`. -/
def cost (p x₀ x₁ : R) : R :=
  let r := x₁ - x₀ * x₀
  (1.0 - x₀) * (1.0 - x₀) + p * r * r

/-- The two entries of the gradient. -/
def grad (p x₀ x₁ : R) : List R :=
  let r := x₁ - x₀ * x₀
  [-2.0 * (1.0 - x₀) - 4.0 * p * x₀ * r, 2.0 * p * r]

/-- The Hessian's upper triangle. -/
def hess (p x₀ x₁ : R) : R × R × R :=
  (2.0 - 4.0 * p * x₁ + 12.0 * p * x₀ * x₀, -4.0 * p * x₀, 2.0 * p)

/-- In this arithmetic the constant bounds are ordered. -/
class OrdersBounds (R : Type) [Scalar R] : Prop where
  first : (-0.25 : R) ≤ 0.9
  second : (-0.5 : R) ≤ 0.8

instance : OrdersBounds Float where
  first := by decide
  second := by decide

/-- The box, and no constraints. -/
def constraints [OrdersBounds R] : Constraints R :=
  ⟨⟨[.between (-0.25) 0.9 OrdersBounds.first, .between (-0.5) 0.8 OrdersBounds.second]⟩,
    .unbounded 0⟩

/-- The primitives at a curvature. -/
def prims (p : R) : Primitives R :=
  Planar.unconstrained (cost p) (grad p) (hess p)

/-- The family, at curvature 100. -/
def family [OrdersBounds R] : Family R :=
  ⟨constraints, [100.0], fun param => prims (param.headD Scalar.nan)⟩

end AugmentedLagrangian.Rosenbrock
