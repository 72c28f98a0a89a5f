/- # AugmentedLagrangian.Reference.Himmelblau — Himmelblau's function

    f(x) = (x₀² + x₁ − 11)² + (x₀ + x₁² − 7)²    on [-1, 4] × [-1, 1.8]

without constraints.  The function has four global minima, of which `(3, 2)` is near the box.
-/
import AugmentedLagrangian.Problem.Planar

namespace AugmentedLagrangian.Himmelblau

set_option autoImplicit false

variable {R : Type} [Scalar R]

def sq (x : R) : R :=
  x * x

/-- The cost at `(x₀, x₁)`. -/
def cost (x₀ x₁ : R) : R :=
  sq (sq x₀ + x₁ - 11.0) + sq (x₀ + sq x₁ - 7.0)

/-- The two entries of the gradient. -/
def grad (x₀ x₁ : R) : List R :=
  [2.0 * (2.0 * x₀ * (sq x₀ + x₁ - 11.0) + x₀ + sq x₁ - 7.0),
    2.0 * (sq x₀ + 2.0 * x₁ * (x₀ + sq x₁ - 7.0) + x₁ - 11.0)]

/-- The Hessian's upper triangle: the entry at `0, 0`, the one beside it, the one at `1, 1`. -/
def hess (x₀ x₁ : R) : R × R × R :=
  (4.0 * (sq x₀ + x₁ - 11.0) + 8.0 * sq x₀ + 2.0,
    4.0 * x₀ + 4.0 * x₁,
    4.0 * (x₀ + sq x₁ - 7.0) + 8.0 * sq x₁ + 2.0)

/-- In this arithmetic the constant bounds are ordered. -/
class OrdersBounds (R : Type) [Scalar R] : Prop where
  first : (-1.0 : R) ≤ 4.0
  second : (-1.0 : R) ≤ 1.8

instance : OrdersBounds Float where
  first := by decide
  second := by decide

/-- The box, and no constraints. -/
def constraints [OrdersBounds R] : Constraints R :=
  ⟨⟨[.between (-1.0) 4.0 OrdersBounds.first, .between (-1.0) 1.8 OrdersBounds.second]⟩,
    .unbounded 0⟩

def prims : Primitives R :=
  Planar.unconstrained cost grad hess

end AugmentedLagrangian.Himmelblau
