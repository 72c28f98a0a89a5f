/- # AugmentedLagrangian.Constraints — where the variables and the constraint values may lie

The problem is to minimize `f(x)` subject to `x ∈ C` and `g(x) ∈ D` for two boxes `C` and `D`.  The
boxes fix the dimensions: `n` variables and `m` constraints.
-/
import AugmentedLagrangian.Box.Basic

namespace AugmentedLagrangian

set_option autoImplicit false

/-- The box of the variables and the box of the constraint values. -/
structure Constraints (R : Type) [Scalar R] where
  domain : Box R
  values : Box R

namespace Constraints

variable {R : Type} [Scalar R]

/-- The number of variables. -/
def n (c : Constraints R) : Nat :=
  c.domain.size

/-- The number of constraints. -/
def m (c : Constraints R) : Nat :=
  c.values.size

end Constraints

end AugmentedLagrangian
