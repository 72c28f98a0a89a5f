/- # AugmentedLagrangian.Inner.ProjectedGradient — fixed steps along the projected gradient

The step is one over the Lipschitz constant of the cost's gradient plus the largest weight, which is
safe for linear constraints with unit gradients.  The stationarity is the largest move of a
coordinate over the step.
-/
import AugmentedLagrangian.Inner.Solver

namespace AugmentedLagrangian.ProjectedGradient

set_option autoImplicit false

open Scalar (larger magnitude infinity nan)

variable {R : Type} [Scalar R]

/-- The largest move of a coordinate, over the step. -/
def stationarity (step : R) (x trial : List R) : R :=
  (x.zip trial).foldl (fun acc (a, b) => larger acc (magnitude (a - b) / step)) 0.0

/-- At most `fuel` steps from `x`, after `taken`. -/
def iterate (c : Constraints R) (q : Subproblem R) (step : R) :
    (fuel taken : Nat) → (x grad work shifted : List R) →
      Consult R (Except EvalError (List R × InnerReport R))
  | 0, taken, x, _, _, _ => return .ok (x, ⟨.maxIter, infinity, .ofNat taken⟩)
  | fuel + 1, taken, x, grad, work, shifted => do
    let reply ← Consult.call (.meritWithGrad x q.y q.weights grad work shifted)
    match reply.outcome with
    | .error e => return .error e
    | .ok (ψ : R) =>
      if Scalar.isFinite ψ then
        let (grad, work, shifted) : List R × List R × List R := reply.kept
        let trial := c.domain.project (List.zipWith (fun a g => a - step * g) x grad)
        let measure := stationarity step x trial
        if measure ≤ q.tolerance then return .ok (trial, ⟨.converged, measure, .ofNat (taken + 1)⟩)
        else iterate c q step fuel (taken + 1) trial grad work shifted
      else return .ok (x, ⟨.notFinite, nan, .ofNat taken⟩)

/-- The solver for this Lipschitz constant, with a limit on steps.  It keeps no state. -/
def solver (lipschitz : R) (maxIter : Nat) : InnerSolver R Unit where
  solve c _ q := do
    let step := 1.0 / (lipschitz + q.weights.foldl larger 0.0)
    let zeros (k : Nat) : List R := List.replicate k 0.0
    return ((), ← iterate c q step maxIter 0 q.x (zeros c.n) (zeros c.n) (zeros c.m))

end AugmentedLagrangian.ProjectedGradient
