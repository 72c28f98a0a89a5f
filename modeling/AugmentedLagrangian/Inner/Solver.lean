/- # AugmentedLagrangian.Inner.Solver — what the outer loop asks of an inner solver

The inner solver improves the point `x` on the subproblem "minimize `ψ(x; y, Σ)` over `x ∈ C`" until
its stationarity is at most the tolerance or a limit is hit, and reports.  It keeps a state from one
subproblem to the next, and sees the problem through the calls it makes.

How long a solver takes is no part of its answers.  `quickClock` is the least that a solve takes,
whatever the solver.
-/
import AugmentedLagrangian.Consult

namespace AugmentedLagrangian

set_option autoImplicit false

/-- How an inner solve ended. -/
inductive InnerStatus where
  | converged
  | maxIter
  | maxTime
  /-- An evaluation gave a value that is not finite. -/
  | notFinite
  deriving DecidableEq, Repr

/-- What an inner solver reports. -/
structure InnerReport (R : Type) where
  status : InnerStatus
  /-- The stationarity of the point that is returned. -/
  stationarity : R
  /-- The number of iterations, as a word. -/
  iterations : UInt64

/-- The subproblem, and the point to start from. -/
structure Subproblem (R : Type) where
  weights : List R
  tolerance : R
  x : List R
  y : List R

/-- A solver with a state of type `S`: it returns a point and a report, or fails. -/
structure InnerSolver (R S : Type) [Scalar R] where
  solve : Constraints R → S → Subproblem R →
    Consult R (S × Except EvalError (List R × InnerReport R))

/-- The nanoseconds that an outer iteration takes at the least. -/
def leastNanoseconds : Nat :=
  1000

/-- The nanoseconds until the end of outer iteration `k`, if none takes longer than it must. -/
def quickClock (k : Nat) : Nat :=
  leastNanoseconds * (k + 1)

end AugmentedLagrangian
