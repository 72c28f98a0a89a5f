/- # AugmentedLagrangian.Problem.Probe — problems that show how they are called

Three problems for looking at what surrounds a problem rather than at the problem.  `bare` supplies
nothing, `costOnly` nothing but the sum of its variables as its cost, and neither can be duplicated.
`tagged` performs every evaluation in its own way: it ignores its arguments, fills each buffer with a
number of that evaluation and returns another, so its answers show which evaluation has run.
-/
import AugmentedLagrangian.Problem.Basic

namespace AugmentedLagrangian.Probe

set_option autoImplicit false

variable {R : Type} [Scalar R]

/-- A problem that supplies nothing. -/
def bare (constraints : Constraints R) : Problem R :=
  .assemble constraints (.error .notDuplicable) {} {}

/-- A problem that supplies its cost alone. -/
def costOnly (constraints : Constraints R) : Problem R :=
  .assemble constraints (.error .notDuplicable) { cost? := some fun x => .ok (Scalar.sum x) } {}

/-- A problem whose every evaluation leaves its own mark.  With one variable it refuses to be
duplicated. -/
def tagged (constraints : Constraints R) : Problem R where
  constraints
  duplicable :=
    if constraints.n = 1 then .error (.rejected (.stated "tagged problem of size 1")) else .ok ()
  cost _ := .ok 1.0
  costGrad _ grad := .done (fill 2.0 grad) ()
  constr _ g := .done (fill 3.0 g) ()
  constrGradProd _ _ prod := .done (fill 4.0 prod) ()
  constrGrad _ i grad := .done (fill (5.0 + OfScientific.ofScientific i false 0) grad) ()
  lagrHessProd _ _ _ prod := .done (fill 6.0 prod) ()
  lagrHess _ _ hess := .done (hess.map (fill 7.0)) ()
  costWithGrad _ grad := .done (fill 8.0 grad) 8.5
  costWithConstr _ g := .done (fill 9.0 g) 9.5
  costWithGradConstr _ grad g := .done (fill 10.0 grad, fill 10.25 g) 10.5
  gradTerms _ _ grad prod := .done (fill 11.0 grad, fill 11.25 prod) ()
  lagrGrad _ _ grad work := .done (fill 12.0 grad, fill 12.25 work) ()
  merit _ _ _ shifted := .done (fill 13.0 shifted) 13.5
  meritGradFrom _ _ grad work := .done (fill 14.0 grad, fill 14.25 work) ()
  meritGrad _ _ _ grad work shifted :=
    .done (fill 15.0 grad, fill 15.25 work, fill 15.75 shifted) ()
  meritWithGrad _ _ _ grad work shifted :=
    .done (fill 16.0 grad, fill 16.25 work, fill 16.75 shifted) 16.5
  shifted g _ _ := .done (fill 17.0 g) 17.5

end AugmentedLagrangian.Probe
