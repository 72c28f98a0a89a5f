/- # AugmentedLagrangian.Problem.Family — problems that depend on parameters

A `Family` has primitives for every value of a parameter vector, whose length is fixed.  At its
current parameters it is a problem.  The parameters of a new family are no numbers, so an evaluation
before they are set shows.
-/
import AugmentedLagrangian.Problem.Basic

namespace AugmentedLagrangian

set_option autoImplicit false

/-- Primitives that depend on parameters, with the current ones. -/
structure Family (R : Type) [Scalar R] where
  constraints : Constraints R
  param : List R
  prims : List R → Primitives R

namespace Family

variable {R : Type} [Scalar R]

/-- A family whose `p` parameters have not been set. -/
def unset (constraints : Constraints R) (p : Nat) (prims : List R → Primitives R) : Family R :=
  ⟨constraints, List.replicate p Scalar.nan, prims⟩

/-- The problem at the current parameters. -/
def problem (f : Family R) : Problem R :=
  .ofPrimitives f.constraints (f.prims f.param)

/-- The family at other parameters, of which there must be as many. -/
def setParam (f : Family R) (param : List R) : Except EvalError (Family R) :=
  if param.length = f.param.length then .ok { f with param }
  else .error (.rejected (.parameterCount param.length f.param.length))

/-- The family with one parameter replaced; if there is no such one, that is a breach. -/
def setEntry (f : Family R) (i : Nat) (value : R) : Except EvalError (Family R) :=
  if i < f.param.length then .ok { f with param := f.param.set i value } else .error .breach

end Family

end AugmentedLagrangian
