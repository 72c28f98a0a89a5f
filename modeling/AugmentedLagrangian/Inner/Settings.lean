/- # AugmentedLagrangian.Inner.Settings — the settings of the inner solver

The inner solver that these settings are for takes proximal gradient steps with a quasi-Newton
direction from limited memory: `PanocSettings` for the iteration, `LipschitzSettings` for its first
step size, `LbfgsSettings` for the direction and `CbfgsSettings` for which corrections it accepts.
-/
import AugmentedLagrangian.Duration
import AugmentedLagrangian.Scalar

namespace AugmentedLagrangian

set_option autoImplicit false

/-- The measure of stationarity that ends the inner solver. -/
inductive StopCriterion where
  | approxKkt
  | projGradNorm
  | projGradUnitNorm
  | fprNorm
  | ipopt
  deriving DecidableEq, Repr

/-- The first estimate of the Lipschitz constant of the merit function's gradient. -/
structure LipschitzSettings (R : Type) where
  /-- The estimate; zero means finite differences. -/
  l0 : R
  /-- The relative step of the finite differences. -/
  epsilon : R
  /-- The least step of the finite differences. -/
  delta : R
  /-- The step size times the Lipschitz constant. -/
  lGammaFactor : R
  deriving BEq

/-- Settings of the iteration. -/
structure PanocSettings (R : Type) where
  maxIter : Nat
  maxTime : Duration
  /-- The least line search parameter before a plain step is taken. -/
  tauMin : R
  lMin : R
  lMax : R
  /-- How many past merit values the line search compares with. -/
  nonmonotoneLinesearch : Nat
  /-- The fraction of the recent residual below which a step is taken without line search. -/
  fprShortcutAcceptFactor : R
  /-- How many residuals are recent. -/
  fprShortcutHistory : Nat
  stopCrit : StopCriterion
  updateLipschitzInLinesearch : Bool
  alternativeLinesearchCond : Bool
  hessianVec : Bool
  hessianVecFiniteDifferences : Bool
  fullAugmentedHessian : Bool
  /-- The tolerance on the quadratic upper bound, in units of rounding. -/
  quadraticUpperboundToleranceFactor : R
  /-- How many iterations pass between reports; zero for none. -/
  printInterval : Nat
  lipschitz : LipschitzSettings R
  deriving BEq

/-- Which corrections are accepted: those of curvature at least `epsilon` times the `alpha`-th power
of the residual. -/
structure CbfgsSettings (R : Type) where
  alpha : R
  epsilon : R
  deriving BEq

/-- Settings of the direction. -/
structure LbfgsSettings (R : Type) where
  /-- How many corrections are kept. -/
  memory : Nat
  cbfgs : CbfgsSettings R
  deriving BEq

variable {R : Type} [Scalar R]

def LipschitzSettings.default : LipschitzSettings R where
  l0 := 0.0
  epsilon := 1e-6
  delta := 1e-12
  lGammaFactor := 0.95

def PanocSettings.default : PanocSettings R where
  maxIter := 100
  maxTime := .fiveMinutes
  tauMin := 1.0 / 256.0
  lMin := 1e-5
  lMax := 1e20
  nonmonotoneLinesearch := 0
  fprShortcutAcceptFactor := 0.999
  fprShortcutHistory := 1
  stopCrit := .approxKkt
  updateLipschitzInLinesearch := true
  alternativeLinesearchCond := false
  hessianVec := true
  hessianVecFiniteDifferences := true
  fullAugmentedHessian := true
  quadraticUpperboundToleranceFactor := 10.0
  printInterval := 0
  lipschitz := .default

def CbfgsSettings.default : CbfgsSettings R where
  alpha := 1.0
  epsilon := 0.0

def LbfgsSettings.default : LbfgsSettings R where
  memory := 10
  cbfgs := .default

end AugmentedLagrangian
