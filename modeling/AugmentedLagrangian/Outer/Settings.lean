/- # AugmentedLagrangian.Outer.Settings — the settings of the outer loop -/
import AugmentedLagrangian.Duration
import AugmentedLagrangian.Scalar

namespace AugmentedLagrangian

set_option autoImplicit false

/-- Settings of the outer augmented Lagrangian loop. -/
structure OuterSettings (R : Type) where
  /-- The tolerance `ε` on the inner solver's stationarity. -/
  epsilon : R
  /-- The tolerance `δ` on the constraint violation. -/
  delta : R
  /-- The factor by which penalty weights grow. -/
  penaltyUpdateFactor : R
  /-- The first penalty weight; if it is absent, it is chosen from the problem's scale. -/
  initialPenalty : Option R
  /-- The scale of a first penalty weight that is chosen. -/
  initialPenaltyFactor : R
  /-- The inner tolerance of the first iteration. -/
  initialTolerance : R
  /-- The factor by which the inner tolerance shrinks. -/
  toleranceUpdateFactor : R
  /-- A weight grows unless its violation shrank by this factor. -/
  relPenaltyIncreaseThreshold : R
  /-- The limit `M` on multipliers. -/
  maxMultiplier : R
  maxPenalty : R
  minPenalty : R
  /-- The number of outer iterations allowed. -/
  maxIter : Nat
  maxTime : Duration
  /-- Whether all constraints share one penalty weight. -/
  singlePenaltyFactor : Bool
  deriving BEq

/-- The settings where nothing else is said. -/
def OuterSettings.default {R : Type} [Scalar R] : OuterSettings R where
  epsilon := 1e-5
  delta := 1e-5
  penaltyUpdateFactor := 10.0
  initialPenalty := none
  initialPenaltyFactor := 20.0
  initialTolerance := 1.0
  toleranceUpdateFactor := 0.1
  relPenaltyIncreaseThreshold := 0.1
  maxMultiplier := 1e9
  maxPenalty := 1e9
  minPenalty := 1e-9
  maxIter := 100
  maxTime := .fiveMinutes
  singlePenaltyFactor := false

end AugmentedLagrangian
