/- # AugmentedLagrangian.Settings.Check — which settings are admissible

Each group of settings has a list of `Requirement`s, one condition on one field after the other, and
is admissible if all of them hold.  Otherwise the first that does not hold is named.  A comparison
with a value that is no number is false, so no condition holds of such a value.
-/
import AugmentedLagrangian.Inner.Settings
import AugmentedLagrangian.Outer.Settings

namespace AugmentedLagrangian

set_option autoImplicit false

/-- Settings of the outer loop and of the inner solver. -/
structure SolverSettings (R : Type) where
  outer : OuterSettings R
  panoc : PanocSettings R
  lbfgs : LbfgsSettings R
  deriving BEq

def SolverSettings.default {R : Type} [Scalar R] : SolverSettings R where
  outer := .default
  panoc := .default
  lbfgs := .default

/-- The groups of settings that have fields to check. -/
inductive Group where
  | outer
  | panoc
  | lipschitz
  | lbfgs
  deriving DecidableEq, Repr

/-- A field by its group and its key there. -/
structure SettingsField where
  group : Group
  key : String
  deriving DecidableEq, Repr

/-- What is asked of a field. -/
inductive Range where
  | positive
  | nonNegative
  | nonZero
  | aboveOne
  /-- Above zero and at most one. -/
  | upToOne
  /-- Strictly between zero and one. -/
  | insideUnit
  /-- At least zero and below one. -/
  | belowOne
  /-- At least another field of the same group. -/
  | atLeast (key : String)
  deriving DecidableEq, Repr

/-- A field that is not as asked. -/
structure Violation where
  field : SettingsField
  range : Range
  deriving DecidableEq, Repr

/-- A condition on a field. -/
structure Requirement where
  field : SettingsField
  range : Range
  holds : Bool

/-- The first requirement that does not hold. -/
def Requirement.check : List Requirement → Except Violation Unit
  | [] => .ok ()
  | r :: rs => if r.holds then check rs else .error ⟨r.field, r.range⟩

section Requirements

variable {R : Type} [Scalar R]

/-- The requirements on the outer loop's settings, in the order of checking. -/
def OuterSettings.requirements (s : OuterSettings R) : List Requirement :=
  let field (key : String) : SettingsField := ⟨.outer, key⟩
  [⟨field "epsilon", .positive, decide (0.0 < s.epsilon)⟩,
    ⟨field "delta", .positive, decide (0.0 < s.delta)⟩,
    ⟨field "penalty_update_factor", .aboveOne, decide (1.0 < s.penaltyUpdateFactor)⟩,
    ⟨field "initial_penalty", .positive, s.initialPenalty.all fun σ => decide (0.0 < σ)⟩,
    ⟨field "initial_penalty_factor", .positive, decide (0.0 < s.initialPenaltyFactor)⟩,
    ⟨field "initial_tolerance", .positive, decide (0.0 < s.initialTolerance)⟩,
    ⟨field "tolerance_update_factor", .upToOne,
      decide (0.0 < s.toleranceUpdateFactor) && decide (s.toleranceUpdateFactor ≤ 1.0)⟩,
    ⟨field "rel_penalty_increase_threshold", .insideUnit,
      decide (0.0 < s.relPenaltyIncreaseThreshold) &&
        decide (s.relPenaltyIncreaseThreshold < 1.0)⟩,
    ⟨field "max_multiplier", .positive, decide (0.0 < s.maxMultiplier)⟩,
    ⟨field "min_penalty", .positive, decide (0.0 < s.minPenalty)⟩,
    ⟨field "max_penalty", .atLeast "min_penalty", decide (s.minPenalty ≤ s.maxPenalty)⟩,
    ⟨field "max_iter", .nonZero, s.maxIter != 0⟩,
    ⟨field "max_time", .nonZero, s.maxTime.nanoseconds != 0⟩]

def LipschitzSettings.requirements (s : LipschitzSettings R) : List Requirement :=
  let field (key : String) : SettingsField := ⟨.lipschitz, key⟩
  [⟨field "l0", .nonNegative, decide (0.0 ≤ s.l0)⟩,
    ⟨field "epsilon", .positive, decide (0.0 < s.epsilon)⟩,
    ⟨field "delta", .positive, decide (0.0 < s.delta)⟩,
    ⟨field "l_gamma_factor", .insideUnit,
      decide (0.0 < s.lGammaFactor) && decide (s.lGammaFactor < 1.0)⟩]

/-- The requirements on the step size come first. -/
def PanocSettings.requirements (s : PanocSettings R) : List Requirement :=
  let field (key : String) : SettingsField := ⟨.panoc, key⟩
  s.lipschitz.requirements ++
  [⟨field "max_iter", .nonZero, s.maxIter != 0⟩,
    ⟨field "max_time", .nonZero, s.maxTime.nanoseconds != 0⟩,
    ⟨field "tau_min", .insideUnit, decide (0.0 < s.tauMin) && decide (s.tauMin < 1.0)⟩,
    ⟨field "l_min", .nonNegative, decide (0.0 ≤ s.lMin)⟩,
    ⟨field "l_max", .nonNegative, decide (0.0 ≤ s.lMax)⟩,
    ⟨field "l_max", .atLeast "l_min", decide (s.lMin ≤ s.lMax)⟩,
    ⟨field "fpr_shortcut_accept_factor", .belowOne,
      decide (0.0 ≤ s.fprShortcutAcceptFactor) && decide (s.fprShortcutAcceptFactor < 1.0)⟩,
    ⟨field "fpr_shortcut_history", .nonZero, s.fprShortcutHistory != 0⟩,
    ⟨field "quadratic_upperbound_tolerance_factor", .nonNegative,
      decide (0.0 ≤ s.quadraticUpperboundToleranceFactor)⟩]

def LbfgsSettings.requirements (s : LbfgsSettings R) : List Requirement :=
  [⟨⟨.lbfgs, "memory"⟩, .nonZero, s.memory != 0⟩,
    ⟨⟨.lbfgs, "cbfgs.epsilon"⟩, .nonNegative, decide (0.0 ≤ s.cbfgs.epsilon)⟩]

/-- The outer loop's settings, then the inner solver's. -/
def SolverSettings.requirements (s : SolverSettings R) : List Requirement :=
  s.outer.requirements ++ s.panoc.requirements ++ s.lbfgs.requirements

end Requirements

end AugmentedLagrangian
