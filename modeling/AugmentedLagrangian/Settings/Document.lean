/- # AugmentedLagrangian.Settings.Document — settings as documents

The settings are a document with a table for the outer loop, one for the inner solver with one for
its first step size inside, and one for its direction with one for the corrections inside.  What a
document leaves out keeps its default, and the settings that result must be admissible as a whole.
-/
import AugmentedLagrangian.Settings.Check
import AugmentedLagrangian.Toml.Record

namespace AugmentedLagrangian

set_option autoImplicit false

open Toml (Key Kind)

namespace StopCriterion

def all : List StopCriterion :=
  [.approxKkt, .projGradNorm, .projGradUnitNorm, .fprNorm, .ipopt]

/-- The word for the criterion in documents. -/
def word : StopCriterion → String
  | approxKkt => "approx_kkt"
  | projGradNorm => "proj_grad_norm"
  | projGradUnitNorm => "proj_grad_unit_norm"
  | fprNorm => "fpr_norm"
  | ipopt => "ipopt"

end StopCriterion

variable {E : Type}

def OuterSettings.keys : List (Key E (OuterSettings Float)) :=
  [Kind.real.key "epsilon" (·.epsilon) fun v s => { s with epsilon := v },
    Kind.real.key "delta" (·.delta) fun v s => { s with delta := v },
    Kind.real.key "penalty_update_factor" (·.penaltyUpdateFactor) fun v s =>
      { s with penaltyUpdateFactor := v },
    Kind.real.optional.key "initial_penalty" (·.initialPenalty) fun v s =>
      { s with initialPenalty := v },
    Kind.real.key "initial_penalty_factor" (·.initialPenaltyFactor) fun v s =>
      { s with initialPenaltyFactor := v },
    Kind.real.key "initial_tolerance" (·.initialTolerance) fun v s =>
      { s with initialTolerance := v },
    Kind.real.key "tolerance_update_factor" (·.toleranceUpdateFactor) fun v s =>
      { s with toleranceUpdateFactor := v },
    Kind.real.key "rel_penalty_increase_threshold" (·.relPenaltyIncreaseThreshold) fun v s =>
      { s with relPenaltyIncreaseThreshold := v },
    Kind.real.key "max_multiplier" (·.maxMultiplier) fun v s => { s with maxMultiplier := v },
    Kind.real.key "max_penalty" (·.maxPenalty) fun v s => { s with maxPenalty := v },
    Kind.real.key "min_penalty" (·.minPenalty) fun v s => { s with minPenalty := v },
    Kind.count.key "max_iter" (·.maxIter) fun v s => { s with maxIter := v },
    Kind.seconds.key "max_time" (·.maxTime) fun v s => { s with maxTime := v },
    Kind.truth.key "single_penalty_factor" (·.singlePenaltyFactor) fun v s =>
      { s with singlePenaltyFactor := v }]

def LipschitzSettings.keys : List (Key E (LipschitzSettings Float)) :=
  [Kind.real.key "l0" (·.l0) fun v s => { s with l0 := v },
    Kind.real.key "epsilon" (·.epsilon) fun v s => { s with epsilon := v },
    Kind.real.key "delta" (·.delta) fun v s => { s with delta := v },
    Kind.real.key "l_gamma_factor" (·.lGammaFactor) fun v s => { s with lGammaFactor := v }]

def PanocSettings.keys : List (Key E (PanocSettings Float)) :=
  [Kind.count.key "max_iter" (·.maxIter) fun v s => { s with maxIter := v },
    Kind.seconds.key "max_time" (·.maxTime) fun v s => { s with maxTime := v },
    Kind.real.key "tau_min" (·.tauMin) fun v s => { s with tauMin := v },
    Kind.real.key "l_min" (·.lMin) fun v s => { s with lMin := v },
    Kind.real.key "l_max" (·.lMax) fun v s => { s with lMax := v },
    Kind.count.key "nonmonotone_linesearch" (·.nonmonotoneLinesearch) fun v s =>
      { s with nonmonotoneLinesearch := v },
    Kind.real.key "fpr_shortcut_accept_factor" (·.fprShortcutAcceptFactor) fun v s =>
      { s with fprShortcutAcceptFactor := v },
    Kind.count.key "fpr_shortcut_history" (·.fprShortcutHistory) fun v s =>
      { s with fprShortcutHistory := v },
    (Kind.choice StopCriterion.all StopCriterion.word).key "stop_crit" (·.stopCrit) fun v s =>
      { s with stopCrit := v },
    Kind.truth.key "update_lipschitz_in_linesearch" (·.updateLipschitzInLinesearch) fun v s =>
      { s with updateLipschitzInLinesearch := v },
    Kind.truth.key "alternative_linesearch_cond" (·.alternativeLinesearchCond) fun v s =>
      { s with alternativeLinesearchCond := v },
    Kind.truth.key "hessian_vec" (·.hessianVec) fun v s => { s with hessianVec := v },
    Kind.truth.key "hessian_vec_finite_differences" (·.hessianVecFiniteDifferences) fun v s =>
      { s with hessianVecFiniteDifferences := v },
    Kind.truth.key "full_augmented_hessian" (·.fullAugmentedHessian) fun v s =>
      { s with fullAugmentedHessian := v },
    Kind.real.key "quadratic_upperbound_tolerance_factor" (·.quadraticUpperboundToleranceFactor)
      fun v s => { s with quadraticUpperboundToleranceFactor := v },
    Kind.count.key "print_interval" (·.printInterval) fun v s => { s with printInterval := v },
    (Kind.group LipschitzSettings.keys .default).key "lipschitz" (·.lipschitz) fun v s =>
      { s with lipschitz := v }]

def CbfgsSettings.keys : List (Key E (CbfgsSettings Float)) :=
  [Kind.real.key "alpha" (·.alpha) fun v s => { s with alpha := v },
    Kind.real.key "epsilon" (·.epsilon) fun v s => { s with epsilon := v }]

def LbfgsSettings.keys : List (Key E (LbfgsSettings Float)) :=
  [Kind.count.key "memory" (·.memory) fun v s => { s with memory := v },
    (Kind.group CbfgsSettings.keys .default).key "cbfgs" (·.cbfgs) fun v s => { s with cbfgs := v }]

namespace SolverSettings

def keys : List (Key E (SolverSettings Float)) :=
  [(Kind.group OuterSettings.keys .default).key "alm" (·.outer) fun v s => { s with outer := v },
    (Kind.group PanocSettings.keys .default).key "panoc" (·.panoc) fun v s => { s with panoc := v },
    (Kind.group LbfgsSettings.keys .default).key "lbfgs" (·.lbfgs) fun v s => { s with lbfgs := v }]

/-- Settings as documents. -/
def kind : Kind E (SolverSettings Float) :=
  .group keys .default

/-- The settings of a document, if they are admissible. -/
def ofText (text : String) : Except (ReadError Violation) (SolverSettings Float) := do
  let settings ← kind.read text
  match Requirement.check settings.requirements with
  | .ok _ => return settings
  | .error v => throw (.refused v)

/-- The settings of a file with these bytes, or of one that is missing. -/
def ofFile (content : Option ByteArray) : Except (ReadError Violation) (SolverSettings Float) :=
  match content.bind String.fromUTF8? with
  | some text => ofText text
  | none => .error .unreadable

/-- The document of the settings, if it can be written. -/
def toText? (settings : SolverSettings Float) : Option String :=
  (kind : Kind Violation _).write? settings

end SolverSettings

end AugmentedLagrangian
