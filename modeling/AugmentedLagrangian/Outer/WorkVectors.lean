/- # AugmentedLagrangian.Outer.WorkVectors — the method on vectors that are written over

A solve allots its vectors once and writes over them in every outer iteration.  The violation is
written entry by entry and then changes places with the one before.  The constraint values are
copied to where the kernel turns them into multipliers, the weights to where the update reads them.

`minimizeInPlace` is the method of `minimize` on these vectors.  What an iteration goes on from is
`WorkState.live`; all else is written before it is read.
-/
import AugmentedLagrangian.Outer.Loop

namespace AugmentedLagrangian

set_option autoImplicit false

open Scalar (infinity larger normInf)

/-- The vectors of a solve, and what else goes from one outer iteration to the next. -/
structure WorkState (R : Type) where
  x : List R
  y : List R
  weights : List R
  /-- What the weights were when they were last updated. -/
  oldWeights : List R
  /-- The constraint values. -/
  values : List R
  /-- The constraint values, and then the shifted multipliers in their place. -/
  shifted : List R
  violation : List R
  oldViolation : List R
  normE : R
  oldNormE : R
  tolerance : R
  innerIterations : UInt64

namespace WorkState

/-- What an iteration goes on from. -/
def live {R : Type} (s : WorkState R) : LoopState R where
  x := s.x
  y := s.y
  weights := s.weights
  tolerance := s.tolerance
  values := s.values
  violation := s.oldViolation
  normE := s.normE
  oldNormE := s.oldNormE
  innerIterations := s.innerIterations

variable {R : Type} [Scalar R]

/-! ## The multipliers -/

/-- Writes entry `i` of the violation into its vector.  A vector without that entry is a breach. -/
def measureAt? (box : Box R) (values y weights violation : List R) (i : Nat) :
    Option (List R) := do
  let value ← values[i]?
  let shift := (← y[i]?) / (← weights[i]?)
  let projected := (← box.intervals[i]?).project (value + shift)
  if i < violation.length then return violation.set i (value - projected) else none

/-- Writes the violation, one entry after the other. -/
def measure? (box : Box R) (values y weights violation : List R) : Option (List R) :=
  (List.range values.length).foldlM (measureAt? box values y weights) violation

/-- The state with the violation measured and the constraint values copied for the kernel. -/
def measured (c : Constraints R) (s : WorkState R) : Except EvalError (WorkState R) :=
  match measure? c.values s.values s.y s.weights s.violation with
  | none => .error .breach
  | some violation =>
    let copied := overwriteAll s.values s.shifted
    copied.outcome.map fun _ =>
      { s with violation, normE := normInf violation, shifted := copied.kept }

/-- The state with the shifted multipliers copied to the multipliers and clipped there. -/
def replaced (settings : OuterSettings R) (c : Constraints R) (s : WorkState R) :
    Except EvalError (WorkState R) :=
  let copied := overwriteAll s.shifted s.y
  copied.outcome.map fun _ =>
    { s with
      y := Multipliers.clip settings.maxMultiplier c.values.lowers c.values.uppers copied.kept }

/-- Measures the violation and replaces the multipliers.  Without constraints nothing is written. -/
def updateMultipliers (settings : OuterSettings R) (c : Constraints R) (s : WorkState R) :
    Consult R (Except EvalError (WorkState R)) :=
  if s.y.isEmpty then return .ok { s with normE := 0.0 }
  else do
    let evaluated ← Consult.call (.constr s.x s.values)
    match evaluated.outcome with
    | .error e => return .error e
    | .ok _ =>
      match measured c { s with values := evaluated.kept } with
      | .error e => return .error e
      | .ok s =>
        let kernel ← Consult.call (.shifted s.shifted s.y s.weights)
        match kernel.outcome with
        | .error e => return .error e
        | .ok _ => return replaced settings c { s with shifted := kernel.kept }

/-! ## The iterations -/

/-- Updates the weights from a copy of them, and moves the violation into the history.  Its vector
changes places with the one there. -/
def updateWeights (settings : OuterSettings R) (first : Bool) (s : WorkState R) :
    Except EvalError (WorkState R) :=
  let copied := overwriteAll s.weights s.oldWeights
  match copied.outcome with
  | .error e => .error e
  | .ok _ =>
    let updated := Weights.update settings settings.penaltyUpdateFactor first s.violation
      s.oldViolation s.normE s.oldNormE copied.kept s.weights
    updated.outcome.map fun _ =>
      { s with
        weights := updated.kept
        oldWeights := copied.kept
        violation := s.oldViolation
        oldViolation := s.violation
        oldNormE := s.normE }

/-- The state of the next iteration, after one that does not end the solve. -/
def advance (settings : OuterSettings R) (first : Bool) (s : WorkState R) :
    Except EvalError (WorkState R) :=
  (s.updateWeights settings first).map fun s =>
    { s with
      tolerance := larger (settings.toleranceUpdateFactor * s.tolerance) settings.epsilon }

variable {S O : Type}

/-- The iterations from number `k` on, of which `remaining` are allowed, after the rounds `past`,
last first. -/
def iterate (settings : OuterSettings R) (c : Constraints R) (inner : InnerSolver R S)
    (watch : Observer O (Event R) Action) (clock : Nat → Nat) :
    (remaining k : Nat) → WorkState R → List (Round R) → S → O → Consult R (Run R S O)
  | 0, k, s, past, solver, watcher =>
    return Loop.finish (.ok (s.live.solution .maxIter k)) past solver watcher
  | remaining + 1, k, s, past, solver, watcher => do
    let asked := s.live.subproblem
    let (solver, answer) ← inner.solve c solver asked
    match answer with
    | .error e =>
      return Loop.finish (.error (.problem e)) (⟨asked, answer, none⟩ :: past) solver watcher
    | .ok (x, report) =>
      let s := { s with x, innerIterations := s.innerIterations + report.iterations }
      if report.status = .notFinite then
        return Loop.finish (.ok (s.live.solution .failed (k + 1))) (⟨asked, answer, none⟩ :: past)
          solver watcher
      else
        match ← s.updateMultipliers settings c with
        | .error e =>
          return Loop.finish (.error (.problem e)) (⟨asked, answer, none⟩ :: past) solver watcher
        | .ok s =>
          let event := s.live.event k report
          let past := ⟨asked, answer, some event⟩ :: past
          let (watcher, action) := watch.observe watcher event
          if s.normE ≤ settings.delta ∧ report.stationarity ≤ settings.epsilon then
            return Loop.finish (.ok (s.live.solution .converged (k + 1))) past solver watcher
          else if action = some .stopEarly then
            return Loop.finish (.ok (s.live.solution .stoppedByObserver (k + 1))) past solver
              watcher
          else if settings.maxTime.nanoseconds ≤ clock k then
            return Loop.finish (.ok (s.live.solution .maxTime (k + 1))) past solver watcher
          else
            match s.advance settings (k == 0) with
            | .error e => return Loop.finish (.error (.problem e)) past solver watcher
            | .ok s => iterate settings c inner watch clock remaining (k + 1) s past solver watcher

/-- The vectors as they are allotted. -/
def start (settings : OuterSettings R) (c : Constraints R) (x y weights : List R) :
    WorkState R where
  x
  y
  weights
  oldWeights := weights
  values := List.replicate c.m 0.0
  shifted := List.replicate c.m 0.0
  violation := List.replicate c.m 0.0
  oldViolation := List.replicate c.m 0.0
  normE := infinity
  oldNormE := infinity
  tolerance := settings.initialTolerance
  innerIterations := 0

end WorkState

/-- Minimizes the problem under the constraints `c` from the point `x` with multipliers `y`, on
vectors that are written over. -/
def minimizeInPlace {R S O : Type} [Scalar R] (settings : OuterSettings R) (c : Constraints R)
    (inner : InnerSolver R S) (watch : Observer O (Event R) Action) (clock : Nat → Nat)
    (x y : List R) (solver : S) (watcher : O) : Consult R (Run R S O) :=
  match Loop.accept settings c x y with
  | .error e => return Loop.finish (.error e) [] solver watcher
  | .ok _ => do
    let weights ← Loop.firstWeights settings c x
    match weights.outcome with
    | .error e => return Loop.finish (.error (.problem e)) [] solver watcher
    | .ok _ =>
      WorkState.iterate settings c inner watch clock settings.maxIter 0
        (WorkState.start settings c x y weights.kept) [] solver watcher

end AugmentedLagrangian
