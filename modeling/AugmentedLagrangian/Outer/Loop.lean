/- # AugmentedLagrangian.Outer.Loop — the augmented Lagrangian method

Each outer iteration hands the subproblem to the inner solver, replaces the multipliers by the
clipped shifted ones, and emits an event.  Then, in this order: the solve has converged if the
constraint violation is within `δ` and the inner stationarity within `ε`; it ends if the observer
asks for that, or if the time is up; otherwise the weights grow and the inner tolerance shrinks.  An
inner solve that met a value that is not finite ends the solve at once, before the multipliers
change and without an event.

`minimize` is a computation that consults the problem; beside its outcome it returns the rounds it
went through and the states of the inner solver and the observer.  Time enters as a clock that says
how long the solve has taken at the end of each iteration.
-/
import AugmentedLagrangian.Inner.Solver
import AugmentedLagrangian.Observer
import AugmentedLagrangian.Outer.Weights
import AugmentedLagrangian.Settings.Check

namespace AugmentedLagrangian

set_option autoImplicit false

open Scalar (larger infinity)

/-- Why a solve ended. -/
inductive Status where
  | converged
  | maxIter
  | maxTime
  /-- The inner solver met a value that is not finite. -/
  | failed
  | stoppedByObserver
  deriving DecidableEq, Repr

/-- What an observer may ask for. -/
inductive Action where
  | stopEarly
  deriving DecidableEq, Repr

/-- The event of an outer iteration, after the multipliers have changed and before the weights
do. -/
structure Event (R : Type) where
  iteration : Nat
  x : List R
  y : List R
  weights : List R
  /-- The largest constraint violation. -/
  normE : R
  /-- The inner tolerance of this iteration. -/
  tolerance : R
  inner : InnerReport R

/-- The outcome of a solve. -/
structure Solution (R : Type) where
  status : Status
  x : List R
  y : List R
  weights : List R
  normE : R
  tolerance : R
  outerIterations : Nat
  /-- What the inner solver's reports add up to, as a word. -/
  innerIterations : UInt64

/-- Why a solve has no outcome. -/
inductive SolveError where
  | settings (v : Violation)
  | problem (e : EvalError)
  deriving DecidableEq, Repr

/-- An outer iteration: what the inner solver was asked, and what it answered. -/
structure Round (R : Type) where
  asked : Subproblem R
  answer : Except EvalError (List R × InnerReport R)
  /-- The event, unless the solve ended before it. -/
  event : Option (Event R)

/-- A solve: its outcome, its rounds in order, and the states of those that took part. -/
structure Run (R S O : Type) where
  outcome : Except SolveError (Solution R)
  rounds : List (Round R)
  inner : S
  watcher : O

/-- What goes from one outer iteration to the next. -/
structure LoopState (R : Type) where
  x : List R
  y : List R
  weights : List R
  tolerance : R
  /-- The constraint values as last evaluated; an evaluation may leave entries as they were. -/
  values : List R
  /-- The violation of the last iteration, and its norm. -/
  violation : List R
  normE : R
  /-- The norm that the last weights were chosen by. -/
  oldNormE : R
  innerIterations : UInt64

namespace LoopState

variable {R : Type}

/-- The solution at this state. -/
def solution (s : LoopState R) (status : Status) (outerIterations : Nat) : Solution R :=
  ⟨status, s.x, s.y, s.weights, s.normE, s.tolerance, outerIterations, s.innerIterations⟩

def subproblem (s : LoopState R) : Subproblem R :=
  ⟨s.weights, s.tolerance, s.x, s.y⟩

def event (s : LoopState R) (iteration : Nat) (report : InnerReport R) : Event R :=
  ⟨iteration, s.x, s.y, s.weights, s.normE, s.tolerance, report⟩

end LoopState

namespace Loop

variable {R : Type} [Scalar R]

/-- The state after the multipliers have been replaced, with the violation beside it.  Without
constraints there is no violation and nothing is evaluated. -/
def updateMultipliers (settings : OuterSettings R) (c : Constraints R) (s : LoopState R) :
    Consult R (Except EvalError (LoopState R × List R)) :=
  if s.y.isEmpty then return .ok ({ s with normE := 0.0 }, [])
  else do
    let evaluated ← Consult.call (.constr s.x s.values)
    match evaluated.outcome with
    | .error e => return .error e
    | .ok _ =>
      let values : List R := evaluated.kept
      let violation := Multipliers.residual c.values.intervals values s.y s.weights
      let shifted ← Consult.call (.shifted values s.y s.weights)
      match shifted.outcome with
      | .error e => return .error e
      | .ok _ =>
        let y :=
          Multipliers.clip settings.maxMultiplier c.values.lowers c.values.uppers shifted.kept
        return .ok ({ s with y, values, normE := Scalar.normInf violation }, violation)

/-- The state of the next iteration, after one that does not end the solve. -/
def advance (settings : OuterSettings R) (first : Bool) (s : LoopState R) (violation : List R) :
    Except EvalError (LoopState R) :=
  let updated := Weights.update settings settings.penaltyUpdateFactor first violation s.violation
    s.normE s.oldNormE s.weights s.weights
  updated.outcome.map fun _ =>
    { s with
      weights := updated.kept
      violation
      oldNormE := s.normE
      tolerance := larger (settings.toleranceUpdateFactor * s.tolerance) settings.epsilon }

variable {S O : Type}

/-- The end of a solve with these rounds, last first. -/
def finish (outcome : Except SolveError (Solution R)) (past : List (Round R)) (solver : S)
    (watcher : O) : Run R S O :=
  ⟨outcome, past.reverse, solver, watcher⟩

/-- The iterations from number `k` on, of which `remaining` are allowed, after the rounds `past`,
last first. -/
def iterate (settings : OuterSettings R) (c : Constraints R) (inner : InnerSolver R S)
    (watch : Observer O (Event R) Action) (clock : Nat → Nat) :
    (remaining k : Nat) → LoopState R → List (Round R) → S → O → Consult R (Run R S O)
  | 0, k, s, past, solver, watcher =>
    return finish (.ok (s.solution .maxIter k)) past solver watcher
  | remaining + 1, k, s, past, solver, watcher => do
    let asked := s.subproblem
    let (solver, answer) ← inner.solve c solver asked
    match answer with
    | .error e =>
      return finish (.error (.problem e)) (⟨asked, answer, none⟩ :: past) solver watcher
    | .ok (x, report) =>
      let s := { s with x, innerIterations := s.innerIterations + report.iterations }
      if report.status = .notFinite then
        return finish (.ok (s.solution .failed (k + 1))) (⟨asked, answer, none⟩ :: past) solver
          watcher
      else
        match ← updateMultipliers settings c s with
        | .error e =>
          return finish (.error (.problem e)) (⟨asked, answer, none⟩ :: past) solver watcher
        | .ok (s, violation) =>
          let event := s.event k report
          let past := ⟨asked, answer, some event⟩ :: past
          let (watcher, action) := watch.observe watcher event
          if s.normE ≤ settings.delta ∧ report.stationarity ≤ settings.epsilon then
            return finish (.ok (s.solution .converged (k + 1))) past solver watcher
          else if action = some .stopEarly then
            return finish (.ok (s.solution .stoppedByObserver (k + 1))) past solver watcher
          else if settings.maxTime.nanoseconds ≤ clock k then
            return finish (.ok (s.solution .maxTime (k + 1))) past solver watcher
          else
            match advance settings (k == 0) s violation with
            | .error e => return finish (.error (.problem e)) past solver watcher
            | .ok s => iterate settings c inner watch clock remaining (k + 1) s past solver watcher

/-- The first weights: as given, or chosen by the problem's scale. -/
def firstWeights (settings : OuterSettings R) (c : Constraints R) (x : List R) :
    Consult R (Written (List R) Unit) :=
  let zeros := List.replicate c.m 0.0
  if c.m = 0 then return .done zeros ()
  else
    match settings.initialPenalty with
    | some σ => return .done (fill σ zeros) ()
    | none => Weights.choose settings c.m x zeros

/-- The state of the first iteration. -/
def start (settings : OuterSettings R) (c : Constraints R) (x y weights : List R) : LoopState R where
  x
  y
  weights
  tolerance := settings.initialTolerance
  values := List.replicate c.m 0.0
  violation := List.replicate c.m 0.0
  normE := infinity
  oldNormE := infinity
  innerIterations := 0

/-- What is wrong with the settings and the starting vectors. -/
def accept (settings : OuterSettings R) (c : Constraints R) (x y : List R) :
    Except SolveError Unit :=
  match Requirement.check settings.requirements with
  | .error v => .error (.settings v)
  | .ok _ =>
    if x.length ≠ c.n then
      .error (.problem (.rejected (.startLength .point x.length c.n)))
    else if y.length ≠ c.m then
      .error (.problem (.rejected (.startLength .multipliers y.length c.m)))
    else .ok ()

end Loop

/-- Minimizes the problem under the constraints `c` from the point `x` with multipliers `y`. -/
def minimize {R S O : Type} [Scalar R] (settings : OuterSettings R) (c : Constraints R)
    (inner : InnerSolver R S) (watch : Observer O (Event R) Action) (clock : Nat → Nat)
    (x y : List R) (solver : S) (watcher : O) : Consult R (Run R S O) :=
  match Loop.accept settings c x y with
  | .error e => return Loop.finish (.error e) [] solver watcher
  | .ok _ => do
    let weights ← Loop.firstWeights settings c x
    match weights.outcome with
    | .error e => return Loop.finish (.error (.problem e)) [] solver watcher
    | .ok _ =>
      Loop.iterate settings c inner watch clock settings.maxIter 0
        (Loop.start settings c x y weights.kept) [] solver watcher

end AugmentedLagrangian
