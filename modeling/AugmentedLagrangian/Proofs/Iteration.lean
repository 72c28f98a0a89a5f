/- # AugmentedLagrangian.Proofs.Iteration — what an outer iteration can do

A solve is a run of a transition system.  A `Snapshot` is what an iteration starts from.  An
iteration either goes on to another snapshot (`Continues`) or ends the solve (`Ends`), and these two
relations say everything that it can do, with the conditions under which it does it.
`Task.run_solves` says that a solve is nothing else: it is refused, or has no first weights, or goes
through the snapshots that it reaches to an end.

What holds of every solve is proved along `Reaches`, and then for each of the ends.
-/
import AugmentedLagrangian.Outer.Loop
import AugmentedLagrangian.Problem.Layers

namespace AugmentedLagrangian

set_option autoImplicit false

/-- What a solve is given, apart from where it starts. -/
structure Task (R S O : Type) [Scalar R] where
  problem : Problem R
  settings : OuterSettings R
  inner : InnerSolver R S
  watch : Observer O (Event R) Action
  clock : Nat → Nat

/-- What an outer iteration starts from; the rounds before it stand last first. -/
structure Snapshot (R S O : Type) where
  state : LoopState R
  past : List (Round R)
  solver : S
  watcher : O

/-- The state after the inner solver has returned a point. -/
def LoopState.moved {R : Type} (s : LoopState R) (x : List R) (report : InnerReport R) :
    LoopState R :=
  { s with x, innerIterations := s.innerIterations + report.iterations }

/-- Going on to the next iteration changes the weights and the tolerance, and moves the violation
into the history. -/
theorem Loop.advance_eq_ok {R : Type} [Scalar R] {settings : OuterSettings R} {first : Bool}
    {s s' : LoopState R} {violation : List R}
    (advanced : Loop.advance settings first s violation = .ok s') :
    ∃ weights,
      Weights.update settings settings.penaltyUpdateFactor first violation s.violation s.normE
        s.oldNormE s.weights s.weights = .done weights () ∧
      s' = { s with
        weights
        violation
        oldNormE := s.normE
        tolerance :=
          Scalar.larger (settings.toleranceUpdateFactor * s.tolerance) settings.epsilon } := by
  rw [Loop.advance] at advanced
  rcases updated : Weights.update settings settings.penaltyUpdateFactor first violation
    s.violation s.normE s.oldNormE s.weights s.weights with ⟨weights, e | ⟨⟩⟩
  all_goals
    rw [updated] at advanced
    cases advanced
  exact ⟨weights, rfl, rfl⟩

namespace Task

variable {R S O : Type} [Scalar R] (t : Task R S O)

/-- The run of a solve from the point `x` with multipliers `y`, under layers around the problem. -/
def run (layers : List Layer) (x y : List R) (solver : S) (watcher : O) : Run R S O :=
  ((minimize t.settings t.problem.constraints t.inner t.watch t.clock x y solver watcher).through
    t.problem layers).1

/-- The rest of a run, of which `remaining` iterations are allowed. -/
def iterate (remaining k : Nat) (a : Snapshot R S O) : Run R S O :=
  (Loop.iterate t.settings t.problem.constraints t.inner t.watch t.clock remaining k a.state a.past
    a.solver a.watcher).against t.problem

/-- What the inner solver returns for the snapshot's subproblem. -/
def answer (a : Snapshot R S O) : S × Except EvalError (List R × InnerReport R) :=
  (t.inner.solve t.problem.constraints a.solver a.state.subproblem).against t.problem

/-- The state with its multipliers replaced, and the violation. -/
def update (s : LoopState R) : Except EvalError (LoopState R × List R) :=
  (Loop.updateMultipliers t.settings t.problem.constraints s).against t.problem

/-- What replacing the multipliers does to the state, with the violation.  Without constraints it
only says that there is no violation. -/
inductive Updates (s : LoopState R) : LoopState R → List R → Prop
  | unconstrained (none : s.y = []) : Updates s { s with normE := 0.0 } []
  | evaluated {values shifted violation : List R} {distance : R} (some : s.y ≠ [])
      (constr : t.problem.constr s.x s.values = .done values ())
      (kernel : t.problem.shifted values s.y s.weights = .done shifted distance)
      (residual : violation = Multipliers.residual t.problem.constraints.values.intervals values s.y
        s.weights) :
      Updates s
        { s with
          y := Multipliers.clip t.settings.maxMultiplier t.problem.constraints.values.lowers
            t.problem.constraints.values.uppers shifted
          values
          normE := Scalar.normInf violation }
        violation

/-- Apart from the multipliers, the constraint values and the norm, the state stays. -/
theorem Updates.frame {t : Task R S O} {s s' : LoopState R} {violation : List R}
    (updates : t.Updates s s' violation) :
    s' = { s with y := s'.y, values := s'.values, normE := s'.normE } := by
  cases updates <;> rfl

theorem updates_of_update {s s' : LoopState R} {violation : List R}
    (updated : t.update s = .ok (s', violation)) : t.Updates s s' violation := by
  rw [update, Loop.updateMultipliers] at updated
  cases none : s.y.isEmpty with
  | true =>
      rw [if_pos none] at updated
      cases updated
      exact .unconstrained (List.isEmpty_iff.1 none)
  | false =>
      have some : s.y ≠ [] := by simpa using none
      rw [if_neg (by simp [none])] at updated
      simp only [Consult.bind_eq, Consult.against_bind, Consult.against_call, Problem.answer]
        at updated
      rcases constr : t.problem.constr s.x s.values with ⟨values, e | ⟨⟩⟩
      all_goals
        simp only [constr, Consult.against_bind, Consult.against_call, Problem.answer] at updated
      · cases updated
      rcases kernel : t.problem.shifted values s.y s.weights with ⟨shifted, e | distance⟩
      all_goals simp only [kernel] at updated
      · cases updated
      · cases updated
        exact .evaluated some constr kernel rfl

theorem update_of_empty {t : Task R S O} {s : LoopState R} (none : s.y = []) :
    t.update s = .ok ({ s with normE := 0.0 }, []) := by
  rw [update, Loop.updateMultipliers, if_pos (List.isEmpty_iff.2 none)]
  rfl

/-- Where the constraints cannot be evaluated, neither can the multipliers be replaced. -/
theorem update_of_failed {t : Task R S O} {s : LoopState R} {kept : List R} {e : EvalError}
    (some : s.y ≠ []) (failed : t.problem.constr s.x s.values = .failed kept e) :
    t.update s = .error e := by
  rw [update, Loop.updateMultipliers, if_neg (by simpa using some)]
  simp only [Consult.bind_eq, Consult.against_bind, Consult.against_call, Problem.answer, failed]
  rfl

theorem update_of_evaluated {t : Task R S O} {s : LoopState R} {values shifted : List R}
    {distance : R} (some : s.y ≠ []) (constr : t.problem.constr s.x s.values = .done values ())
    (kernel : t.problem.shifted values s.y s.weights = .done shifted distance) :
    let violation := Multipliers.residual t.problem.constraints.values.intervals values s.y s.weights
    t.update s = .ok ({ s with
      y := Multipliers.clip t.settings.maxMultiplier t.problem.constraints.values.lowers
        t.problem.constraints.values.uppers shifted
      values
      normE := Scalar.normInf violation }, violation) := by
  rw [update, Loop.updateMultipliers, if_neg (by simpa using some)]
  simp only [Consult.bind_eq, Consult.against_bind, Consult.against_call, Problem.answer, constr,
    Written.done]
  rw [kernel]
  rfl

/-- The multipliers can be replaced if the constraints, where there are any, can be evaluated. -/
theorem exists_update {s : LoopState R}
    (evaluates : s.y ≠ [] → ∃ values shifted distance,
      t.problem.constr s.x s.values = .done values () ∧
      t.problem.shifted values s.y s.weights = .done shifted distance) :
    ∃ s' violation, t.update s = .ok (s', violation) := by
  by_cases none : s.y = []
  · exact ⟨_, _, update_of_empty none⟩
  · obtain ⟨values, shifted, distance, constr, kernel⟩ := evaluates none
    exact ⟨_, _, update_of_evaluated none constr kernel⟩

/-- An iteration as far as its event. -/
structure Evaluated (a : Snapshot R S O) where
  solver : S
  x : List R
  report : InnerReport R
  state : LoopState R
  violation : List R
  answered : t.answer a = (solver, .ok (x, report))
  finite : report.status ≠ .notFinite
  updated : t.update (a.state.moved x report) = .ok (state, violation)

namespace Evaluated

variable {t} {a : Snapshot R S O} (v : t.Evaluated a) (k : Nat)

def event : Event R :=
  v.state.event k v.report

/-- The rounds with this one, last first. -/
def rounds : List (Round R) :=
  ⟨a.state.subproblem, .ok (v.x, v.report), some (v.event k)⟩ :: a.past

/-- The observer's state afterwards, and what it asks for. -/
def observed : O × Option Action :=
  t.watch.observe a.watcher (v.event k)

def Converges : Prop :=
  v.state.normE ≤ t.settings.delta ∧ v.report.stationarity ≤ t.settings.epsilon

def Stops : Prop :=
  (v.observed k).2 = some .stopEarly

/-- The run that ends here with this outcome. -/
def conclude (outcome : Except SolveError (Solution R)) : Run R S O :=
  Loop.finish outcome (v.rounds k) v.solver (v.observed k).1

end Evaluated

/-- Whether the time is up at the end of the iteration. -/
def TimesOut (k : Nat) : Prop :=
  t.settings.maxTime.nanoseconds ≤ t.clock k

instance (k : Nat) : Decidable (t.TimesOut k) :=
  inferInstanceAs (Decidable (_ ≤ _))

/-- How iteration `k` from a snapshot ends a solve, in the order of the checks. -/
inductive Ends (k : Nat) (a : Snapshot R S O) : Run R S O → Prop
  /-- The inner solver fails. -/
  | refused {solver : S} {e : EvalError} (answered : t.answer a = (solver, .error e)) :
      Ends k a (Loop.finish (.error (.problem e)) (⟨a.state.subproblem, .error e, none⟩ :: a.past)
        solver a.watcher)
  | notFinite {solver : S} {x : List R} {report : InnerReport R}
      (answered : t.answer a = (solver, .ok (x, report))) (status : report.status = .notFinite) :
      Ends k a (Loop.finish (.ok ((a.state.moved x report).solution .failed (k + 1)))
        (⟨a.state.subproblem, .ok (x, report), none⟩ :: a.past) solver a.watcher)
  /-- The constraints cannot be evaluated at the point. -/
  | unevaluated {solver : S} {x : List R} {report : InnerReport R} {e : EvalError}
      (answered : t.answer a = (solver, .ok (x, report))) (finite : report.status ≠ .notFinite)
      (failed : t.update (a.state.moved x report) = .error e) :
      Ends k a (Loop.finish (.error (.problem e))
        (⟨a.state.subproblem, .ok (x, report), none⟩ :: a.past) solver a.watcher)
  | converged (v : t.Evaluated a) (converges : v.Converges) :
      Ends k a (v.conclude k (.ok (v.state.solution .converged (k + 1))))
  | stopped (v : t.Evaluated a) (converges : ¬ v.Converges) (stops : v.Stops k) :
      Ends k a (v.conclude k (.ok (v.state.solution .stoppedByObserver (k + 1))))
  | timedOut (v : t.Evaluated a) (converges : ¬ v.Converges) (stops : ¬ v.Stops k)
      (timesOut : t.TimesOut k) :
      Ends k a (v.conclude k (.ok (v.state.solution .maxTime (k + 1))))
  /-- The next weights cannot be chosen. -/
  | unweighted (v : t.Evaluated a) {e : EvalError} (converges : ¬ v.Converges)
      (stops : ¬ v.Stops k) (timesOut : ¬ t.TimesOut k)
      (failed : Loop.advance t.settings (k == 0) v.state v.violation = .error e) :
      Ends k a (v.conclude k (.error (.problem e)))

/-- How iteration `k` from a snapshot goes on to the next. -/
inductive Continues (k : Nat) (a : Snapshot R S O) : Snapshot R S O → Prop
  | next (v : t.Evaluated a) {state : LoopState R} (converges : ¬ v.Converges)
      (stops : ¬ v.Stops k) (timesOut : ¬ t.TimesOut k)
      (advanced : Loop.advance t.settings (k == 0) v.state v.violation = .ok state) :
      Continues k a ⟨state, v.rounds k, v.solver, (v.observed k).1⟩

namespace Evaluated

variable {t} {a : Snapshot R S O} (v : t.Evaluated a)

theorem updates : t.Updates (a.state.moved v.x v.report) v.state v.violation :=
  t.updates_of_update v.updated

theorem state_x : v.state.x = v.x := by
  rw [v.updates.frame]
  rfl

theorem state_weights : v.state.weights = a.state.weights := by
  rw [v.updates.frame]
  rfl

theorem state_tolerance : v.state.tolerance = a.state.tolerance := by
  rw [v.updates.frame]
  rfl

theorem state_violation : v.state.violation = a.state.violation := by
  rw [v.updates.frame]
  rfl

theorem state_innerIterations :
    v.state.innerIterations = a.state.innerIterations + v.report.iterations := by
  rw [v.updates.frame]
  rfl

theorem state_oldNormE : v.state.oldNormE = a.state.oldNormE := by
  rw [v.updates.frame]
  rfl

end Evaluated

/-- An iteration ends the solve or goes on. -/
theorem iterate_succ (remaining k : Nat) (a : Snapshot R S O) :
    t.Ends k a (t.iterate (remaining + 1) k a) ∨
      ∃ b, t.Continues k a b ∧ t.iterate (remaining + 1) k a = t.iterate remaining (k + 1) b := by
  rcases answered : t.answer a with ⟨solver, e | ⟨x, report⟩⟩
  all_goals
    have answered' := answered
    unfold answer at answered'
    simp only [iterate, Loop.iterate, Consult.bind_eq, Consult.against_bind, answered']
  · exact Or.inl (.refused answered)
  by_cases status : report.status = .notFinite
  · rw [if_pos status]
    exact Or.inl (.notFinite answered status)
  rw [if_neg status]
  rcases updated : t.update (a.state.moved x report) with e | ⟨state, violation⟩
  all_goals
    have updated' := updated
    unfold update LoopState.moved at updated'
    simp only [Consult.against_bind, updated']
  · exact Or.inl (.unevaluated answered status updated)
  let v : t.Evaluated a := ⟨solver, x, report, state, violation, answered, status, updated⟩
  by_cases converges : state.normE ≤ t.settings.delta ∧ report.stationarity ≤ t.settings.epsilon
  · rw [if_pos converges]
    exact Or.inl (.converged v converges)
  rw [if_neg converges]
  by_cases stops : (t.watch.observe a.watcher (state.event k report)).2 = some .stopEarly
  · rw [if_pos stops]
    exact Or.inl (.stopped v converges stops)
  rw [if_neg stops]
  by_cases timesOut : t.settings.maxTime.nanoseconds ≤ t.clock k
  · rw [if_pos timesOut]
    exact Or.inl (.timedOut v converges stops timesOut)
  rw [if_neg timesOut]
  rcases advanced : Loop.advance t.settings (k == 0) state violation with e | next
  · exact Or.inl (.unweighted v converges stops timesOut advanced)
  · exact Or.inr ⟨_, .next v converges stops timesOut advanced, rfl⟩

/-- An end with the status of convergence is an iteration that converges. -/
theorem Ends.converged_inv {t : Task R S O} {k : Nat} {a : Snapshot R S O} {run : Run R S O}
    (ends : t.Ends k a run) {sol : Solution R} (solved : run.outcome = .ok sol)
    (converged : sol.status = .converged) :
    ∃ v : t.Evaluated a, v.Converges ∧ run.rounds = (v.rounds k).reverse ∧
      sol = v.state.solution .converged (k + 1) := by
  cases ends with
  | refused => cases solved
  | notFinite => cases solved; cases converged
  | unevaluated => cases solved
  | converged v converges => cases solved; exact ⟨v, converges, rfl, rfl⟩
  | stopped => cases solved; cases converged
  | timedOut => cases solved; cases converged
  | unweighted => cases solved

/-- The snapshots that a solve comes through, with the number of iterations until then. -/
inductive Reaches (first : Snapshot R S O) : Nat → Snapshot R S O → Prop
  | start : Reaches first 0 first
  | step {k : Nat} {a b : Snapshot R S O} (reached : Reaches first k a)
      (continues : t.Continues k a b) : Reaches first (k + 1) b

/-- How a solve comes to its end from its first snapshot. -/
inductive Concludes (first : Snapshot R S O) : Run R S O → Prop
  | limited {a : Snapshot R S O} (reached : t.Reaches first t.settings.maxIter a) :
      Concludes first
        (Loop.finish (.ok (a.state.solution .maxIter t.settings.maxIter)) a.past a.solver a.watcher)
  | ended {k : Nat} {a : Snapshot R S O} {run : Run R S O} (reached : t.Reaches first k a)
      (within : k < t.settings.maxIter) (ends : t.Ends k a run) : Concludes first run

theorem concludes_iterate {first a : Snapshot R S O} {remaining k : Nat}
    (reached : t.Reaches first k a) (limit : k + remaining = t.settings.maxIter) :
    t.Concludes first (t.iterate remaining k a) := by
  induction remaining generalizing k a with
  | zero =>
      subst limit
      exact .limited reached
  | succ remaining ih =>
      rcases t.iterate_succ remaining k a with ends | ⟨b, continues, same⟩
      · exact .ended reached (by omega) ends
      · rw [same]
        exact ih (.step reached continues) (by omega)

/-- The snapshot that the first iteration starts from. -/
def first (x y weights : List R) (solver : S) (watcher : O) : Snapshot R S O :=
  ⟨Loop.start t.settings t.problem.constraints x y weights, [], solver, watcher⟩

/-- The first weights, if they can be chosen. -/
def firstWeights (x : List R) : Written (List R) Unit :=
  (Loop.firstWeights t.settings t.problem.constraints x).against t.problem

/-- How a solve goes. -/
inductive Solves (x y : List R) (solver : S) (watcher : O) : Run R S O → Prop
  | refused {e : SolveError}
      (refused : Loop.accept t.settings t.problem.constraints x y = .error e) :
      Solves x y solver watcher (Loop.finish (.error e) [] solver watcher)
  | unweighted {weights : List R} {e : EvalError}
      (accepted : Loop.accept t.settings t.problem.constraints x y = .ok ())
      (failed : t.firstWeights x = .failed weights e) :
      Solves x y solver watcher (Loop.finish (.error (.problem e)) [] solver watcher)
  | iterated {weights : List R} {run : Run R S O}
      (accepted : Loop.accept t.settings t.problem.constraints x y = .ok ())
      (chosen : t.firstWeights x = .done weights ())
      (concludes : t.Concludes (t.first x y weights solver watcher) run) :
      Solves x y solver watcher run

theorem run_solves (layers : List Layer) (x y : List R) (solver : S) (watcher : O) :
    t.Solves x y solver watcher (t.run layers x y solver watcher) := by
  rw [run, Consult.fst_through, minimize]
  rcases accepted : Loop.accept t.settings t.problem.constraints x y with e | ⟨⟩
  · exact .refused accepted
  rcases chosen : t.firstWeights x with ⟨weights, e | ⟨⟩⟩
  all_goals
    have chosen' := chosen
    unfold firstWeights at chosen'
    simp only [Consult.bind_eq, Consult.against_bind, chosen']
  · exact .unweighted accepted chosen
  · exact .iterated accepted chosen (t.concludes_iterate .start (Nat.zero_add _))

end Task

end AugmentedLagrangian
