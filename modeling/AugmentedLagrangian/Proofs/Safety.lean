/- # AugmentedLagrangian.Proofs.Safety — no solve breaks a rule or divides by zero

Whatever values the constraints take, the vectors of every state that a solve reaches have an entry
for each constraint, and the weights are positive numbers (`Task.Sound`).  That is all an iteration
needs: the kernel has its lengths, the update of the weights has the entries that it reads and
writes, and no divisor vanishes (`Task.Steps`).

So the outer loop never fails of its own.  A solve that is accepted and has no solution has met a
failure of the cost, of the constraints or of the inner solver (`Task.Faulted`), and a breach among
them is a breach of theirs.
-/
import AugmentedLagrangian.Inner.Replay
import AugmentedLagrangian.Proofs.Division

namespace AugmentedLagrangian.Task

set_option autoImplicit false

open Scalar (Ordered Growing Vanishes isNaN larger sum)

variable {R S O : Type} [Scalar R] (t : Task R S O)

/-- The vectors of the state have an entry for each constraint, and its weights are positive
numbers. -/
structure Sound (s : LoopState R) : Prop where
  filled : t.Filled s
  number : ∀ weight ∈ s.weights, isNaN weight = false
  positive : ∀ weight ∈ s.weights, 0.0 < weight

/-- Nothing in an iteration from the snapshot lacks what it needs. -/
structure Steps (a : Snapshot R S O) : Prop where
  sound : t.Sound a.state
  /-- The kernel takes any values there is one of for each constraint, and fills in as many
  multipliers. -/
  kernel : ∀ {values : List R}, values.length = t.problem.m → ∃ shifted distance,
    t.problem.shifted values a.state.y a.state.weights = .done shifted distance ∧
      shifted.length = t.problem.m
  evaluated : ∀ v : t.Evaluated a, t.Sound v.state ∧ v.violation.length = t.problem.m
  /-- The next weights can be chosen. -/
  advances : ∀ (v : t.Evaluated a) (first : Bool),
    ∃ s, Loop.advance t.settings first v.state v.violation = .ok s ∧ t.Sound s
  /-- The weights divide the multipliers. -/
  weights : ∀ weight ∈ a.state.weights, ¬ Vanishes weight
  /-- Where weights are to grow, the norm of the violation divides the share of each. -/
  norm : ∀ v : t.Evaluated a, ¬ v.state.normE ≤ t.settings.delta → ¬ Vanishes v.state.normE

/-- What keeps a solve that is accepted from its solution: cost or constraints that fail where the
first weight is chosen, an inner solver that fails in a round, or constraints that fail at the point
of a round. -/
inductive Faulted (x : List R) (run : Run R S O) : SolveError → Prop
  | cost {e : EvalError} (unset : t.settings.initialPenalty = none)
      (failed : t.problem.cost x = .error e) : Faulted x run (.problem e)
  | start {kept : List R} {e : EvalError} (unset : t.settings.initialPenalty = none)
      (failed : t.problem.constr x (List.replicate t.problem.m 0.0) = .failed kept e) :
      Faulted x run (.problem e)
  | inner {r : Round R} {e : EvalError} (member : r ∈ run.rounds) (failed : r.answer = .error e) :
      Faulted x run (.problem e)
  | constr {r : Round R} {x' : List R} {report : InnerReport R} {values kept : List R}
      {e : EvalError} (member : r ∈ run.rounds) (answered : r.answer = .ok (x', report))
      (length : values.length = t.problem.m)
      (failed : t.problem.constr x' values = .failed kept e) : Faulted x run (.problem e)

/-- A solve breaks no rule of its own and divides by nothing that vanishes. -/
structure Safe (x y : List R) (solver : S) (watcher : O) (run : Run R S O) : Prop where
  steps : ∀ {weights : List R} {k : Nat} {a : Snapshot R S O},
    t.firstWeights x = .done weights () →
    t.Reaches (t.first x y weights solver watcher) k a → t.Steps a
  faulted : ∀ {e : SolveError}, run.outcome = .error e → t.Faulted x run e
  /-- A first weight that is chosen is divided by this, for constraint values `g`. -/
  choosing : ∀ g : List R, ¬ Vanishes (larger (0.5 * sum (g.map fun v => v * v)) 1.0)
  /-- Another division makes no difference, unless it differs where the divisor is not zero. -/
  division : ∀ {divide : R → R → R}, Dividing.Agrees divide → ∀ layers,
    ((t.dividing divide).run layers x y solver watcher : Run R S O) = run

variable {t}

/-! ## Every iteration -/

theorem Weighted.sound [Ordered R] {s : LoopState R} (weighted : t.Weighted s.weights)
    (filled : t.Filled s) : t.Sound s where
  filled := filled
  number weight member := Scalar.isNaN_right (Scalar.le_of_lt (weighted.positive weight member))
  positive := weighted.positive

theorem steps_of_weighted [Growing R]
    (kernel : t.problem.shifted = Multipliers.shifted t.problem.constraints.values)
    (tidy : t.problem.Tidy) (good : t.settings.Admissible) {a : Snapshot R S O}
    (filled : t.Filled a.state) (weighted : t.Weighted a.state.weights) : t.Steps a where
  sound := weighted.sound filled
  kernel length := by
    have done := Multipliers.shifted_each length filled.y filled.weights
    rw [kernel]
    exact ⟨_, _, done, (Multipliers.length_of_shifted done).trans length⟩
  evaluated v := by
    obtain ⟨after, length⟩ := v.updates.filled tidy (filled.moved v.x v.report)
    exact ⟨(v.weighted weighted).sound after, length⟩
  advances v first := by
    obtain ⟨s, advanced, after⟩ := v.advances tidy good filled first
    exact ⟨s, advanced, ((v.weighted weighted).advanced good advanced).sound after⟩
  weights weight member := Scalar.not_vanishes_of_pos (weighted.positive weight member)
  norm v beyond := Scalar.not_vanishes_of_not_le good.delta beyond

/-! ## What a solve can fail by -/

/-- Where the kernel does not fail, only the constraints can keep the multipliers from being
replaced. -/
theorem constr_of_update_failed {s : LoopState R} {e : EvalError}
    (kernel : ∀ {values}, t.problem.constr s.x s.values = .done values () →
      ∃ shifted distance, t.problem.shifted values s.y s.weights = .done shifted distance)
    (failed : t.update s = .error e) : ∃ kept, t.problem.constr s.x s.values = .failed kept e := by
  by_cases none : s.y = []
  · rw [update_of_empty none] at failed
    cases failed
  rcases constr : t.problem.constr s.x s.values with ⟨values, e' | ⟨⟩⟩
  · rw [update_of_failed none constr] at failed
    cases failed
    exact ⟨values, rfl⟩
  · obtain ⟨shifted, distance, done⟩ := kernel constr
    rw [update_of_evaluated none constr done] at failed
    cases failed

/-- First weights that cannot be chosen are a failure of the cost or of the constraints. -/
theorem faulted_of_unweighted {x weights : List R} {e : EvalError} (run : Run R S O)
    (failed : t.firstWeights x = .failed weights e) : t.Faulted x run (.problem e) := by
  have unset := firstWeights_failed failed
  rw [firstWeights_eq_choose, unset] at failed
  split at failed
  · cases failed
  simp only [Weights.choose_against] at failed
  rcases cost : t.problem.cost x with e' | f
  · rw [cost] at failed
    cases failed
    exact .cost unset cost
  rcases constr : t.problem.constr x (List.replicate t.problem.constraints.m 0.0) with ⟨g, e' | ⟨⟩⟩
  all_goals
    rw [cost, constr] at failed
    cases failed
  exact .start unset constr

theorem Ends.faulted {k : Nat} {a : Snapshot R S O} {run : Run R S O} (ends : t.Ends k a run)
    (tidy : t.problem.Tidy) (steps : t.Steps a) (x : List R) {e : SolveError}
    (failed : run.outcome = .error e) : t.Faulted x run e := by
  have last : ∀ {r : Round R} {past : List (Round R)}, r ∈ (r :: past).reverse := by simp
  cases ends with
  | refused answered =>
      cases failed
      exact .inner last rfl
  | notFinite => cases failed
  | @unevaluated solver x' report e answered finite unevaluated =>
      cases failed
      have filled := steps.sound.filled
      have kernel : ∀ {values}, t.problem.constr x' a.state.values = .done values () →
          ∃ shifted distance,
            t.problem.shifted values a.state.y a.state.weights = .done shifted distance := by
        intro values done
        obtain ⟨shifted, distance, computed, -⟩ := steps.kernel (tidy.constr filled.values done)
        exact ⟨shifted, distance, computed⟩
      obtain ⟨kept, constr⟩ := constr_of_update_failed kernel unevaluated
      exact .constr last rfl filled.values constr
  | converged => cases failed
  | stopped => cases failed
  | timedOut => cases failed
  | @unweighted v e converges stops timesOut stuck =>
      obtain ⟨s, advanced, -⟩ := steps.advances v (k == 0)
      rw [stuck] at advanced
      cases advanced

variable (t)

/-- A solve that is accepted is safe, whatever the constraints come to, if its kernel is the usual
one and evaluations leave the vectors as long as they are. -/
theorem run_safe [Growing R]
    (kernel : t.problem.shifted = Multipliers.shifted t.problem.constraints.values)
    (tidy : t.problem.Tidy) {layers : List Layer} {x y : List R} {solver : S} {watcher : O}
    (accepted : Loop.accept t.settings t.problem.constraints x y = .ok ()) :
    t.Safe x y solver watcher (t.run layers x y solver watcher) := by
  obtain ⟨good, -, length⟩ := Loop.accept_eq_ok.1 accepted
  have steps : ∀ {weights : List R} {k : Nat} {a : Snapshot R S O},
      t.firstWeights x = .done weights () →
      t.Reaches (t.first x y weights solver watcher) k a → t.Steps a := by
    intro weights k a chosen reached
    apply steps_of_weighted kernel tidy good
    · exact reached.filled tidy good (filled_first good length chosen solver watcher)
    · exact reached.weighted good (first_weighted good chosen)
  refine ⟨steps, ?_, ?_, ?_⟩
  · intro e failed
    have solves := t.run_solves layers x y solver watcher
    generalize t.run layers x y solver watcher = run at solves failed ⊢
    cases solves with
    | refused refused =>
        rw [accepted] at refused
        cases refused
    | unweighted _ unweighted =>
        cases failed
        exact faulted_of_unweighted _ unweighted
    | iterated _ chosen concludes =>
        cases concludes with
        | limited => cases failed
        | ended reached _ ends => exact ends.faulted tidy (steps chosen reached) x failed
  · intro g
    exact Scalar.not_vanishes_larger_one _
  · intro divide agrees layers'
    exact t.run_dividing agrees kernel tidy accepted

/-- One constraint whose value is no number, and a first weight that has to be chosen from it. -/
def unmeasured : Task Float (ReplayState Float) Unit where
  problem := .ofPrimitives ⟨.unbounded 1, ⟨[.between 0.0 0.0 Scalar.zero_le_zero]⟩⟩
    { cost? := some fun _ => .ok (1.0 / 0.0)
      constr? := some fun _ _ => .done [0.0 / 0.0] () }
  settings := { OuterSettings.default with maxIter := 3, singlePenaltyFactor := true }
  inner := Replay.solver []
  watch := .silent
  clock := quickClock

theorem unmeasured_tidy : unmeasured.problem.Tidy :=
  Problem.tidy_of_kernel rfl fun length done => by
    cases done
    rfl

/-- The norm is no number either, and the run goes to its limit.  It would be the same if a division
by zero came to seven. -/
theorem unmeasured_safe :
    let run := unmeasured.run [] [2.0] [0.0] {} ()
    let seven (a b : Float) : Float := if b ≤ 0.0 ∧ 0.0 ≤ b then 7.0 else a / b
    Loop.accept unmeasured.settings unmeasured.problem.constraints [2.0] [0.0] = .ok () ∧
      run.outcome.toOption.map (fun sol => (sol.status, isNaN sol.normE)) = some (.maxIter, true) ∧
      unmeasured.Safe [2.0] [0.0] {} () run ∧
      ((unmeasured.dividing seven).run [] [2.0] [0.0] {} () : Run Float (ReplayState Float) Unit) =
        run := by
  intro run seven
  have outcome : run.outcome.toOption.map (fun sol => (sol.status, isNaN sol.normE)) =
      some (.maxIter, true) := by
    decide +kernel
  have safe : unmeasured.Safe [2.0] [0.0] {} () run := unmeasured.run_safe rfl unmeasured_tidy rfl
  exact ⟨rfl, outcome, safe, safe.division (Dividing.agrees_of_value 7.0) []⟩

end AugmentedLagrangian.Task
