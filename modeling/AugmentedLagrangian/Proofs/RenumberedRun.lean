/- # AugmentedLagrangian.Proofs.RenumberedRun — solves with constraints in another order

Two problems that differ in the order of their constraints are solved alike.  Their states differ in
the order of the multipliers, weights, constraint values and violations and in nothing else, if the
inner solver answers alike; this is kept by every step of an iteration, and so along the run
(`Task.run_renumbered`).

With a single penalty factor the update reads the first weight only, which is another one after the
constraints have been permuted.  There the relation is kept because all weights are one value
(`Task.Weighted`).
-/
import AugmentedLagrangian.Inner.Replay
import AugmentedLagrangian.Proofs.Renumbering

namespace AugmentedLagrangian

set_option autoImplicit false

open Scalar (normInf)

/-! ## Records in another order -/

section Records

variable {R : Type} {m : Nat} (π : Equiv.Perm (Fin m))

def Subproblem.renumbered (q : Subproblem R) : Subproblem R :=
  { q with weights := renumber π q.weights, y := renumber π q.y }

def Event.renumbered (e : Event R) : Event R :=
  { e with y := renumber π e.y, weights := renumber π e.weights }

def Round.renumbered (r : Round R) : Round R :=
  ⟨r.asked.renumbered π, r.answer, r.event.map (·.renumbered π)⟩

def Solution.renumbered (sol : Solution R) : Solution R :=
  { sol with y := renumber π sol.y, weights := renumber π sol.weights }

def LoopState.renumbered (s : LoopState R) : LoopState R :=
  { s with
    y := renumber π s.y
    weights := renumber π s.weights
    values := renumber π s.values
    violation := renumber π s.violation }

end Records

/-! ## Problems that differ in the order of their constraints -/

section Relations

variable {R : Type} [Scalar R] {S S' O O' : Type} {m : Nat}

/-- The second problem has the constraints of the first in another order.  Both have the kernel of
the library. -/
structure Problem.Renumbers (π : Equiv.Perm (Fin m)) (p p' : Problem R) : Prop where
  size : p.m = m
  domain : p'.constraints.domain = p.constraints.domain
  values : p'.constraints.values = p.constraints.values.renumbered π
  cost : ∀ x, p'.cost x = p.cost x
  constr : ∀ x buffer, buffer.length = m →
    p'.constr x (renumber π buffer) = (p.constr x buffer).on (renumber π)
  kernel : p.shifted = Multipliers.shifted p.constraints.values
  kernel' : p'.shifted = Multipliers.shifted p'.constraints.values

/-- The problem with its constraints in another order and the kernel of the library.  What has an
entry for each constraint is brought back to the old order before the problem is asked. -/
def Problem.renumbered (π : Equiv.Perm (Fin m)) (p : Problem R) : Problem R :=
  let back (xs : List R) : List R := renumber π.symm xs
  let values := p.constraints.values.renumbered π
  { p with
    constraints := ⟨p.constraints.domain, values⟩
    constr := fun x g => (p.constr x (back g)).on (renumber π)
    constrGradProd := fun x y prod => p.constrGradProd x (back y) prod
    constrGrad := fun x i grad => p.constrGrad x (if h : i < m then π ⟨i, h⟩ else i) grad
    lagrHessProd := fun x y v prod => p.lagrHessProd x (back y) v prod
    lagrHess := fun x y hess => p.lagrHess x (back y) hess
    costWithConstr := fun x g => (p.costWithConstr x (back g)).on (renumber π)
    costWithGradConstr := fun x grad g =>
      (p.costWithGradConstr x grad (back g)).on fun (grad, g) => (grad, renumber π g)
    gradTerms := fun x y grad prod => p.gradTerms x (back y) grad prod
    lagrGrad := fun x y grad work => p.lagrGrad x (back y) grad work
    merit := fun x y weights shifted =>
      (p.merit x (back y) (back weights) (back shifted)).on (renumber π)
    meritGradFrom := fun x shifted grad work => p.meritGradFrom x (back shifted) grad work
    meritGrad := fun x y weights grad work shifted =>
      (p.meritGrad x (back y) (back weights) grad work (back shifted)).on
        fun (grad, work, shifted) => (grad, work, renumber π shifted)
    meritWithGrad := fun x y weights grad work shifted =>
      (p.meritWithGrad x (back y) (back weights) grad work (back shifted)).on
        fun (grad, work, shifted) => (grad, work, renumber π shifted)
    shifted := Multipliers.shifted values }

theorem Problem.renumbers_renumbered (π : Equiv.Perm (Fin m)) {p : Problem R} (size : p.m = m)
    (kernel : p.shifted = Multipliers.shifted p.constraints.values) :
    p.Renumbers π (p.renumbered π) where
  size := size
  domain := rfl
  values := rfl
  cost _ := rfl
  constr x buffer _ := by
    have restored : renumber π.symm (renumber π buffer) = buffer := renumber_symm π.symm buffer
    show (p.constr x (renumber π.symm (renumber π buffer))).on (renumber π) = _
    rw [restored]
  kernel := kernel
  kernel' := rfl

/-- The second solve is the first with the constraints in another order.  The inner solvers give the
same answers to subproblems that differ in the order alone, and so do the observers to events;
`alike` and `watching` relate their states. -/
structure Task.Renumbers (π : Equiv.Perm (Fin m)) (alike : S → S' → Prop)
    (watching : O → O' → Prop) (t : Task R S O) (t' : Task R S' O') : Prop where
  problem : t.problem.Renumbers π t'.problem
  settings : t'.settings = t.settings
  clock : t'.clock = t.clock
  inner : ∀ {solver solver' q}, alike solver solver' → q.y.length = m → q.weights.length = m →
    let reply := (t.inner.solve t.problem.constraints solver q).against t.problem
    let reply' :=
      (t'.inner.solve t'.problem.constraints solver' (q.renumbered π)).against t'.problem
    reply'.2 = reply.2 ∧ alike reply.1 reply'.1
  watch : ∀ {watcher watcher' e}, watching watcher watcher' → e.y.length = m →
    e.weights.length = m →
    let seen := t.watch.observe watcher e
    let seen' := t'.watch.observe watcher' (e.renumbered π)
    seen'.2 = seen.2 ∧ watching seen.1 seen'.1

/-- The second run is the first with the constraints in another order: it ends alike after the same
rounds, and multipliers and weights are permuted in all of them. -/
structure Run.Renumbers (π : Equiv.Perm (Fin m)) (alike : S → S' → Prop)
    (watching : O → O' → Prop) (run : Run R S O) (run' : Run R S' O') : Prop where
  outcome : run'.outcome = run.outcome.map (·.renumbered π)
  rounds : run'.rounds = run.rounds.map (·.renumbered π)
  inner : alike run.inner run'.inner
  watcher : watching run.watcher run'.watcher

structure Snapshot.Renumbers (π : Equiv.Perm (Fin m)) (alike : S → S' → Prop)
    (watching : O → O' → Prop) (a : Snapshot R S O) (a' : Snapshot R S' O') : Prop where
  state : a'.state = a.state.renumbered π
  past : a'.past = a.past.map (·.renumbered π)
  solver : alike a.solver a'.solver
  watcher : watching a.watcher a'.watcher

omit [Scalar R] in
theorem Run.renumbers_finish {π : Equiv.Perm (Fin m)} {alike : S → S' → Prop}
    {watching : O → O' → Prop} {outcome outcome' : Except SolveError (Solution R)}
    {past past' : List (Round R)} {solver : S} {solver' : S'} {watcher : O} {watcher' : O'}
    (outcomes : outcome' = outcome.map (·.renumbered π))
    (rounds : past' = past.map (·.renumbered π)) (solvers : alike solver solver')
    (watchers : watching watcher watcher') :
    Run.Renumbers π alike watching (Loop.finish outcome past solver watcher)
      (Loop.finish outcome' past' solver' watcher') where
  outcome := outcomes
  rounds := by
    rw [Loop.finish, rounds]
    exact List.map_reverse.symm
  inner := solvers
  watcher := watchers

end Relations

/-! ## One iteration -/

namespace Task

variable {K : Type} [Field K] [LinearOrder K] {S S' O O' : Type} {m : Nat}
  {π : Equiv.Perm (Fin m)} {alike : S → S' → Prop} {watching : O → O' → Prop}
  {t : Task (Exact K) S O} {t' : Task (Exact K) S' O'}

namespace Renumbers

variable (same : t.Renumbers π alike watching t')
include same

theorem m_eq : t'.problem.constraints.m = t.problem.constraints.m := by
  rw [Constraints.m, same.problem.values, Box.size_renumbered]
  rfl

theorem size : t.problem.constraints.m = m :=
  same.problem.size

theorem accept_eq (x y : List (Exact K)) :
    Loop.accept t'.settings t'.problem.constraints x (renumber π y) =
      Loop.accept t.settings t.problem.constraints x y := by
  have n : t'.problem.constraints.n = t.problem.constraints.n :=
    congrArg Box.size same.problem.domain
  rw [Loop.accept, Loop.accept, same.settings, n, same.m_eq, length_renumber]

/-- The first weights are one value, which does not depend on the order. -/
theorem firstWeights_eq (x : List (Exact K)) :
    t'.firstWeights x = (t.firstWeights x).on (renumber π) := by
  have full : ∀ σ : Exact K, renumber π (fill σ (List.replicate m 0.0)) =
      fill σ (List.replicate m 0.0) := fun σ => by
    rw [Weights.fill_eq_replicate, List.length_replicate, renumber_replicate]
  rw [firstWeights_eq_choose, firstWeights_eq_choose, same.settings, same.m_eq, same.size]
  by_cases none : m = 0
  · rw [if_pos none, if_pos none, Written.on_done, renumber_replicate]
  rw [if_neg none, if_neg none]
  cases t.settings.initialPenalty with
  | some σ => rw [Written.on_done, full]
  | none =>
      have constr := same.problem.constr x (List.replicate m 0.0) List.length_replicate
      rw [renumber_replicate] at constr
      rw [Weights.choose_against, Weights.choose_against, same.problem.cost, constr]
      rcases t.problem.cost x with e | f
      · rw [Written.on_failed, renumber_replicate]
      rcases t.problem.constr x (List.replicate m 0.0) with ⟨g, e | ⟨⟩⟩
      · show Written.failed _ e = _
        rw [Written.on_failed, renumber_replicate]
      · show Written.done _ () = _
        rw [Written.on_done, Weights.initial_renumber, full]

/-- Multipliers are replaced alike. -/
theorem update_eq (tidy : t.problem.Tidy) {s : LoopState (Exact K)} (filled : t.Filled s) :
    t'.update (s.renumbered π) =
      (t.update s).map (Prod.map (·.renumbered π) (renumber π)) := by
  have size := same.size
  by_cases none : s.y = []
  · have none' : (s.renumbered π).y = [] := (renumber_eq_nil_iff π).2 none
    rw [update_of_empty none, update_of_empty none']
    have empty : renumber π ([] : List (Exact K)) = [] := (renumber_eq_nil_iff π).2 rfl
    exact congrArg (fun violation => Except.ok ({ s with normE := 0.0 }.renumbered π, violation))
      empty.symm
  have some' : (s.renumbered π).y ≠ [] := mt (renumber_eq_nil_iff π).1 none
  have constr' := same.problem.constr s.x s.values (filled.values.trans size)
  rcases constr : t.problem.constr s.x s.values with ⟨values, e | ⟨⟩⟩
  all_goals rw [constr] at constr'
  · rw [update_of_failed none constr]
    exact update_of_failed some' constr'
  have length := (tidy.constr filled.values constr).trans size
  have kernel' := Multipliers.shifted_renumber π (b := t.problem.constraints.values) size length
    (filled.y.trans size) (filled.weights.trans size)
  rw [← same.problem.values, ← same.problem.kernel', ← same.problem.kernel] at kernel'
  obtain ⟨shifted, distance, kernel⟩ : ∃ shifted distance,
      t.problem.shifted values s.y s.weights = .done shifted distance := by
    rw [same.problem.kernel]
    exact ⟨_, _, Multipliers.shifted_each (length.trans size.symm) filled.y filled.weights⟩
  rw [kernel] at kernel'
  have clipped : shifted.length = m :=
    (tidy.shifted (length.trans size.symm) filled.y filled.weights kernel).trans size
  have step : ∀ y y' violation violation' : List (Exact K), y' = renumber π y →
      violation' = renumber π violation →
      (.ok ({ s.renumbered π with
        y := y', values := renumber π values, normE := normInf violation' }, violation') :
        Except EvalError (LoopState (Exact K) × List (Exact K))) =
        (Except.ok ({ s with y, values, normE := normInf violation }, violation)).map
          (Prod.map (·.renumbered π) (renumber π)) := by
    rintro y _ violation _ rfl rfl
    rw [Exact.normInf_perm (renumber_perm π violation)]
    rfl
  rw [update_of_evaluated none constr kernel]
  refine (update_of_evaluated some' constr' kernel').trans (step _ _ _ _ ?clip ?residual)
  case clip =>
    rw [same.problem.values, same.settings]
    exact Multipliers.clip_renumber π _ _ size clipped
  case residual =>
    rw [same.problem.values]
    exact Multipliers.residual_renumber π size length (filled.y.trans size)
      (filled.weights.trans size)

/-- The next weights are chosen alike. -/
theorem advance_eq {s : LoopState (Exact K)} {violation : List (Exact K)} (filled : t.Filled s)
    (length : violation.length = t.problem.m) (weighted : t.Weighted s.weights) (first : Bool) :
    Loop.advance t'.settings first (s.renumbered π) (renumber π violation) =
      (Loop.advance t.settings first s violation).map (·.renumbered π) := by
  have size := same.size
  have updated := Weights.update_renumber π t.settings.penaltyUpdateFactor s.normE s.oldNormE first
    (length.trans size) (filled.violation.trans size) (weighted.length.trans size) weighted.uniform
  have step : ∀ updated' : Written (List (Exact K)) Unit,
      updated' = (Weights.update t.settings t.settings.penaltyUpdateFactor first violation
        s.violation s.normE s.oldNormE s.weights s.weights).on (renumber π) →
      updated'.outcome.map (fun _ => { s.renumbered π with
        weights := updated'.kept
        violation := renumber π violation
        oldNormE := s.normE
        tolerance :=
          Scalar.larger (t.settings.toleranceUpdateFactor * s.tolerance) t.settings.epsilon }) =
        (Loop.advance t.settings first s violation).map (·.renumbered π) := by
    rintro _ rfl
    rw [Loop.advance]
    rcases Weights.update t.settings t.settings.penaltyUpdateFactor first violation s.violation
      s.normE s.oldNormE s.weights s.weights with ⟨weights, e | ⟨⟩⟩ <;> rfl
  rw [same.settings]
  exact step _ updated

end Renumbers

/-! ## From iteration to iteration -/

/-- Two iterations come to events that differ in the order of the constraints. -/
structure Evaluated.Renumbers (π : Equiv.Perm (Fin m)) (alike : S → S' → Prop)
    {a : Snapshot (Exact K) S O} {a' : Snapshot (Exact K) S' O'} (v : t.Evaluated a)
    (v' : t'.Evaluated a') : Prop where
  x : v'.x = v.x
  report : v'.report = v.report
  state : v'.state = v.state.renumbered π
  violation : v'.violation = renumber π v.violation
  solver : alike v.solver v'.solver

section Iterations

variable {k : Nat} {a b : Snapshot (Exact K) S O} {a' : Snapshot (Exact K) S' O'}
  {run : Run (Exact K) S O}

section Events

variable {v : t.Evaluated a} {v' : t'.Evaluated a'}

namespace Evaluated.Renumbers

variable (events : v.Renumbers π alike v')
include events

theorem event_eq : v'.event k = (v.event k).renumbered π := by
  rw [Evaluated.event, events.state, events.report]
  rfl

theorem rounds_eq (related : a.Renumbers π alike watching a') :
    v'.rounds k = (v.rounds k).map (·.renumbered π) := by
  rw [Evaluated.rounds, events.event_eq, events.x, events.report, related.state, related.past]
  rfl

variable (same : t.Renumbers π alike watching t')
include same

theorem converges_iff : v'.Converges ↔ v.Converges := by
  rw [Evaluated.Converges, events.state, events.report, same.settings]
  rfl

theorem observed_eq (tidy : t.problem.Tidy) (filled : t.Filled a.state)
    (related : a.Renumbers π alike watching a') :
    (v'.observed k).2 = (v.observed k).2 ∧ watching (v.observed k).1 (v'.observed k).1 := by
  obtain ⟨after, -⟩ := v.updates.filled tidy (filled.moved v.x v.report)
  rw [Evaluated.observed, events.event_eq]
  exact same.watch related.watcher (after.y.trans same.size) (after.weights.trans same.size)

theorem stops_iff (tidy : t.problem.Tidy) (filled : t.Filled a.state)
    (related : a.Renumbers π alike watching a') : v'.Stops k ↔ v.Stops k := by
  rw [Evaluated.Stops, (events.observed_eq same tidy filled related).1]
  rfl

theorem conclude (tidy : t.problem.Tidy) (filled : t.Filled a.state)
    (related : a.Renumbers π alike watching a') {outcome outcome' : Except SolveError _}
    (outcomes : outcome' = outcome.map (·.renumbered π)) :
    (v.conclude k outcome).Renumbers π alike watching (v'.conclude k outcome') :=
  Run.renumbers_finish outcomes (events.rounds_eq related) events.solver
    (events.observed_eq same tidy filled related).2

theorem advance_eq (tidy : t.problem.Tidy) (filled : t.Filled a.state)
    (weighted : t.Weighted a.state.weights) (first : Bool) :
    Loop.advance t'.settings first v'.state v'.violation =
      (Loop.advance t.settings first v.state v.violation).map (·.renumbered π) := by
  obtain ⟨after, length⟩ := v.updates.filled tidy (filled.moved v.x v.report)
  rw [events.state, events.violation]
  exact same.advance_eq after length (v.weighted weighted) first

end Evaluated.Renumbers

end Events

namespace Renumbers

theorem timesOut_iff (same : t.Renumbers π alike watching t') : t'.TimesOut k ↔ t.TimesOut k := by
  rw [TimesOut, same.settings, same.clock]
  rfl

variable (same : t.Renumbers π alike watching t') (tidy : t.problem.Tidy)
  (filled : t.Filled a.state) (related : a.Renumbers π alike watching a')
include same filled related

theorem exists_answer {solver : S}
    {reply : Except EvalError (List (Exact K) × InnerReport (Exact K))}
    (answered : t.answer a = (solver, reply)) :
    ∃ solver', t'.answer a' = (solver', reply) ∧ alike solver solver' := by
  have size := same.size
  obtain ⟨replies, solvers⟩ := same.inner (q := a.state.subproblem) related.solver
    (filled.y.trans size) (filled.weights.trans size)
  rw [answer] at answered
  rw [answered] at replies solvers
  refine ⟨_, ?_, solvers⟩
  rw [answer, related.state]
  exact Prod.ext rfl replies

include tidy

theorem exists_evaluated (v : t.Evaluated a) :
    ∃ v' : t'.Evaluated a', v.Renumbers π alike v' := by
  obtain ⟨solver', answered, solvers⟩ := same.exists_answer filled related v.answered
  have updated := same.update_eq tidy (filled.moved v.x v.report)
  rw [v.updated] at updated
  have updated' : t'.update (a'.state.moved v.x v.report) =
      .ok (v.state.renumbered π, renumber π v.violation) := by
    rw [related.state]
    exact updated
  exact ⟨⟨solver', v.x, v.report, _, _, answered, v.finite, updated'⟩, rfl, rfl, rfl, rfl, solvers⟩

/-- An iteration that ends the solve ends it alike. -/
theorem exists_end (weighted : t.Weighted a.state.weights) (ends : t.Ends k a run) :
    ∃ run', t'.Ends k a' run' ∧ run.Renumbers π alike watching run' := by
  -- the rounds of an iteration without an event
  have unseen : ∀ reply, (⟨a'.state.subproblem, reply, none⟩ :: a'.past : List (Round _)) =
      (⟨a.state.subproblem, reply, none⟩ :: a.past).map (·.renumbered π) := by
    intro reply
    rw [related.state, related.past]
    rfl
  have moved : ∀ x report, a'.state.moved x report = (a.state.moved x report).renumbered π := by
    intro x report
    rw [related.state]
    rfl
  cases ends with
  | refused answered =>
      obtain ⟨solver', answered', solvers⟩ := same.exists_answer filled related answered
      exact ⟨_, .refused answered', Run.renumbers_finish rfl (unseen _) solvers related.watcher⟩
  | @notFinite _ x report answered status =>
      obtain ⟨solver', answered', solvers⟩ := same.exists_answer filled related answered
      refine ⟨_, .notFinite answered' status,
        Run.renumbers_finish ?_ (unseen _) solvers related.watcher⟩
      rw [moved]
      rfl
  | @unevaluated _ x report e answered finite failed =>
      obtain ⟨solver', answered', solvers⟩ := same.exists_answer filled related answered
      have failed' : t'.update (a'.state.moved x report) = .error e := by
        rw [moved, same.update_eq tidy (filled.moved x report), failed]
        rfl
      exact ⟨_, .unevaluated answered' finite failed',
        Run.renumbers_finish rfl (unseen _) solvers related.watcher⟩
  | converged v converges =>
      obtain ⟨v', events⟩ := same.exists_evaluated tidy filled related v
      refine ⟨_, .converged v' ((events.converges_iff same).2 converges),
        events.conclude same tidy filled related ?_⟩
      rw [events.state]
      rfl
  | stopped v converges stops =>
      obtain ⟨v', events⟩ := same.exists_evaluated tidy filled related v
      refine ⟨_, .stopped v' (mt (events.converges_iff same).1 converges)
        ((events.stops_iff same tidy filled related).2 stops),
        events.conclude same tidy filled related ?_⟩
      rw [events.state]
      rfl
  | timedOut v converges stops timesOut =>
      obtain ⟨v', events⟩ := same.exists_evaluated tidy filled related v
      refine ⟨_, .timedOut v' (mt (events.converges_iff same).1 converges)
        (mt (events.stops_iff same tidy filled related).1 stops)
        (same.timesOut_iff.2 timesOut),
        events.conclude same tidy filled related ?_⟩
      rw [events.state]
      rfl
  | unweighted v converges stops timesOut failed =>
      obtain ⟨v', events⟩ := same.exists_evaluated tidy filled related v
      have failed' := events.advance_eq same tidy filled weighted (k == 0)
      rw [failed] at failed'
      exact ⟨_, .unweighted v' (mt (events.converges_iff same).1 converges)
        (mt (events.stops_iff same tidy filled related).1 stops)
        (mt same.timesOut_iff.1 timesOut) failed',
        events.conclude same tidy filled related rfl⟩

/-- An iteration that goes on goes on alike. -/
theorem exists_next (weighted : t.Weighted a.state.weights) (continues : t.Continues k a b) :
    ∃ b', t'.Continues k a' b' ∧ b.Renumbers π alike watching b' := by
  cases continues with
  | next v converges stops timesOut advanced =>
      obtain ⟨v', events⟩ := same.exists_evaluated tidy filled related v
      have advanced' := events.advance_eq same tidy filled weighted (k == 0)
      rw [advanced] at advanced'
      exact ⟨_, .next v' (mt (events.converges_iff same).1 converges)
        (mt (events.stops_iff same tidy filled related).1 stops)
        (mt same.timesOut_iff.1 timesOut) advanced',
        rfl, events.rounds_eq related, events.solver,
        (events.observed_eq same tidy filled related).2⟩

end Renumbers

/-- Solves from related snapshots run alike. -/
theorem Renumbers.iterate [IsStrictOrderedRing K] (same : t.Renumbers π alike watching t')
    (tidy : t.problem.Tidy) (good : t.settings.Admissible) (remaining : Nat)
    (filled : t.Filled a.state) (weighted : t.Weighted a.state.weights)
    (related : a.Renumbers π alike watching a') :
    (t.iterate remaining k a).Renumbers π alike watching (t'.iterate remaining k a') := by
  -- `filled` and `weighted` are of the first solve alone: the second is related to it
  induction remaining generalizing k a a' with
  | zero =>
      refine Run.renumbers_finish ?_ related.past related.solver related.watcher
      rw [related.state]
      rfl
  | succ remaining ih =>
      rcases t.iterate_succ remaining k a with ends | ⟨b, continues, follows⟩
      · obtain ⟨run', ends', runs⟩ := same.exists_end tidy filled related weighted ends
        rw [ends'.iterate_eq]
        exact runs
      · obtain ⟨b', continues', next⟩ := same.exists_next tidy filled related weighted continues
        rw [follows, continues'.iterate_eq]
        exact ih (continues.filled tidy good filled) (continues.weighted good weighted) next

end Iterations

/-! ## Solves -/

variable (t) in
/-- In exact arithmetic a solve does not depend on how the constraints are numbered.  It ends with
the same error or with the same status, point, norm, tolerance and numbers of iterations, after the
same rounds, and the multipliers and weights of every round and of the solution are permuted.  This
holds for all settings: those that are refused are refused alike. -/
theorem run_renumbered [IsStrictOrderedRing K] (same : t.Renumbers π alike watching t')
    (tidy : t.problem.Tidy) {layers layers' : List Layer} {x y : List (Exact K)} {solver : S}
    {solver' : S'} {watcher : O} {watcher' : O'} (solvers : alike solver solver')
    (watchers : watching watcher watcher') :
    (t.run layers x y solver watcher).Renumbers π alike watching
      (t'.run layers' x (renumber π y) solver' watcher') := by
  have accept := same.accept_eq x y
  have weights := same.firstWeights_eq x
  rw [run_eq, run_eq, opening, opening, accept, weights]
  rcases accepted : Loop.accept t.settings t.problem.constraints x y with e | ⟨⟩
  · exact Run.renumbers_finish rfl rfl solvers watchers
  rcases chosen : t.firstWeights x with ⟨first, e | ⟨⟩⟩
  · exact Run.renumbers_finish rfl rfl solvers watchers
  obtain ⟨good, -, length⟩ := Loop.accept_eq_ok.1 accepted
  have zeros := renumber_replicate (m := m) π (0.0 : Exact K)
  have related : (t.first x y first solver watcher).Renumbers π alike watching
      (t'.first x (renumber π y) (renumber π first) solver' watcher') := by
    refine ⟨?_, rfl, solvers, watchers⟩
    show Loop.start t'.settings t'.problem.constraints x (renumber π y) (renumber π first) =
      (Loop.start t.settings t.problem.constraints x y first).renumbered π
    rw [Loop.start, Loop.start, LoopState.renumbered, same.settings, same.m_eq, same.size, zeros]
  rw [same.settings]
  exact same.iterate tidy good _ (filled_first good length chosen solver watcher)
    (first_weighted good chosen) related

/-- Three constraints that are never met, to different degrees. -/
def unmet : Task (Exact ℚ) (ReplayState (Exact ℚ)) Unit where
  problem := .ofPrimitives
    ⟨.unbounded 3,
      ⟨[.between 0.0 0.0 Exact.zero_le_zero, .between 0.0 0.5 Exact.zero_le_half,
        .between (-1.0) 0.0 Exact.neg_one_le_zero]⟩⟩
    { constr? := some fun x => overwriteAll x }
  settings := { OuterSettings.default with initialPenalty := some 1.0, maxIter := 2 }
  inner := Replay.solver []
  watch := .silent
  clock := quickClock

/-- The constraint with number 0 becomes the last, and the others move up. -/
def cycled : Equiv.Perm (Fin 3) :=
  Equiv.swap 0 1 * Equiv.swap 1 2

theorem unmet_tidy : unmet.problem.Tidy :=
  Problem.tidy_of_kernel rfl fun length done => (length_of_overwriteAll done).trans length

/-- A replay does not look at multipliers and weights, and a silent observer at nothing. -/
theorem unmet_renumbers :
    unmet.Renumbers cycled (fun s s' => s.asked = s'.asked) Eq
      { unmet with problem := unmet.problem.renumbered cycled } where
  problem := Problem.renumbers_renumbered cycled rfl rfl
  settings := rfl
  clock := rfl
  inner := by
    intro solver solver' q asked _ _
    exact ⟨rfl, congrArg (· + 1) asked⟩
  watch := by
    rintro watcher _ e rfl _ _
    exact ⟨rfl, rfl⟩

/-- After two iterations multipliers and weights are those of the cycled problem, one place on. -/
theorem unmet_run_renumbered :
    ∃ sol sol' : Solution (Exact ℚ),
      (unmet.run [] [1.0, 1.0, 0.25] [0.0, 0.0, 0.0] {} ()).outcome = .ok sol ∧
      (Task.run { unmet with problem := unmet.problem.renumbered cycled } [] [1.0, 1.0, 0.25]
        [0.0, 0.0, 0.0] {} ()).outcome = .ok sol' ∧
      sol.y = [11.0, 3.0, 0.875] ∧ sol'.y = [3.0, 0.875, 11.0] ∧
      sol.weights = [100.0, 25.0, 6.25] ∧ sol'.weights = [25.0, 6.25, 100.0] := by
  have runs : Run.Renumbers cycled (fun s s' => s.asked = s'.asked) Eq
      (unmet.run [] [1.0, 1.0, 0.25] [0.0, 0.0, 0.0] {} ())
      (Task.run { unmet with problem := unmet.problem.renumbered cycled } [] [1.0, 1.0, 0.25]
        (renumber cycled [0.0, 0.0, 0.0]) {} ()) :=
    unmet.run_renumbered unmet_renumbers unmet_tidy rfl rfl
  have outcome := runs.outcome
  have shown : ((unmet.run [] [1.0, 1.0, 0.25] [0.0, 0.0, 0.0] {} ()).outcome.toOption.map
      fun sol => (sol.y, sol.weights)) =
        some (([11.0, 3.0, 0.875], [100.0, 25.0, 6.25]) : List (Exact ℚ) × List (Exact ℚ)) := by
    decide +kernel
  cases solved : (unmet.run [] [1.0, 1.0, 0.25] [0.0, 0.0, 0.0] {} ()).outcome with
  | error e =>
      rw [solved] at shown
      cases shown
  | ok sol =>
      rw [solved] at outcome shown
      obtain ⟨y, weights⟩ := Prod.mk.inj (Option.some.inj shown)
      refine ⟨sol, sol.renumbered cycled, rfl, outcome, y, ?_, weights, ?_⟩
      · show renumber cycled sol.y = _
        rw [y]
        decide +kernel
      · show renumber cycled sol.weights = _
        rw [weights]
        decide +kernel

end Task

end AugmentedLagrangian
