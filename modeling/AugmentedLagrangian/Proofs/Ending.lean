/- # AugmentedLagrangian.Proofs.Ending — how a solve ends, and what it accounts for

A solve in which nothing fails, and whose time is not up, ends in the first round that calls for an
end, with the status of the first of its reasons: the inner solver met a value that is not finite,
the round converged, or the observer asked for it (`Task.CallsFor`).  Where no round does, it ends
at the limit.

`Task.run_ends` says this together with what the run accounts for (`Task.Account`).  The inner
solver has answered the subproblems of the rounds, one after the other, and nothing else
(`Task.serve`).  The observer has seen the events of the rounds, numbered as they are, and every
round has one unless the inner solver failed in it.  The solution counts the rounds and adds up
their inner iterations.

The rounds account for a snapshot as well (`Ledger`), which is what an iteration preserves.
-/
import AugmentedLagrangian.Inner.Replay
import AugmentedLagrangian.Proofs.Double
import AugmentedLagrangian.Proofs.History

namespace AugmentedLagrangian

set_option autoImplicit false

open Scalar (Ordered infinity)

variable {R S O : Type}

/-! ## What the rounds say -/

namespace Round

variable (r : Round R)

/-- The inner solver met a value that is not finite. -/
def Fails : Prop :=
  ∃ x report, r.answer = .ok (x, report) ∧ report.status = .notFinite

/-- Violation and stationarity are within the tolerances. -/
def Converges [Scalar R] (settings : OuterSettings R) : Prop :=
  ∃ e, r.event = some e ∧ e.normE ≤ settings.delta ∧ e.inner.stationarity ≤ settings.epsilon

/-- The inner iterations that are reported. -/
def innerIterations : Nat :=
  match r.answer with
  | .ok (_, report) => report.iterations.toNat
  | .error _ => 0

end Round

/-- The inner iterations that the rounds report. -/
def innerTotal (rounds : List (Round R)) : Nat :=
  (rounds.map Round.innerIterations).sum

@[simp] theorem innerTotal_concat (rounds : List (Round R)) (r : Round R) :
    innerTotal (rounds ++ [r]) = innerTotal rounds + r.innerIterations := by
  simp [innerTotal]

variable [Scalar R]

/-- The norm that the last event shows. -/
def lastNorm (rounds : List (Round R)) : R :=
  ((rounds.filterMap Round.event).getLast?.map Event.normE).getD infinity

namespace Task

variable (t : Task R S O)

/-- The answers to a list of subproblems, one after the other, and the inner solver's state
afterwards. -/
def serve : S → List (Subproblem R) → S × List (Except EvalError (List R × InnerReport R))
  | solver, [] => (solver, [])
  | solver, q :: qs =>
    let (solver, answer) := (t.inner.solve t.problem.constraints solver q).against t.problem
    let (solver, answers) := serve solver qs
    (solver, answer :: answers)

/-- The observer's state after the events of some rounds. -/
def watcherAfter (watcher : O) (rounds : List (Round R)) : O :=
  (t.watch.drive watcher (rounds.filterMap Round.event)).1

/-- The observer asks for an end when it sees round `k`. -/
def Stopped (watcher : O) (run : Run R S O) (k : Nat) (r : Round R) : Prop :=
  ∃ e, r.event = some e ∧
    (t.watch.observe (t.watcherAfter watcher (run.rounds.take k)) e).2 = some .stopEarly

/-- The status with which round `k` calls for an end, in the order of the checks. -/
inductive CallsFor (watcher : O) (run : Run R S O) (k : Nat) (r : Round R) : Status → Prop
  | failed (fails : r.Fails) : CallsFor watcher run k r .failed
  | converged (fails : ¬ r.Fails) (converges : r.Converges t.settings) :
      CallsFor watcher run k r .converged
  | stopped (fails : ¬ r.Fails) (converges : ¬ r.Converges t.settings)
      (stops : t.Stopped watcher run k r) : CallsFor watcher run k r .stoppedByObserver

/-- No inner solve of a run fails, and no evaluation of the constraints. -/
structure Unfailing (run : Run R S O) : Prop where
  solves : ∀ {k : Nat} {r : Round R}, run.rounds[k]? = some r → ∃ x report, r.answer = .ok (x, report)
  evaluates : 0 < t.problem.m → ∀ {k : Nat} {r : Round R} {x : List R} {report : InnerReport R},
    run.rounds[k]? = some r → r.answer = .ok (x, report) → report.status ≠ .notFinite →
    ∃ values shifted distance,
      t.problem.constr x (t.values (run.rounds.take k).reverse) = .done values () ∧
      t.problem.shifted values r.asked.y r.asked.weights = .done shifted distance

/-- The account that a run and its solution give of each other. -/
structure Account (solver : S) (watcher : O) (run : Run R S O) (sol : Solution R) : Prop where
  /-- A round that calls for an end is the last. -/
  least : ∀ {k : Nat} {r : Round R} {status : Status}, run.rounds[k]? = some r →
    t.CallsFor watcher run k r status → k + 1 = run.rounds.length
  /-- The last round calls for the status, or there are no more rounds. -/
  status : (∃ k r, run.rounds[k]? = some r ∧ t.CallsFor watcher run k r sol.status) ∨
    sol.status = .maxIter ∧ run.rounds.length = t.settings.maxIter ∧
      ∀ k r status, run.rounds[k]? = some r → ¬ t.CallsFor watcher run k r status
  within : run.rounds.length ≤ t.settings.maxIter
  outerIterations : sol.outerIterations = run.rounds.length
  /-- As long as the sum fits a word. -/
  innerIterations : innerTotal run.rounds < 2 ^ 64 →
    sol.innerIterations.toNat = innerTotal run.rounds
  /-- The inner solver has answered the subproblems of the rounds. -/
  served : t.serve solver (run.rounds.map Round.asked) = (run.inner, run.rounds.map Round.answer)
  /-- The observer has seen the events of the rounds. -/
  watched : t.watcherAfter watcher run.rounds = run.watcher
  numbered : ∀ {k : Nat} {r : Round R}, run.rounds[k]? = some r →
    r.Fails ∧ r.event = none ∨ ¬ r.Fails ∧ ∃ e, r.event = some e ∧ e.iteration = k
  /-- A failed inner solve leaves the multipliers, the weights and the norm as it found them. -/
  failed : sol.status = .failed → ∃ last, run.rounds.getLast? = some last ∧
    sol.y = last.asked.y ∧ sol.weights = last.asked.weights ∧ sol.normE = lastNorm run.rounds

/-! ## One more round -/

variable {t}

theorem serve_concat (solver : S) (qs : List (Subproblem R)) (q : Subproblem R) :
    t.serve solver (qs ++ [q]) =
      let served := t.serve solver qs
      let answered := (t.inner.solve t.problem.constraints served.1 q).against t.problem
      (answered.1, served.2 ++ [answered.2]) := by
  induction qs generalizing solver with
  | nil => rfl
  | cons q' qs ih => simp [serve, ih]

theorem watcherAfter_silent (watcher : O) (rounds : List (Round R)) {r : Round R}
    (silent : r.event = none) :
    t.watcherAfter watcher (rounds ++ [r]) = t.watcherAfter watcher rounds := by
  simp [watcherAfter, silent]

theorem watcherAfter_event (watcher : O) (rounds : List (Round R)) {r : Round R} {e : Event R}
    (event : r.event = some e) :
    t.watcherAfter watcher (rounds ++ [r]) =
      (t.watch.observe (t.watcherAfter watcher rounds) e).1 := by
  simp [watcherAfter, event, Observer.drive_append, Observer.drive]

theorem lastNorm_silent (rounds : List (Round R)) {r : Round R} (silent : r.event = none) :
    lastNorm (rounds ++ [r]) = lastNorm rounds := by
  simp [lastNorm, silent]

theorem lastNorm_event (rounds : List (Round R)) {r : Round R} {e : Event R}
    (event : r.event = some e) : lastNorm (rounds ++ [r]) = e.normE := by
  simp [lastNorm, event]

variable (t) in
/-- The inner solver's state, the observer's and the count of inner iterations come from the
rounds. -/
structure Ledger (solver : S) (watcher : O) (rounds : List (Round R)) (inner : S) (seen : O)
    (count : UInt64) : Prop where
  served : t.serve solver (rounds.map Round.asked) = (inner, rounds.map Round.answer)
  watched : t.watcherAfter watcher rounds = seen
  counted : count.toNat = innerTotal rounds % 2 ^ 64

namespace Ledger

variable {solver : S} {watcher : O} {a : Snapshot R S O}

/-- An iteration adds its round, and what the inner solver reports. -/
theorem answered
    (ledger : t.Ledger solver watcher a.past.reverse a.solver a.watcher a.state.innerIterations)
    {inner : S} {x : List R} {report : InnerReport R}
    (answered : t.answer a = (inner, .ok (x, report))) (event : Option (Event R)) {seen : O}
    (watched : t.watcherAfter watcher
      (a.past.reverse ++ [⟨a.state.subproblem, .ok (x, report), event⟩]) = seen) :
    t.Ledger solver watcher (a.past.reverse ++ [⟨a.state.subproblem, .ok (x, report), event⟩]) inner
      seen (a.state.innerIterations + report.iterations) where
  served := by
    rw [List.map_append, List.map_append, List.map_singleton, List.map_singleton, serve_concat,
      ledger.served]
    show ((t.answer a).1, _ ++ [(t.answer a).2]) = _
    rw [answered]
  watched := watched
  counted := by
    rw [UInt64.toNat_add, ledger.counted, innerTotal_concat, Nat.mod_add_mod]
    rfl

/-- An iteration that comes to its event adds its round. -/
theorem evaluated
    (ledger : t.Ledger solver watcher a.past.reverse a.solver a.watcher a.state.innerIterations)
    (v : t.Evaluated a) (k : Nat) :
    t.Ledger solver watcher (v.rounds k).reverse v.solver (v.observed k).1
      v.state.innerIterations := by
  rw [v.rounds_eq, List.reverse_cons, v.state_innerIterations]
  refine ledger.answered v.answered _ ?_
  rw [watcherAfter_event _ _ rfl, ledger.watched]
  rfl

end Ledger

theorem Continues.ledger {solver : S} {watcher : O} {k : Nat} {a b : Snapshot R S O}
    (continues : t.Continues k a b)
    (ledger : t.Ledger solver watcher a.past.reverse a.solver a.watcher a.state.innerIterations) :
    t.Ledger solver watcher b.past.reverse b.solver b.watcher b.state.innerIterations := by
  cases continues with
  | next v converges stops timesOut advanced =>
      obtain ⟨weights, -, rfl⟩ := Loop.advance_eq_ok advanced
      exact ledger.evaluated v k

theorem Continues.lastNorm {k : Nat} {a b : Snapshot R S O} (continues : t.Continues k a b) :
    b.state.normE = AugmentedLagrangian.lastNorm b.past.reverse := by
  cases continues with
  | next v converges stops timesOut advanced =>
      obtain ⟨weights, -, rfl⟩ := Loop.advance_eq_ok advanced
      rw [v.rounds_eq, List.reverse_cons, lastNorm_event _ rfl]
      rfl

namespace Evaluated

variable {a : Snapshot R S O} (v : t.Evaluated a) (k : Nat)

theorem not_fails_round : ¬ (v.round k).Fails := by
  rintro ⟨x, report, answer, status⟩
  cases answer
  exact v.finite status

theorem converges_round : (v.round k).Converges t.settings ↔ v.Converges := by
  constructor
  · rintro ⟨e, ⟨⟩, norm, stationarity⟩
    exact ⟨norm, stationarity⟩
  · rintro ⟨norm, stationarity⟩
    exact ⟨_, rfl, norm, stationarity⟩

theorem stopped_round {watcher : O} {run : Run R S O}
    (watched : t.watcherAfter watcher (run.rounds.take k) = a.watcher) :
    t.Stopped watcher run k (v.round k) ↔ v.Stops k := by
  rw [Stopped, watched]
  constructor
  · rintro ⟨e, ⟨⟩, stops⟩
    exact stops
  · exact fun stops => ⟨_, rfl, stops⟩

/-- An iteration that comes to its event calls for an end where it converges or is stopped. -/
theorem not_callsFor {watcher : O} {run : Run R S O}
    (watched : t.watcherAfter watcher (run.rounds.take k) = a.watcher) (converges : ¬ v.Converges)
    (stops : ¬ v.Stops k) (status : Status) : ¬ t.CallsFor watcher run k (v.round k) status := by
  intro calls
  cases calls with
  | failed fails => exact v.not_fails_round k fails
  | converged _ converges' => exact converges ((v.converges_round k).1 converges')
  | stopped _ _ stops' => exact stops ((v.stopped_round k watched).1 stops')

end Evaluated

/-! ## The last round -/

variable (t) in
/-- What the round that ends a run adds to the account. -/
structure Closes (solver : S) (watcher : O) (k : Nat) (a : Snapshot R S O) (r : Round R)
    (run : Run R S O) (sol : Solution R) : Prop where
  outcome : run.outcome = .ok sol
  rounds : run.rounds = a.past.reverse ++ [r]
  calls : t.CallsFor watcher run k r sol.status
  outerIterations : sol.outerIterations = k + 1
  ledger : t.Ledger solver watcher run.rounds run.inner run.watcher sol.innerIterations
  numbered : r.Fails ∧ r.event = none ∨ ¬ r.Fails ∧ ∃ e, r.event = some e ∧ e.iteration = k
  failed : sol.status = .failed →
    sol.y = r.asked.y ∧ sol.weights = r.asked.weights ∧ sol.normE = lastNorm run.rounds

/-- An iteration in which nothing fails, and whose time is not up, ends a solve only because its
round calls for it. -/
theorem Ends.closes {solver : S} {watcher : O} {k : Nat} {a : Snapshot R S O} {run : Run R S O}
    (ends : t.Ends k a run) (length : a.past.length = k)
    (ledger : t.Ledger solver watcher a.past.reverse a.solver a.watcher a.state.innerIterations)
    (norm : a.state.normE = lastNorm a.past.reverse)
    (solves : ∃ x report, (t.answer a).2 = .ok (x, report))
    (evaluates : ∀ {x report}, (t.answer a).2 = .ok (x, report) → report.status ≠ .notFinite →
      ∃ s violation, t.update (a.state.moved x report) = .ok (s, violation))
    (inTime : ¬ t.TimesOut k)
    (advances : ∀ v : t.Evaluated a, ∃ s, Loop.advance t.settings (k == 0) v.state v.violation =
      .ok s) :
    ∃ r sol, t.Closes solver watcher k a r run sol := by
  have taken : ∀ r, (a.past.reverse ++ [r]).take k = a.past.reverse := fun r =>
    List.take_left' (by rw [List.length_reverse, length])
  have watched : ∀ {r}, t.watcherAfter watcher ((r :: a.past).reverse.take k) = a.watcher := by
    intro r
    rw [List.reverse_cons, taken, ledger.watched]
  -- an end that no round calls for is a failure, or comes from the clock
  cases ends with
  | refused answered =>
      obtain ⟨x, report, answered'⟩ := solves
      rw [answered] at answered'
      cases answered'
  | @notFinite _ x report answered status =>
      have fails : Round.Fails ⟨a.state.subproblem, .ok (x, report), none⟩ :=
        ⟨x, report, rfl, status⟩
      refine ⟨_, _, rfl, List.reverse_cons, .failed fails, rfl, ?_, .inl ⟨fails, rfl⟩,
        fun _ => ⟨rfl, rfl, ?_⟩⟩
      · show t.Ledger _ _ (List.reverse (_ :: _)) _ _ _
        rw [List.reverse_cons]
        exact ledger.answered answered none
          ((watcherAfter_silent _ _ rfl).trans ledger.watched)
      · show a.state.normE = lastNorm (List.reverse (_ :: _))
        rw [List.reverse_cons, lastNorm_silent _ rfl, norm]
  | unevaluated answered finite failed =>
      obtain ⟨s, violation, updated⟩ := evaluates (by rw [answered]) finite
      rw [failed] at updated
      cases updated
  | converged v converges =>
      exact ⟨v.round k, _, rfl, List.reverse_cons,
        .converged (v.not_fails_round k) ((v.converges_round k).2 converges), rfl,
        ledger.evaluated v k, .inr ⟨v.not_fails_round k, _, rfl, rfl⟩, nofun⟩
  | stopped v converges stops =>
      exact ⟨v.round k, _, rfl, List.reverse_cons,
        .stopped (v.not_fails_round k) (fun c => converges ((v.converges_round k).1 c))
          ((v.stopped_round k watched).2 stops), rfl,
        ledger.evaluated v k, .inr ⟨v.not_fails_round k, _, rfl, rfl⟩, nofun⟩
  | timedOut _ _ _ timesOut => exact absurd timesOut inTime
  | unweighted v _ _ _ failed =>
      obtain ⟨s, advanced⟩ := advances v
      rw [failed] at advanced
      cases advanced

/-! ## The run -/

namespace Follows

variable {first : Snapshot R S O} {path : Nat → Snapshot R S O} {last k : Nat} {run : Run R S O}

/-- The rounds account for every snapshot of a run. -/
theorem ledger (follows : t.Follows first path last run) (fresh : first.past = [])
    (zero : first.state.innerIterations = 0) (within : k ≤ last) :
    t.Ledger first.solver first.watcher (path k).past.reverse (path k).solver (path k).watcher
      (path k).state.innerIterations := by
  refine follows.forall_of_step (fun _ a => t.Ledger first.solver first.watcher a.past.reverse
    a.solver a.watcher a.state.innerIterations) ?_ (fun continues => continues.ledger) k within
  rw [fresh, zero]
  exact ⟨rfl, rfl, rfl⟩

/-- A round after which the run goes on has its event, and does not call for an end. -/
theorem goesOn (follows : t.Follows first path last run) (fresh : first.past = [])
    (zero : first.state.innerIterations = 0) (within : k < last) {r : Round R}
    (round : run.rounds[k]? = some r) :
    (¬ r.Fails ∧ ∃ e, r.event = some e ∧ e.iteration = k) ∧
      ∀ status, ¬ t.CallsFor first.watcher run k r status := by
  obtain ⟨v, here, converges, stops⟩ := follows.getElem?_rounds fresh within
  rw [round] at here
  cases here
  refine ⟨⟨v.not_fails_round k, _, rfl, rfl⟩, v.not_callsFor k ?_ converges stops⟩
  rw [follows.take_rounds fresh (Nat.le_of_lt within)]
  exact (follows.ledger fresh zero (Nat.le_of_lt within)).watched

theorem lastNorm (follows : t.Follows first path last run) (fresh : first.past = [])
    (start : first.state.normE = infinity) (within : k ≤ last) :
    (path k).state.normE = AugmentedLagrangian.lastNorm (path k).past.reverse := by
  refine follows.forall_of_step
    (fun _ a => a.state.normE = AugmentedLagrangian.lastNorm a.past.reverse) ?_
    (fun continues _ => continues.lastNorm) k within
  rw [fresh, start]
  rfl

/-- A run that comes to the limit gives its account. -/
theorem account_limited (follows : t.Follows first path last run) (fresh : first.past = [])
    (zero : first.state.innerIterations = 0) (limit : last = t.settings.maxIter)
    (same : run = Loop.finish (.ok ((path last).state.solution .maxIter last)) (path last).past
      (path last).solver (path last).watcher) :
    t.Account first.solver first.watcher run ((path last).state.solution .maxIter last) := by
  have length : run.rounds.length = last := by
    rw [same]
    exact List.length_reverse.trans (follows.length_past fresh (Nat.le_refl last))
  have goesOn : ∀ {k r}, run.rounds[k]? = some r →
      (¬ r.Fails ∧ ∃ e, r.event = some e ∧ e.iteration = k) ∧
        ∀ status, ¬ t.CallsFor first.watcher run k r status := fun round =>
    follows.goesOn fresh zero (length ▸ (List.getElem?_eq_some_iff.1 round).1) round
  have ledger := follows.ledger fresh zero (Nat.le_refl last)
  have rounds : run.rounds = (path last).past.reverse := by rw [same]; rfl
  rw [← rounds] at ledger
  exact {
    least := fun round calls => absurd calls ((goesOn round).2 _)
    status := .inr ⟨rfl, length.trans limit, fun _ _ _ round => (goesOn round).2 _⟩
    within := Nat.le_of_eq (length.trans limit)
    outerIterations := length.symm
    innerIterations := fun fits => ledger.counted.trans (Nat.mod_eq_of_lt fits)
    served := by rw [ledger.served, same]; rfl
    watched := by rw [ledger.watched, same]; rfl
    numbered := fun round => .inr (goesOn round).1
    failed := nofun }

/-- A run that ends in one more round gives its account. -/
theorem account_ended (follows : t.Follows first path last run) (fresh : first.past = [])
    (zero : first.state.innerIterations = 0) (within : last < t.settings.maxIter) {r : Round R}
    {sol : Solution R} (closes : t.Closes first.solver first.watcher last (path last) r run sol) :
    t.Account first.solver first.watcher run sol := by
  have length : run.rounds.length = last + 1 := by
    rw [closes.rounds, List.length_append, List.length_reverse, List.length_singleton,
      follows.length_past fresh (Nat.le_refl last)]
  have final : run.rounds[last]? = some r := by
    rw [closes.rounds]
    exact follows.getElem?_concat fresh (Nat.le_refl last) r
  have cases : ∀ {k r'}, run.rounds[k]? = some r' → k < last ∨ k = last ∧ r' = r := by
    intro k r' round
    have bound := (List.getElem?_eq_some_iff.1 round).1
    rcases Nat.lt_or_eq_of_le (Nat.le_of_lt_succ (length ▸ bound)) with earlier | rfl
    · exact .inl earlier
    · exact .inr ⟨rfl, Option.some.inj (round.symm.trans final)⟩
  exact {
    least := fun round calls => by
      rcases cases round with earlier | ⟨rfl, rfl⟩
      · exact absurd calls ((follows.goesOn fresh zero earlier round).2 _)
      · exact length.symm
    status := .inl ⟨last, r, final, closes.calls⟩
    within := length ▸ within
    outerIterations := closes.outerIterations.trans length.symm
    innerIterations := fun fits => closes.ledger.counted.trans (Nat.mod_eq_of_lt fits)
    served := closes.ledger.served
    watched := closes.ledger.watched
    numbered := fun round => by
      rcases cases round with earlier | ⟨rfl, rfl⟩
      · exact .inr (follows.goesOn fresh zero earlier round).1
      · exact closes.numbered
    failed := fun failed =>
      ⟨r, by rw [closes.rounds, List.getLast?_concat], closes.failed failed⟩ }

end Follows

/-- Where no evaluation of a run fails, the multipliers are replaced in every round. -/
theorem Starts.updates [Ordered R] {x y weights : List R} {solver : S} {watcher : O}
    {run : Run R S O} {path : Nat → Snapshot R S O} {last k : Nat}
    (starts : t.Starts x y solver watcher run weights path last) (tidy : t.problem.Tidy)
    (unfailing : t.Unfailing run) {r : Round R} (round : run.rounds[k]? = some r) {x' : List R}
    {report : InnerReport R} (answered : (t.answer (path k)).2 = .ok (x', report))
    (finite : report.status ≠ .notFinite) :
    ∃ s violation, t.update ((path k).state.moved x' report) = .ok (s, violation) := by
  obtain ⟨within, asked, answer⟩ := starts.follows.round_eq rfl round
  have filled := starts.filled tidy within
  refine t.exists_update fun constrained => ?_
  have some : 0 < t.problem.m := by
    rw [← filled.y]
    exact List.length_pos_iff.2 constrained
  obtain ⟨values, shifted, distance, constr, kernel⟩ :=
    unfailing.evaluates some round (answer.trans answered) finite
  -- what the rounds say the buffer holds is what the state hands to the evaluation
  rw [starts.follows.take_rounds rfl within, List.reverse_reverse,
    ← (starts.remembers tidy some within).values] at constr
  rw [asked] at kernel
  exact ⟨values, shifted, distance, constr, kernel⟩

variable (t)

/-- A solve that starts, in which nothing fails and whose time is not up, returns a solution; it
ends in the first round that calls for an end, or else at the limit, and run and solution give an
account of each other. -/
theorem run_ends [Ordered R] (tidy : t.problem.Tidy) {layers : List Layer} {x y weights : List R}
    {solver : S} {watcher : O} {run : Run R S O} (isRun : run = t.run layers x y solver watcher)
    (accepted : Loop.accept t.settings t.problem.constraints x y = .ok ())
    (chosen : t.firstWeights x = .done weights ()) (unfailing : t.Unfailing run)
    (inTime : ∀ k < run.rounds.length, ¬ t.TimesOut k) :
    ∃ sol, run.outcome = .ok sol ∧ t.Account solver watcher run sol := by
  subst isRun
  obtain ⟨path, last, starts⟩ := t.starts_of_accepted accepted chosen
  generalize t.run layers x y solver watcher = run at *
  have follows := starts.follows
  rcases follows.ends_inv with ⟨limit, same⟩ | ⟨within, ends⟩
  · exact ⟨_, by rw [same]; rfl, follows.account_limited rfl rfl limit same⟩
  · obtain ⟨r, rounds, -, answer⟩ := ends.rounds_eq
    have final : run.rounds[last]? = some r := by
      rw [rounds]
      exact follows.getElem?_concat rfl (Nat.le_refl last) r
    have filled := starts.filled tidy (Nat.le_refl last)
    have advances : ∀ v : t.Evaluated (path last), ∃ s,
        Loop.advance t.settings (last == 0) v.state v.violation = .ok s := fun v =>
      (v.advances tidy starts.good filled _).imp fun _ advanced => advanced.1
    obtain ⟨r, sol, closes⟩ := ends.closes (follows.length_past rfl (Nat.le_refl last))
      (follows.ledger rfl rfl (Nat.le_refl last)) (follows.lastNorm rfl rfl (Nat.le_refl last))
      (answer ▸ unfailing.solves final) (starts.updates tidy unfailing final)
      (inTime last (List.getElem?_eq_some_iff.1 final).1) advances
    exact ⟨sol, closes.outcome, follows.account_ended rfl rfl within closes⟩

/-- One constraint, and an inner solver that fails when it is asked again. -/
def faltering : Task Float (ReplayState Float) Unit where
  problem := .ofPrimitives ⟨.unbounded 1, ⟨[.between 0.0 0.0 Scalar.zero_le_zero]⟩⟩
    { constr? := some fun x _ => .done [x.headD 0.0] () }
  settings := { OuterSettings.default with initialPenalty := some 1.0 }
  inner := Replay.solver [
    { x? := some [1.0], report := ⟨.converged, 0.0, 3⟩ },
    { x? := some [5.0], report := ⟨.notFinite, 0.0, 4⟩ }]
  watch := .silent
  clock := quickClock

theorem faltering_tidy : faltering.problem.Tidy :=
  Problem.tidy_of_kernel rfl fun length done => by
    cases done
    rfl

theorem faltering_unfailing : faltering.Unfailing (faltering.run [] [2.0] [0.0] {} ()) := by
  have shown : ∀ r ∈ (faltering.run [] [2.0] [0.0] {} ()).rounds,
      r.answer.isOk = true ∧ r.asked.y.length = 1 ∧ r.asked.weights.length = 1 := by
    decide +kernel
  constructor
  · intro k r round
    obtain ⟨answered, -⟩ := shown r (List.mem_of_getElem? round)
    cases answer : r.answer with
    | ok pair => exact ⟨pair.1, pair.2, rfl⟩
    | error e =>
        rw [answer] at answered
        cases answered
  · intro some k r x report round answer finite
    obtain ⟨-, y, weights⟩ := shown r (List.mem_of_getElem? round)
    exact ⟨_, _, _, rfl, Multipliers.shifted_eq rfl y (.inr weights)⟩

/-- It fails in the second round, with what it was asked there and the norm of the first. -/
theorem faltering_run_ends :
    let run := faltering.run [] [2.0] [0.0] {} ()
    ∃ sol, run.outcome = .ok sol ∧ faltering.Account {} () run sol ∧ sol.status = .failed ∧
      sol.outerIterations = 2 ∧ sol.innerIterations = 7 ∧ sol.y = [1.0] ∧ sol.weights = [10.0] ∧
      sol.normE = 1.0 := by
  intro run
  have counts : (run.outcome.toOption.map fun sol =>
      (sol.status, sol.outerIterations, sol.innerIterations)) = some (.failed, 2, 7) := by
    decide +kernel
  have vectors : (run.outcome.toOption.map fun sol => (sol.y, sol.weights, sol.normE)) =
      some ([1.0], [10.0], 1.0) := by
    decide +kernel
  obtain ⟨sol, outcome, account⟩ := faltering.run_ends faltering_tidy rfl (by decide +kernel) rfl
    faltering_unfailing (by decide +kernel)
  rw [outcome] at counts vectors
  obtain ⟨status, counts⟩ := Prod.mk.inj (Option.some.inj counts)
  obtain ⟨outer, inner⟩ := Prod.mk.inj counts
  obtain ⟨y, vectors⟩ := Prod.mk.inj (Option.some.inj vectors)
  obtain ⟨weights, norm⟩ := Prod.mk.inj vectors
  exact ⟨sol, outcome, account, status, outer, inner, y, weights, norm⟩

end Task

end AugmentedLagrangian
