/- # AugmentedLagrangian.Proofs.Metering — the evaluations that the outer loop makes

`Consult.counted` lists the operations that a computation is counted for, in order, and every counter
around the problem ticks once for each (`Layer.counters_through`).  So what a solve costs is a list,
and the list of a computation is made of those of its parts.

With an inner solver that evaluates nothing, the list of a solve is short: cost and constraint values
at the starting point, if the first weight has to be chosen, and then the constraint values once for
each event (`Task.counted_minimize`).  An iteration that fails has no event and evaluates nothing
either, and without constraints nothing is evaluated at all.
-/
import AugmentedLagrangian.Inner.Replay
import AugmentedLagrangian.Proofs.Double
import AugmentedLagrangian.Proofs.Layering
import AugmentedLagrangian.Proofs.Lengths
import AugmentedLagrangian.Proofs.Truncation

namespace AugmentedLagrangian

set_option autoImplicit false

open Scalar (Ordered)

variable {R α β : Type}

/-! ## What a computation is counted for -/

/-- The operation that a call with this reply is counted as, if it is. -/
def Call.counted (c : Call R) (reply : c.Reply) : List Operation :=
  if reply.happened then c.operation.toList else []

/-- The operations that a computation is counted for, in order. -/
def Consult.counted [Scalar R] (p : Problem R) : Consult R α → List Operation
  | .done _ => []
  | .ask c next => c.counted (p.answer c) ++ (next (p.answer c)).counted p

namespace Consult

variable [Scalar R] (p : Problem R)

@[simp] theorem counted_done (a : α) : (done a : Consult R α).counted p = [] := rfl

@[simp] theorem counted_call (c : Call R) : (call c).counted p = c.counted (p.answer c) :=
  List.append_nil _

theorem counted_bind (c : Consult R α) (f : α → Consult R β) :
    (c.bind f).counted p = c.counted p ++ (f (c.against p)).counted p := by
  induction c with
  | done a => rfl
  | ask c next ih =>
      simp only [bind_ask, counted, ih, List.append_assoc]
      rfl

end Consult

/-- A counter notes a call by ticking for it. -/
theorem Counter.noted_eq (counter : Counter) (c : Call R) (reply : c.Reply) :
    counter.noted c reply = (c.counted reply).foldl tick counter := by
  unfold noted Call.counted
  cases c.operation <;> cases reply.happened <;> rfl

/-- Every counter ticks for what the computation is counted for. -/
theorem Layer.counters_through [Scalar R] (p : Problem R) (c : Consult R α) (layers : List Layer) :
    counters (c.through p layers).2 =
      (counters layers).map fun counter => (c.counted p).foldl Counter.tick counter := by
  induction c generalizing layers with
  | done a => exact (List.map_id _).symm
  | ask c next ih =>
      rw [Consult.through, ih, counters_after, List.map_map, Consult.counted]
      simp only [List.foldl_append, ← Counter.noted_eq]
      rfl

theorem Counter.calls_foldl_tick (counter : Counter) (ops : List Operation) (op : Operation) :
    (ops.foldl tick counter).calls.get op =
      counter.calls.get op + UInt64.ofNat (ops.count op) := by
  induction ops generalizing counter with
  | nil => simp
  | cons first ops ih =>
      rw [List.foldl_cons, ih]
      by_cases same : op = first
      · subst same
        simp [tick, UInt64.add_assoc, UInt64.add_comm 1]
      · simp [tick, Chart.get_set, same, List.count_cons_of_ne (Ne.symm same)]

/-! ## The parts of a solve -/

/-- Choosing the first weight is counted for the cost and the constraints, if both succeed. -/
theorem Weights.counted_choose [Scalar R] {p : Problem R} {s : OuterSettings R} {m : Nat}
    {x weights kept : List R} (chosen : (choose s m x weights).against p = .done kept ()) :
    (choose s m x weights).counted p = [.cost, .constr] := by
  rw [choose_against] at chosen
  rcases cost : p.cost x with e | f
  · rw [cost] at chosen
    cases chosen
  rcases constr : p.constr x (List.replicate m 0.0) with ⟨g, e | ⟨⟩⟩
  · rw [cost, constr] at chosen
    cases chosen
  simp only [choose, Consult.bind_eq, Consult.counted_bind, Consult.counted_call,
    Consult.against_call, Problem.answer, cost, constr]
  rfl

namespace Task

variable {S O : Type} [Scalar R] (t : Task R S O)

/-- What choosing the first weights is counted for. -/
def atStart : List Operation :=
  if t.problem.m = 0 then []
  else if t.settings.initialPenalty.isNone then [.cost, .constr] else []

/-- What an event is counted for. -/
def perEvent : List Operation :=
  if t.problem.m = 0 then [] else [.constr]

/-- The inner solver makes no evaluations that are counted. -/
def Abstains : Prop :=
  ∀ solver asked, (t.inner.solve t.problem.constraints solver asked).counted t.problem = []

/-- What the rest of a run is counted for. -/
def spent (remaining k : Nat) (a : Snapshot R S O) : List Operation :=
  (Loop.iterate t.settings t.problem.constraints t.inner t.watch t.clock remaining k a.state a.past
    a.solver a.watcher).counted t.problem

variable {t}

theorem counted_firstWeights {x weights : List R} (chosen : t.firstWeights x = .done weights ()) :
    (Loop.firstWeights t.settings t.problem.constraints x).counted t.problem = t.atStart := by
  rw [firstWeights_eq_choose] at chosen
  rw [Loop.firstWeights, atStart]
  by_cases none : t.problem.constraints.m = 0
  · simp only [if_pos none, Consult.pure_eq, Consult.counted_done]
    exact (if_pos none).symm
  rw [if_neg none] at chosen ⊢
  refine Eq.trans ?_ (if_neg none).symm
  cases initial : t.settings.initialPenalty with
  | some σ => rfl
  | none =>
      rw [initial] at chosen
      exact Weights.counted_choose chosen

theorem counted_update {s s' : LoopState R} {violation : List R}
    (filled : s.y.length = t.problem.m) (updated : t.update s = .ok (s', violation)) :
    (Loop.updateMultipliers t.settings t.problem.constraints s).counted t.problem =
      t.perEvent := by
  have updates := t.updates_of_update updated
  rw [Loop.updateMultipliers, perEvent]
  cases updates with
  | unconstrained none =>
      have size : t.problem.m = 0 := by rw [← filled, none, List.length_nil]
      rw [if_pos size, none]
      rfl
  | evaluated some constr kernel =>
      have size : t.problem.m ≠ 0 := by
        rw [← filled]
        exact Nat.ne_of_gt (List.length_pos_iff.2 some)
      rw [if_neg size, if_neg (by simpa using some)]
      simp only [Consult.bind_eq, Consult.counted_bind, Consult.counted_call,
        Consult.against_call, Problem.answer, constr, Written.done]
      rw [kernel]
      rfl

section Iterations

variable {remaining k : Nat} {a b : Snapshot R S O} {run : Run R S O}

/-- What an iteration that comes to its event, and those after it, are counted for. -/
theorem Evaluated.spent_eq (v : t.Evaluated a) (abstains : t.Abstains)
    (filled : a.state.y.length = t.problem.m) : t.spent (remaining + 1) k a =
      t.perEvent ++
        if v.Converges then []
        else if v.Stops k then []
        else if t.TimesOut k then []
        else
          match Loop.advance t.settings (k == 0) v.state v.violation with
          | .error _ => []
          | .ok s => t.spent remaining (k + 1) ⟨s, v.rounds k, v.solver, (v.observed k).1⟩ := by
  have answered := v.answered
  have updated := v.updated
  have evaluation := counted_update (s := a.state.moved v.x v.report) filled updated
  unfold answer at answered
  unfold update LoopState.moved at updated
  unfold LoopState.moved at evaluation
  simp only [spent, Loop.iterate, Consult.bind_eq, Consult.counted_bind, answered, abstains _ _,
    if_neg v.finite, updated, evaluation, List.nil_append]
  apply congrArg
  change Consult.counted t.problem (if v.Converges then _ else if v.Stops k then _ else
    if t.TimesOut k then _ else _) = _
  rw [apply_ite (Consult.counted _), apply_ite (Consult.counted _), apply_ite (Consult.counted _)]
  cases Loop.advance t.settings (k == 0) v.state v.violation <;> rfl

theorem Continues.spent_eq (continues : t.Continues k a b) (abstains : t.Abstains)
    (filled : a.state.y.length = t.problem.m) :
    t.spent (remaining + 1) k a = t.perEvent ++ t.spent remaining (k + 1) b := by
  cases continues with
  | next v converges stops timesOut advanced =>
      rw [v.spent_eq abstains filled, if_neg converges, if_neg stops, if_neg timesOut, advanced]

/-- An iteration that ends with a solution is counted for its event, if there is one. -/
theorem Ends.spent_eq (ends : t.Ends k a run) (abstains : t.Abstains)
    (filled : a.state.y.length = t.problem.m) {sol : Solution R} (solved : run.outcome = .ok sol)
    {r : Round R} (rounds : run.rounds = a.past.reverse ++ [r]) :
    t.spent (remaining + 1) k a = r.event.toList.flatMap fun _ => t.perEvent := by
  cases ends with
  | refused => cases solved
  | notFinite answered status =>
      unfold answer at answered
      rw [round_unique rounds]
      simp only [spent, Loop.iterate, Consult.bind_eq, Consult.counted_bind, answered,
        abstains _ _, if_pos status]
      rfl
  | unevaluated => cases solved
  | converged v converges =>
      rw [round_unique rounds, v.spent_eq abstains filled, if_pos converges]
      rfl
  | stopped v converges stops =>
      rw [round_unique rounds, v.spent_eq abstains filled, if_neg converges, if_pos stops]
      rfl
  | timedOut v converges stops timesOut =>
      rw [round_unique rounds, v.spent_eq abstains filled, if_neg converges, if_neg stops,
        if_pos timesOut]
      rfl
  | unweighted => cases solved

end Iterations

/-! ## A whole solve -/

/-- The rest of a run that comes to a solution is counted for each of its events. -/
theorem spent_iterate [Ordered R] (tidy : t.problem.Tidy) (abstains : t.Abstains)
    (good : t.settings.Admissible) (remaining k : Nat) {a : Snapshot R S O}
    (filled : t.Filled a.state) {sol : Solution R}
    (solved : (t.iterate remaining k a).outcome = .ok sol) :
    ∃ rest, (t.iterate remaining k a).rounds = a.past.reverse ++ rest ∧
      t.spent remaining k a = (rest.filterMap Round.event).flatMap fun _ => t.perEvent := by
  induction remaining generalizing k a with
  | zero => exact ⟨[], (List.append_nil _).symm, rfl⟩
  | succ remaining ih =>
      rcases t.iterate_succ remaining k a with ends | ⟨b, continues, same⟩
      · obtain ⟨r, rounds, -⟩ := ends.rounds_eq
        refine ⟨[r], rounds, ?_⟩
        rw [ends.spent_eq abstains filled.y solved rounds]
        cases event : r.event <;> simp [event]
      · rw [same] at solved
        obtain ⟨v, past, -⟩ := continues.past_eq
        obtain ⟨rest, rounds, spent⟩ := ih (k + 1) (continues.filled tidy good filled) solved
        refine ⟨v.round k :: rest, ?_, ?_⟩
        · rw [same, rounds, past, List.reverse_cons, List.append_assoc]
          rfl
        · rw [continues.spent_eq abstains filled.y, spent]
          rfl

variable (t)

/-- A solve that comes to a solution is counted for choosing its first weights and then for each of
its events. -/
theorem counted_minimize [Ordered R] (tidy : t.problem.Tidy) (abstains : t.Abstains)
    {layers : List Layer} {x y : List R} {solver : S} {watcher : O} {sol : Solution R}
    (solved : (t.run layers x y solver watcher).outcome = .ok sol) :
    (minimize t.settings t.problem.constraints t.inner t.watch t.clock x y solver
        watcher).counted t.problem =
      t.atStart ++ (t.run layers x y solver watcher).events.flatMap fun _ => t.perEvent := by
  obtain ⟨weights, path, last, starts⟩ := t.starts_of_ok solved
  have accepted : Loop.accept t.settings t.problem.constraints x y = .ok () := by
    rcases accepted : Loop.accept t.settings t.problem.constraints x y with e | ⟨⟩
    · rw [run_eq, opening, accepted] at solved
      cases solved
    · rfl
  have chosen := starts.chosen
  have filled := filled_first starts.good starts.length chosen solver watcher
  have start := counted_firstWeights chosen
  rw [run_of_chosen accepted starts.chosen] at solved ⊢
  obtain ⟨rest, rounds, spent⟩ := spent_iterate tidy abstains starts.good _ _ filled solved
  unfold firstWeights at chosen
  rw [Run.events, rounds, minimize, accepted]
  simp only [Consult.bind_eq, Consult.counted_bind, start, chosen]
  exact congrArg (t.atStart ++ ·) spent

/-- A solve that is accepted finds no fault with the settings. -/
theorem outcome_ne_settings {layers : List Layer} {x y : List R} {solver : S} {watcher : O}
    (accepted : Loop.accept t.settings t.problem.constraints x y = .ok ()) (v : Violation) :
    (t.run layers x y solver watcher).outcome ≠ .error (.settings v) := by
  have solves := t.run_solves layers x y solver watcher
  generalize t.run layers x y solver watcher = run at solves ⊢
  intro faulted
  cases solves with
  | refused refused =>
      rw [accepted] at refused
      cases refused
  | unweighted => cases faulted
  | iterated _ _ concludes =>
      cases concludes with
      | limited => cases faulted
      | ended _ _ ends => cases ends <;> cases faulted

/-- How many calls of an operation a solve with this many events is counted for. -/
def expense (events : Nat) : Operation → Nat
  | .constr =>
    if t.problem.m = 0 then 0
    else events + if t.settings.initialPenalty.isNone then 1 else 0
  | .cost =>
    if t.problem.m = 0 then 0 else if t.settings.initialPenalty.isNone then 1 else 0
  | _ => 0

theorem count_eq_expense {E : Type} (events : List E) (op : Operation) :
    (t.atStart ++ events.flatMap fun _ => t.perEvent).count op = t.expense events.length op := by
  have each : (events.flatMap fun _ => t.perEvent).count op =
      events.length * t.perEvent.count op := by
    induction events with
    | nil => simp
    | cons e events ih =>
        rw [List.flatMap_cons, List.count_append, ih, List.length_cons, Nat.succ_mul, Nat.add_comm]
  rw [List.count_append, each, atStart, perEvent]
  by_cases none : t.problem.m = 0
  · cases op <;> simp [expense, none]
  · cases given : t.settings.initialPenalty <;> cases op <;>
      simp [expense, none, given, Nat.add_comm]

/-- The counters around the problem after a solve. -/
def countersAfter (layers : List Layer) (x y : List R) (solver : S) (watcher : O) :
    List Counter :=
  Layer.counters ((minimize t.settings t.problem.constraints t.inner t.watch t.clock x y solver
    watcher).through t.problem layers).2

/-- What the counters of a solve from fresh layers show. -/
structure Metered (layers : List Layer) (x y : List R) (solver : S) (watcher : O)
    (run : Run R S O) : Prop where
  length : (t.countersAfter layers x y solver watcher).length = (Layer.counters layers).length
  solved : ∀ {sol}, run.outcome = .ok sol →
    ∀ counter ∈ t.countersAfter layers x y solver watcher, ∀ op,
      (counter.calls.get op).toNat = t.expense run.events.length op % 2 ^ 64
  /-- A solve that is refused has made no call of anyone. -/
  refused : (∃ v, run.outcome = .error (.settings v)) ∨ x.length ≠ t.problem.n ∨
      y.length ≠ t.problem.m →
    (∀ counter ∈ t.countersAfter layers x y solver watcher, ∀ op, counter.calls.get op = 0) ∧
      run.rounds = [] ∧ run.inner = solver ∧ run.watcher = watcher

/-- With an inner solver that evaluates nothing, a solve evaluates the constraints once for each
event, and cost and constraints once more if it has to choose the first weight; one that is refused
evaluates nothing. -/
theorem run_metered [Ordered R] (tidy : t.problem.Tidy) (abstains : t.Abstains)
    {layers : List Layer} (fresh : ∀ counter ∈ Layer.counters layers, ∀ op, counter.calls.get op = 0)
    (x y : List R) (solver : S) (watcher : O) :
    t.Metered layers x y solver watcher (t.run layers x y solver watcher) := by
  constructor
  · rw [countersAfter, Layer.counters_through, List.length_map]
  · intro sol solved counter member op
    rw [countersAfter, Layer.counters_through, List.mem_map] at member
    obtain ⟨before, inside, rfl⟩ := member
    rw [Counter.calls_foldl_tick, fresh before inside, t.counted_minimize tidy abstains solved,
      count_eq_expense, UInt64.zero_add, UInt64.toNat_ofNat']
  · intro refused
    have refused : ∃ e, Loop.accept t.settings t.problem.constraints x y = .error e := by
      rcases accepted : Loop.accept t.settings t.problem.constraints x y with e | ⟨⟩
      · exact ⟨e, rfl⟩
      · obtain ⟨-, point, multipliers⟩ := Loop.accept_eq_ok.1 accepted
        rcases refused with ⟨v, invalid⟩ | wrong | wrong
        · exact absurd invalid (t.outcome_ne_settings accepted v)
        · exact absurd point wrong
        · exact absurd multipliers wrong
    obtain ⟨e, refused⟩ := refused
    have nothing : minimize t.settings t.problem.constraints t.inner t.watch t.clock x y solver
        watcher = .done (Loop.finish (.error e) [] solver watcher) := by
      rw [minimize, refused]
      rfl
    rw [countersAfter, run, nothing]
    exact ⟨fresh, rfl, rfl, rfl⟩

/-- One constraint that is never met, a first weight that has to be chosen, and two iterations. -/
def priced : Task Float (ReplayState Float) Unit where
  problem := .ofPrimitives ⟨.unbounded 1, ⟨[.between 0.0 0.0 Scalar.zero_le_zero]⟩⟩
    { cost? := some fun x => .ok (x.headD 0.0)
      constr? := some fun x _ => .done [x.headD 0.0] () }
  settings := { OuterSettings.default with maxIter := 2 }
  inner := Replay.solver []
  watch := .silent
  clock := quickClock

theorem priced_tidy : priced.problem.Tidy :=
  Problem.tidy_of_kernel rfl fun length done => by
    cases done
    rfl

theorem priced_abstains : priced.Abstains := by
  intro solver asked
  simp [priced, Replay.solver, Replay.entryAt, Replay.consultFirst, Replay.respond]

/-- The constraint values are evaluated for both events and for the first weight. -/
theorem priced_metered :
    let run := priced.run [.counted .zero] [2.0] [0.0] {} ()
    (∃ sol, run.outcome = .ok sol ∧ sol.status = .maxIter) ∧
      priced.expense run.events.length .constr = 3 ∧
      priced.expense run.events.length .cost = 1 ∧
      priced.Metered [.counted .zero] [2.0] [0.0] {} () run := by
  intro run
  have events : run.events.length = 2 := by decide +kernel
  have limited : run.outcome.toOption.map Solution.status = some .maxIter := by decide +kernel
  have fresh : ∀ counter ∈ Layer.counters [.counted .zero], ∀ op, counter.calls.get op = 0 := by
    simp [Layer.counters, Counter.zero]
  rw [events]
  exact ⟨Run.exists_solution limited, rfl, rfl,
    priced.run_metered priced_tidy priced_abstains fresh [2.0] [0.0] {} ()⟩

end Task

end AugmentedLagrangian
