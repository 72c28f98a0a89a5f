/- # AugmentedLagrangian.Proofs.Recurrence — the loop without its buffers

The loop keeps what it needs of earlier iterations in buffers that it overwrites and hands on.  Here
is the method without them.  A `Stage` is what an iteration starts from: a subproblem and the inner
solver.  Everything that happens in the iteration is a function of its stage, so the violation of
the iteration before is computed again from its stage, and the next stage is a function of the last
two (`Task.stage`).

`Task.run_eq_stages` says that a solve on the vectors that it writes over is this recurrence, with
whatever arithmetic: its rounds consist of what the stages say, and the solution at the limit is the
stage that would come next.  All that it needs is that the constraint values are a function of the
point (`Task.Functional`).  The simulation (`Simulates`) says what of the history is alive: the
violation and its norm only after a first iteration, the constraint values never.
-/
import AugmentedLagrangian.Inner.Replay
import AugmentedLagrangian.Proofs.Double
import AugmentedLagrangian.Proofs.History
import AugmentedLagrangian.Proofs.WorkVectors

namespace AugmentedLagrangian

set_option autoImplicit false

open Scalar (Ordered larger normInf)

variable {R S O : Type} [Scalar R]

/-! ## The recurrence -/

/-- What an outer iteration starts from. -/
structure Stage (R S : Type) where
  asked : Subproblem R
  solver : S

namespace Stage

variable (t : Task R S O) (g : List R → List R) (a : Stage R S)

/-- What the inner solver answers. -/
def answer : S × Except EvalError (List R × InnerReport R) :=
  (t.inner.solve t.problem.constraints a.solver a.asked).against t.problem

/-- The point that the inner solver returns. -/
def point : List R :=
  match (a.answer t).2 with
  | .ok (x, _) => x
  | .error _ => a.asked.x

/-- The violation `g − Π_D(g + Σ⁻¹y)` at that point. -/
def violation : List R :=
  let values := g (a.point t)
  let shift := List.zipWith (· / ·) a.asked.y a.asked.weights
  List.zipWith (· - ·) values
    (t.problem.constraints.values.project (List.zipWith (· + ·) values shift))

/-- The shifted multipliers at that point, clipped. -/
def multipliers : List R :=
  Multipliers.clip t.settings.maxMultiplier t.problem.constraints.values.lowers
    t.problem.constraints.values.uppers
    (t.problem.shifted (g (a.point t)) a.asked.y a.asked.weights).kept

/-- The event of iteration `k`, unless the inner solver met a value that is not finite. -/
def event? (k : Nat) : Option (Event R) :=
  match (a.answer t).2 with
  | .ok (x, report) =>
    if report.status = .notFinite then none
    else some ⟨k, x, a.multipliers t g, a.asked.weights, normInf (a.violation t g),
      a.asked.tolerance, report⟩
  | .error _ => none

/-- The round of iteration `k`. -/
def round (k : Nat) : Round R :=
  ⟨a.asked, (a.answer t).2, a.event? t g k⟩

/-- The next weights, after the violation of the stage before, if there was one. -/
def nextWeights (before? : Option (Stage R S)) : List R :=
  let old := (before?.map fun before => before.violation t g).getD []
  (Weights.update t.settings t.settings.penaltyUpdateFactor before?.isNone (a.violation t g) old
    (normInf (a.violation t g)) (normInf old) a.asked.weights a.asked.weights).kept

/-- The next stage. -/
def next (before? : Option (Stage R S)) : Stage R S where
  asked :=
    { weights := a.nextWeights t g before?
      tolerance :=
        larger (t.settings.toleranceUpdateFactor * a.asked.tolerance) t.settings.epsilon
      x := a.point t
      y := a.multipliers t g }
  solver := (a.answer t).1

end Stage

namespace Task

variable (t : Task R S O) (g : List R → List R)

/-- The first weights: the given one for each constraint, or as chosen. -/
def startWeights (x : List R) : List R :=
  match t.settings.initialPenalty with
  | some σ => List.replicate t.problem.m σ
  | none =>
    ((Weights.choose t.settings t.problem.m x (List.replicate t.problem.m 0.0)).against
      t.problem).kept

/-- The stages of a solve, as far as it goes. -/
def stage (x y : List R) (solver : S) : Nat → Stage R S
  | 0 => ⟨⟨t.startWeights x, t.settings.initialTolerance, x, y⟩, solver⟩
  | 1 => (stage x y solver 0).next t g none
  | k + 2 => (stage x y solver (k + 1)).next t g (some (stage x y solver k))

/-- The stage before stage `k`. -/
def stageBefore (x y : List R) (solver : S) : Nat → Option (Stage R S)
  | 0 => none
  | k + 1 => some (t.stage g x y solver k)

theorem stage_succ (x y : List R) (solver : S) (k : Nat) :
    t.stage g x y solver (k + 1) =
      (t.stage g x y solver k).next t g (t.stageBefore g x y solver k) := by
  cases k <;> rfl

/-- The constraint values are the function `g` of the point, which has an entry for each constraint,
and the kernel succeeds. -/
structure Functional : Prop where
  constr : ∀ {x buffer}, buffer.length = t.problem.m → t.problem.constr x buffer = .done (g x) ()
  full : ∀ x, (g x).length = t.problem.m
  kernel : ∀ {values y weights}, values.length = t.problem.m → y.length = t.problem.m →
    weights.length = t.problem.m → ∃ shifted distance,
      t.problem.shifted values y weights = .done shifted distance ∧ shifted.length = t.problem.m

end Task

/-! ## What the first update reads -/

namespace Weights

variable {s : OuterSettings R} {factor normE : R}

theorem growEach?_of_first (e old old' weights buffer : List R) :
    growEach? s factor true normE e old weights buffer =
      growEach? s factor true normE e old' weights buffer := by
  induction e generalizing old old' weights buffer with
  | nil => rfl
  | cons e es ih =>
      cases weights with
      | nil => rfl
      | cons weight weights =>
          cases buffer with
          | nil => rfl
          | cons slot buffer =>
              rw [growEach?, growEach?, ih old.tail old'.tail]
              rfl

/-- The first update is compared with no violation. -/
theorem update_of_first (e old old' : List R) (oldNormE oldNormE' : R) (weights buffer : List R) :
    update s factor true e old normE oldNormE weights buffer =
      update s factor true e old' normE oldNormE' weights buffer := by
  unfold update
  rw [growEach?_of_first e old old', Bool.true_or, Bool.true_or]

end Weights

namespace Task

variable {t : Task R S O} {g : List R → List R}

theorem length_startWeights (x : List R) : (t.startWeights x).length = t.problem.m := by
  unfold startWeights
  split
  · exact List.length_replicate
  · rw [Weights.length_choose, List.length_replicate]

/-- A solve starts with the weights of the first stage. -/
theorem startWeights_eq {x weights : List R} (chosen : t.firstWeights x = .done weights ()) :
    weights = t.startWeights x := by
  rw [firstWeights, Loop.firstWeights] at chosen
  by_cases none : t.problem.constraints.m = 0
  · rw [if_pos none] at chosen
    cases chosen
    have length : (t.startWeights x).length = 0 := (length_startWeights x).trans none
    rw [List.eq_nil_of_length_eq_zero length, none]
    rfl
  rw [if_neg none] at chosen
  unfold startWeights
  cases initial : t.settings.initialPenalty with
  | some σ =>
      rw [initial] at chosen
      cases chosen
      rw [Weights.fill_eq_replicate, List.length_replicate]
      rfl
  | none =>
      rw [initial] at chosen
      exact (congrArg Written.kept chosen).symm

namespace Functional

/-- With the kernel that problems have by default, it is enough that the constraints are a
function. -/
theorem of_kernel (kernel : t.problem.shifted = Multipliers.shifted t.problem.constraints.values)
    (constr : ∀ {x buffer}, buffer.length = t.problem.m →
      t.problem.constr x buffer = .done (g x) ())
    (full : ∀ x, (g x).length = t.problem.m) : t.Functional g where
  constr := constr
  full := full
  kernel values y weights := by
    refine ⟨_, _, by rw [kernel, Multipliers.shifted_each values y weights], ?_⟩
    rw [Multipliers.length_eachPass, values]

theorem tidy (functional : t.Functional g) : t.problem.Tidy where
  constr length done := by
    rw [functional.constr length] at done
    cases done
    exact functional.full _
  shifted values y weights done := by
    obtain ⟨shifted, distance, kernel, length⟩ := functional.kernel values y weights
    rw [kernel] at done
    cases done
    exact length

/-- The multipliers can be replaced at any point. -/
theorem update_total (functional : t.Functional g) {s : LoopState R} (filled : t.Filled s) :
    ∃ s' violation, t.update s = .ok (s', violation) := by
  refine t.exists_update fun _ => ?_
  obtain ⟨shifted, distance, kernel, -⟩ :=
    functional.kernel (functional.full s.x) filled.y filled.weights
  exact ⟨g s.x, shifted, distance, functional.constr filled.values, kernel⟩

end Functional

/-- Replacing the multipliers at a stage's point gives what the stage says.  Without constraints
both are empty. -/
theorem Updates.eq_stage (functional : t.Functional g) {s s' : LoopState R} {violation : List R}
    (filled : t.Filled s) (updates : t.Updates s s' violation) {b : Stage R S}
    (point : b.point t = s.x) (y : b.asked.y = s.y) (weights : b.asked.weights = s.weights) :
    s'.y = b.multipliers t g ∧ violation = b.violation t g ∧
      s'.normE = normInf (b.violation t g) := by
  obtain ⟨shifted, distance, kernel, length⟩ :=
    functional.kernel (functional.full s.x) filled.y filled.weights
  have residual : b.violation t g = Multipliers.residual t.problem.constraints.values.intervals
      (g s.x) s.y s.weights := by
    rw [Stage.violation, Multipliers.residual_eq, point, y, weights]
    rfl
  have clipped : b.multipliers t g = Multipliers.clip t.settings.maxMultiplier
      t.problem.constraints.values.lowers t.problem.constraints.values.uppers shifted := by
    rw [Stage.multipliers, point, y, weights, kernel]
    rfl
  rw [residual, clipped]
  cases updates with
  | unconstrained none =>
      have size : t.problem.m = 0 := by rw [← filled.y, none, List.length_nil]
      have violation := Multipliers.length_residual rfl (functional.full s.x) filled.y filled.weights
      have empty := List.eq_nil_of_length_eq_zero (length.trans size)
      rw [List.eq_nil_of_length_eq_zero (violation.trans size), empty]
      refine ⟨?_, rfl, rfl⟩
      show s.y = _
      rw [none]
      exact (List.eq_nil_of_length_eq_zero (Multipliers.length_clip ..)).symm
  | evaluated some constr kernel' residual' =>
      rw [functional.constr filled.values] at constr
      cases constr
      rw [kernel] at kernel'
      cases kernel'
      exact ⟨rfl, residual', by rw [residual']⟩

variable (t g) in
/-- The snapshot before iteration `k` is at the stage `b`, after the stage `before?`. -/
structure Simulates (k : Nat) (before? : Option (Stage R S)) (b : Stage R S)
    (a : Snapshot R S O) : Prop where
  asked : a.state.subproblem = b.asked
  solver : a.solver = b.solver
  first : (k == 0) = before?.isNone
  violation : ∀ before ∈ before?, a.state.violation = before.violation t g
  oldNormE : ∀ before ∈ before?, a.state.oldNormE = normInf (before.violation t g)

namespace Simulates

variable {k : Nat} {before? : Option (Stage R S)} {a : Snapshot R S O} {b : Stage R S}

theorem answer_eq (simulates : t.Simulates g k before? b a) : t.answer a = b.answer t := by
  rw [answer, Stage.answer, simulates.asked, simulates.solver]

/-- An iteration from a snapshot that is at a stage comes to what the stage says. -/
theorem evaluated (simulates : t.Simulates g k before? b a) (functional : t.Functional g)
    (filled : t.Filled a.state) (v : t.Evaluated a) :
    b.answer t = (v.solver, .ok (v.x, v.report)) ∧ b.point t = v.x ∧
      v.state.y = b.multipliers t g ∧ v.violation = b.violation t g ∧
      v.state.normE = normInf (b.violation t g) := by
  have answered := simulates.answer_eq.symm.trans v.answered
  have point : b.point t = v.x := by rw [Stage.point, answered]
  have asked := simulates.asked
  refine ⟨answered, point, v.updates.eq_stage functional (filled.moved v.x v.report) point ?_ ?_⟩
  · rw [← asked]
    rfl
  · rw [← asked]
    rfl

/-- Its event is that of the stage. -/
theorem event_eq (simulates : t.Simulates g k before? b a) (functional : t.Functional g)
    (filled : t.Filled a.state) (v : t.Evaluated a) : b.event? t g k = some (v.event k) := by
  obtain ⟨answered, -, y, -, normE⟩ := simulates.evaluated functional filled v
  rw [Stage.event?, answered]
  show (if v.report.status = .notFinite then none else _) = _
  rw [if_neg v.finite, ← y, ← normE, ← simulates.asked]
  rw [Evaluated.event, LoopState.event, v.state_x, v.state_weights, v.state_tolerance]
  rfl

/-- An iteration that ends before its event is one where the stage has none. -/
theorem event_eq_none (simulates : t.Simulates g k before? b a)
    (silent : ∀ x report, (t.answer a).2 = .ok (x, report) → report.status = .notFinite) :
    b.event? t g k = none := by
  rw [simulates.answer_eq] at silent
  rw [Stage.event?]
  split
  next x report answered => exact if_pos (silent x report answered)
  next => rfl

/-- Going on leads to the next stage. -/
theorem next (simulates : t.Simulates g k before? b a) (functional : t.Functional g)
    (filled : t.Filled a.state) {a' : Snapshot R S O} (continues : t.Continues k a a') :
    t.Simulates g (k + 1) (some b) (b.next t g before?) a' := by
  cases continues with
  | next v converges stops timesOut advanced =>
      obtain ⟨answered, point, y, violation, normE⟩ := simulates.evaluated functional filled v
      obtain ⟨weights, updated, rfl⟩ := Loop.advance_eq_ok advanced
      rw [v.state_weights, v.state_violation, v.state_oldNormE, violation, normE] at updated
      have next : weights = b.nextWeights t g before? := by
        have asked : a.state.weights = b.asked.weights := congrArg Subproblem.weights simulates.asked
        rw [asked, simulates.first] at updated
        rw [Stage.nextWeights]
        cases before? with
        | none =>
            -- nothing in the history counts
            rw [Option.isNone_none, Weights.update_of_first] at updated
            exact (congrArg Written.kept updated).symm
        | some before =>
            rw [simulates.violation before rfl, simulates.oldNormE before rfl] at updated
            exact (congrArg Written.kept updated).symm
      refine ⟨?_, by rw [Stage.next, answered], rfl, ?_, ?_⟩
      · show Subproblem.mk weights (larger (_ * v.state.tolerance) _) v.state.x v.state.y = _
        rw [next, v.state_tolerance, v.state_x, y, ← point, Stage.next, ← simulates.asked]
        rfl
      · rintro _ ⟨⟩
        exact violation
      · rintro _ ⟨⟩
        exact normE

end Simulates

section Runs

variable {x y weights : List R} {solver : S} {watcher : O}

/-- A solve starts at the first stage. -/
theorem simulates_first (chosen : t.firstWeights x = .done weights ()) :
    t.Simulates g 0 none (t.stage g x y solver 0) (t.first x y weights solver watcher) where
  asked := by
    rw [startWeights_eq chosen]
    rfl
  solver := rfl
  first := rfl
  violation := nofun
  oldNormE := nofun

/-- Every snapshot of a solve is at the stage of its number. -/
theorem Starts.simulates [Ordered R] {path : Nat → Snapshot R S O} {last k : Nat} {run : Run R S O}
    (starts : t.Starts x y solver watcher run weights path last) (functional : t.Functional g)
    (within : k ≤ last) :
    t.Simulates g k (t.stageBefore g x y solver k) (t.stage g x y solver k) (path k) := by
  refine (starts.follows.forall_of_step
    (fun k a => t.Filled a.state ∧
      t.Simulates g k (t.stageBefore g x y solver k) (t.stage g x y solver k) a)
    ⟨filled_first starts.good starts.length starts.chosen solver watcher,
      simulates_first starts.chosen⟩ ?_ k within).2
  intro k a b continues ⟨filled, simulates⟩
  rw [stage_succ]
  exact ⟨continues.filled functional.tidy starts.good filled,
    simulates.next functional filled continues⟩

/-- The round of an iteration is that of its stage. -/
theorem Simulates.round_eq {k : Nat} {before? : Option (Stage R S)} {b : Stage R S}
    {a : Snapshot R S O} (simulates : t.Simulates g k before? b a) (functional : t.Functional g)
    (filled : t.Filled a.state) (v : t.Evaluated a) : v.round k = b.round t g k := by
  rw [Stage.round, simulates.event_eq functional filled v,
    (simulates.evaluated functional filled v).1, ← simulates.asked]
  rfl

/-- A round that ends a solve is that of its stage. -/
theorem Simulates.last_eq {k : Nat} {before? : Option (Stage R S)} {b : Stage R S}
    {a : Snapshot R S O} (simulates : t.Simulates g k before? b a) (functional : t.Functional g)
    (filled : t.Filled a.state) {run : Run R S O} (ends : t.Ends k a run) {r : Round R}
    (rounds : run.rounds = a.past.reverse ++ [r]) : r = b.round t g k := by
  by_cases silent : r.event = none
  · obtain ⟨r', rounds', asked, answer⟩ := ends.rounds_eq
    rw [rounds] at rounds'
    cases List.append_cancel_left rounds'
    have none : b.event? t g k = none := by
      refine simulates.event_eq_none fun x report answered => ?_
      refine (ends.silent_inv rounds silent answered).resolve_right ?_
      rintro ⟨e, failed⟩
      obtain ⟨_, _, updated⟩ := functional.update_total (filled.moved x report)
      rw [updated] at failed
      cases failed
    rw [Stage.round, none, ← simulates.asked, ← simulates.answer_eq, ← asked, ← answer, ← silent]
  · obtain ⟨v, rfl, -⟩ := ends.evaluated_inv rounds silent
    exact simulates.round_eq functional filled v

/-- A solve on vectors that are written over is the solve, and the solve is the recurrence: its
rounds are those of the stages, and a solution at the limit is the stage after the last. -/
theorem run_eq_stages [Ordered R] (functional : t.Functional g) (layers : List Layer) (x y : List R)
    (solver : S) (watcher : O) :
    t.runInPlace layers x y solver watcher = t.run layers x y solver watcher ∧
    (∀ k r, (t.run layers x y solver watcher).rounds[k]? = some r →
      r = (t.stage g x y solver k).round t g k) ∧
    ∀ sol, (t.run layers x y solver watcher).outcome = .ok sol → sol.status = .maxIter →
      (⟨sol.weights, sol.tolerance, sol.x, sol.y⟩ : Subproblem R) =
        (t.stage g x y solver t.settings.maxIter).asked := by
  refine ⟨runInPlace_eq functional.tidy layers x y solver watcher, fun k r round => ?_,
    fun sol solved limit => ?_⟩
  · obtain ⟨weights, path, last, starts⟩ := t.starts_of_round round
    rcases starts.follows.round_cases rfl round with earlier | ⟨rfl, -, ends, rounds⟩
    · have within := Nat.le_of_lt earlier
      obtain ⟨v, here, -⟩ := starts.follows.getElem?_rounds rfl earlier
      rw [round] at here
      cases here
      exact (starts.simulates functional within).round_eq functional
        (starts.filled functional.tidy within) v
    · exact (starts.simulates functional (Nat.le_refl k)).last_eq functional
        (starts.filled functional.tidy (Nat.le_refl k)) ends rounds
  · obtain ⟨weights, path, last, starts⟩ := t.starts_of_ok solved
    obtain ⟨rfl, rfl⟩ := starts.follows.limit_inv solved limit
    exact (starts.simulates functional (Nat.le_refl _)).asked

/-- Two constraints on one variable, which the inner solver moves towards zero. -/
def nearing : Task Float (ReplayState Float) Unit where
  problem := .ofPrimitives
    ⟨.unbounded 1,
      ⟨[.between 0.0 0.0 Scalar.zero_le_zero, .between (-1.0) 1.0 Scalar.neg_one_le_one]⟩⟩
    { cost? := some fun x => .ok (x.headD 0.0)
      constr? := some fun x => overwriteAll [x.headD 0.0, 2.0 * x.headD 0.0] }
  settings := { OuterSettings.default with maxIter := 3 }
  inner := Replay.solver [
    { x? := some [3.0], report := ⟨.converged, 0.0, 1⟩ },
    { x? := some [2.0], report := ⟨.converged, 0.0, 1⟩ },
    { x? := some [1.0], report := ⟨.converged, 0.0, 1⟩ }]
  watch := .silent
  clock := quickClock

theorem nearing_functional : nearing.Functional fun x => [x.headD 0.0, 2.0 * x.headD 0.0] :=
  .of_kernel rfl
    (fun {x buffer} length => by
      have two : [x.headD 0.0, 2.0 * x.headD 0.0].length = buffer.length := length.symm
      show overwriteAll _ buffer = _
      rw [overwriteAll, if_pos two])
    fun _ => rfl

/-- The third solve is asked what the third stage says, after weights that grew unequally. -/
theorem nearing_run_eq_stages :
    let g x := [x.headD 0.0, 2.0 * x.headD 0.0]
    ∃ r, (nearing.runInPlace [] [4.0] [0.0, 0.0] {} ()).rounds[2]? = some r ∧
      r.asked.weights = [80.0, 200.0] ∧ r.asked.y = [30.0, 70.0] ∧
      r = (nearing.stage g [4.0] [0.0, 0.0] {} 2).round nearing g 2 := by
  have shown : ((nearing.run [] [4.0] [0.0, 0.0] {} ()).rounds[2]?.map fun r =>
      (r.asked.weights, r.asked.y)) = some ([80.0, 200.0], [30.0, 70.0]) := by decide +kernel
  obtain ⟨r, round, seen⟩ := Option.map_eq_some_iff.1 shown
  obtain ⟨weights, y⟩ := Prod.mk.inj seen
  obtain ⟨same, stages, -⟩ := nearing.run_eq_stages nearing_functional [] [4.0] [0.0, 0.0] {} ()
  exact ⟨r, by rw [same, round], weights, y, stages 2 r round⟩

end Runs

end Task

end AugmentedLagrangian
