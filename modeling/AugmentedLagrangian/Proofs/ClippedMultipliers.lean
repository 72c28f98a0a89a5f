/- # AugmentedLagrangian.Proofs.ClippedMultipliers — the multipliers that a solve can show

Whatever a problem's own kernel returns, it is clipped before anything else is done with it.  So a
multiplier that comes out of an iteration is allowed by the bounds of its constraint
(`Interval.Allows`): it is not below zero where the constraint has no lower bound, not above zero
where it has no upper one, and within the limit otherwise.  What is no number stays so.

The multipliers that a solve starts with are not clipped.  They are seen by the first inner solve,
and returned if that fails; everything else that shows multipliers comes after an iteration
(`Task.Restrains`).
-/
import AugmentedLagrangian.Inner.Replay
import AugmentedLagrangian.Proofs.Double
import AugmentedLagrangian.Proofs.History

namespace AugmentedLagrangian

set_option autoImplicit false

open Scalar (isNaN infinity Ordered Signed)

variable {R S O : Type} [Scalar R]

/-! ## Clipping -/

/-- A multiplier that a constraint with these bounds may have: no number, or in a range that ends at
zero on a side without a bound. -/
def Interval.Allows (limit : R) (d : Interval R) (v : R) : Prop :=
  isNaN v = true ∨
    (if d.lower ≤ -infinity then 0.0 else -limit) ≤ v ∧ v ≤ if infinity ≤ d.upper then 0.0 else limit

/-- Multipliers of which each is allowed by the bounds of its constraint. -/
def Box.Allows (limit : R) (values : Box R) (y : List R) : Prop :=
  ∀ (j : Nat) d v, values.intervals[j]? = some d → y[j]? = some v → d.Allows limit v

section Clip

variable [Signed R] {limit : R} (positive : 0.0 < limit)

include positive

theorem Multipliers.allows_clipOne (d : Interval R) (v : R) :
    d.Allows limit (clipOne limit d.lower d.upper v) := by
  obtain ⟨nonpos, nonneg⟩ := range_around_zero positive d.lower d.upper
  cases number : isNaN v with
  | true => exact .inl ((isNaN_clipOne ..).trans number)
  | false => exact .inr (Scalar.pin_within (Scalar.le_trans nonpos nonneg) number)

theorem Multipliers.allows_clip (values : Box R) (y : List R) :
    values.Allows limit (clip limit values.lowers values.uppers y) := by
  obtain ⟨is⟩ := values
  induction is generalizing y with
  | nil =>
      intro j d v present
      cases present
  | cons i is ih =>
      cases y with
      | nil =>
          intro j d v _ present
          cases present
      | cons v₀ y =>
          intro j d v bounds present
          cases j with
          | zero =>
              cases bounds
              cases present
              exact allows_clipOne positive i v₀
          | succ j => exact ih y j d v bounds present

end Clip

namespace Task

variable {t : Task R S O}

/-! ## One iteration -/

variable (t) in
/-- The multipliers are allowed by the bounds of the constraints, and there is one for each if the
problem leaves as many values as it finds. -/
structure Restrained (y : List R) : Prop where
  allowed : t.problem.constraints.values.Allows t.settings.maxMultiplier y
  length : t.problem.Tidy → y.length = t.problem.m

/-- Replacing the multipliers restrains them; without constraints there are none. -/
theorem Updates.allowed [Signed R] (good : t.settings.Admissible) {s s' : LoopState R}
    {violation : List R} (updates : t.Updates s s' violation) :
    t.problem.constraints.values.Allows t.settings.maxMultiplier s'.y := by
  cases updates with
  | unconstrained none =>
      intro j d v _ present
      change s.y[j]? = some v at present
      rw [none] at present
      cases present
  | evaluated some constr kernel residual =>
      exact Multipliers.allows_clip good.maxMultiplier _ _

/-- What an iteration starts from: vectors that are filled, and multipliers that are restrained
unless they are those that the solve started with. -/
structure Keeps (t : Task R S O) (k : Nat) (a : Snapshot R S O) : Prop where
  filled : t.problem.Tidy → t.Filled a.state
  restrained : k ≠ 0 → t.Restrained a.state.y

/-- The multipliers are restrained as soon as they are replaced. -/
theorem Evaluated.restrained [Signed R] (good : t.settings.Admissible) {a : Snapshot R S O}
    (v : t.Evaluated a) (filled : t.problem.Tidy → t.Filled a.state) : t.Restrained v.state.y where
  allowed := v.updates.allowed good
  length tidy := (v.updates.filled tidy ((filled tidy).moved v.x v.report)).1.y

/-- Going on keeps the multipliers. -/
theorem Continues.keeps [Signed R] (good : t.settings.Admissible) {k : Nat} {a b : Snapshot R S O}
    (continues : t.Continues k a b) (keeps : t.Keeps k a) : t.Keeps (k + 1) b where
  filled tidy := continues.filled tidy good (keeps.filled tidy)
  restrained _ := by
    cases continues with
    | next v _ _ _ advanced =>
        obtain ⟨weights, -, rfl⟩ := Loop.advance_eq_ok advanced
        exact v.restrained good keeps.filled

/-- A solution has the multipliers of an iteration that was evaluated, or those that the last one
started from because it failed. -/
theorem Ends.restrained [Signed R] (good : t.settings.Admissible) {k : Nat} {a : Snapshot R S O}
    {run : Run R S O} (ends : t.Ends k a run) (keeps : t.Keeps k a) {sol : Solution R}
    (solved : run.outcome = .ok sol) (later : ¬ (sol.status = .failed ∧ sol.outerIterations = 1)) :
    t.Restrained sol.y := by
  cases ends with
  | refused => cases solved
  | notFinite =>
      cases solved
      apply keeps.restrained
      rintro rfl
      exact later ⟨rfl, rfl⟩
  | unevaluated => cases solved
  | converged v =>
      cases solved
      exact v.restrained good keeps.filled
  | stopped v =>
      cases solved
      exact v.restrained good keeps.filled
  | timedOut v =>
      cases solved
      exact v.restrained good keeps.filled
  | unweighted => cases solved

/-! ## Whole runs -/

variable {x y weights : List R} {solver : S} {watcher : O}

theorem Starts.keeps [Signed R] {run : Run R S O} {path : Nat → Snapshot R S O} {last k : Nat}
    (starts : t.Starts x y solver watcher run weights path last) (within : k ≤ last) :
    t.Keeps k (path k) := by
  refine starts.follows.forall_of_step t.Keeps ⟨fun _ => ?_, fun started => absurd rfl started⟩ ?_ k
    within
  · exact filled_first starts.good starts.length starts.chosen solver watcher
  · intro k a b continues keeps
    exact continues.keeps starts.good keeps

variable (t) in
/-- Where a run shows multipliers that are restrained. -/
structure Restrains (run : Run R S O) : Prop where
  event : ∀ r ∈ run.rounds, ∀ e, r.event = some e → t.Restrained e.y
  /-- Every inner solve after the first. -/
  asked : ∀ r ∈ run.rounds.tail, t.Restrained r.asked.y
  /-- Every solution but that of a solve that fails at once. -/
  solution : ∀ sol, run.outcome = .ok sol →
    ¬ (sol.status = .failed ∧ sol.outerIterations = 1) → t.Restrained sol.y

/-- Every event, every inner solve after the first and every solution but that of a first failure
show restrained multipliers, whatever the problem, the inner solver and the observer are. -/
theorem run_restrains [Signed R] (t : Task R S O) (layers : List Layer) (x y : List R) (solver : S)
    (watcher : O) : t.Restrains (t.run layers x y solver watcher) where
  event r member e event := by
    obtain ⟨k, round⟩ := List.mem_iff_getElem?.1 member
    obtain ⟨weights, path, last, starts⟩ := t.starts_of_round round
    obtain ⟨within, v, rfl⟩ := starts.follows.exists_evaluated rfl round event
    exact v.restrained starts.good (starts.keeps within).filled
  asked r member := by
    obtain ⟨k, later⟩ := List.mem_iff_getElem?.1 member
    rw [List.getElem?_tail] at later
    obtain ⟨weights, path, last, starts⟩ := t.starts_of_round later
    obtain ⟨within, asked, -⟩ := starts.follows.round_eq rfl later
    rw [asked]
    exact (starts.keeps within).restrained k.succ_ne_zero
  solution sol solved later := by
    obtain ⟨weights, path, last, starts⟩ := t.starts_of_ok solved
    have keeps := starts.keeps (Nat.le_refl last)
    rcases starts.follows.ends_inv with ⟨limit, same⟩ | ⟨-, ends⟩
    · rw [same] at solved
      cases solved
      exact keeps.restrained (limit ▸ starts.good.maxIter)
    · exact ends.restrained starts.good keeps solved later

theorem zero_le_infinity : (0.0 : Float) ≤ infinity := by
  decide

/-- Three constraints, of which the last has no upper bound, and a kernel of the problem's own that
returns infinities. -/
def unruly : Task Float (ReplayState Float) Unit where
  problem := .assemble
    ⟨.unbounded 1,
      ⟨[.between 0.0 1.0 Scalar.zero_le_one, .between 0.0 1.0 Scalar.zero_le_one,
        .between 0.0 infinity zero_le_infinity]⟩⟩
    (.ok ())
    { constr? := some fun x => overwriteAll (List.replicate 3 (x.headD 0.0)) }
    { shifted? := some fun _ _ _ => .done [-infinity, infinity, infinity] 0.0 }
  settings :=
    { OuterSettings.default with initialPenalty := some 1.0, maxIter := 2, maxMultiplier := 5.0 }
  inner := Replay.solver [{ x? := some [3.0], report := ⟨.converged, 1.0, 1⟩ }]
  watch := .silent
  clock := quickClock

/-- The multipliers that it starts with are out of range, and those that it shows are not. -/
theorem unruly_restrains :
    let run := unruly.run [] [0.0] [9.0, 9.0, 9.0] {} ()
    unruly.Restrains run ∧
      run.rounds.map (fun r => (r.asked.y, r.event.map Event.y)) =
        [([9.0, 9.0, 9.0], some [-5.0, 5.0, 0.0]), ([-5.0, 5.0, 0.0], some [-5.0, 5.0, 0.0])] ∧
      run.outcome.toOption.map (fun sol => (sol.status, sol.y)) =
        some (.maxIter, [-5.0, 5.0, 0.0]) :=
  ⟨unruly.run_restrains [] [0.0] [9.0, 9.0, 9.0] {} (), by decide +kernel, by decide +kernel⟩

end Task

end AugmentedLagrangian
