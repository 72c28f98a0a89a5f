/- # AugmentedLagrangian.Proofs.History — what the rounds say about the state

The state of a solve keeps constraint values, the last violation and its norm in buffers that are
overwritten and handed on.  What these buffers hold can be told from the rounds so far, which show
the points, the multipliers and the weights: `Task.values` and `Task.violation` compute it from
them.  `Task.Starts.remembers` says that the buffers hold nothing else at any snapshot, so what an
iteration compares its violation with is the violation of the iteration before.
-/
import AugmentedLagrangian.Proofs.Lengths
import AugmentedLagrangian.Proofs.Trajectory

namespace AugmentedLagrangian.Task

set_option autoImplicit false

open Scalar (Ordered Growing normInf)

variable {R S O : Type} [Scalar R] (t : Task R S O)

/-- The constraint values after some rounds, which stand last first.  Each evaluation is handed the
values before it, of which it may leave entries as they were. -/
def values : List (Round R) → List R
  | [] => List.replicate t.problem.m 0.0
  | r :: past =>
    match r.answer with
    | .ok (x, _) => (t.problem.constr x (values past)).kept
    | .error _ => values past

/-- The constraint violation of the last of some rounds, which stand last first: how far the values
lie from where their shift by the multipliers over the weights is projected to. -/
def violation : List (Round R) → List R
  | [] => List.replicate t.problem.m 0.0
  | r :: past =>
    Multipliers.residual t.problem.constraints.values.intervals (t.values (r :: past)) r.asked.y
      r.asked.weights

/-- The violation of iteration `k` of a run. -/
def violationIn (run : Run R S O) (k : Nat) : List R :=
  t.violation (run.rounds.take (k + 1)).reverse

/-- The buffers of a snapshot hold what its rounds say. -/
structure Remembers (a : Snapshot R S O) : Prop where
  values : a.state.values = t.values a.past
  violation : a.state.violation = t.violation a.past
  oldNormE : a.past ≠ [] → a.state.oldNormE = normInf (t.violation a.past)

variable {t}

/-- With constraints, the multipliers are replaced by an evaluation. -/
theorem Updates.exists_evaluated {s s' : LoopState R} {violation : List R}
    (updates : t.Updates s s' violation) (some : s.y ≠ []) :
    ∃ values shifted distance,
      t.problem.constr s.x s.values = .done values () ∧
      t.problem.shifted values s.y s.weights = .done shifted distance ∧
      violation = Multipliers.residual t.problem.constraints.values.intervals values s.y
        s.weights ∧
      s' = { s with
        y := Multipliers.clip t.settings.maxMultiplier t.problem.constraints.values.lowers
          t.problem.constraints.values.uppers shifted
        values
        normE := normInf violation } := by
  cases updates with
  | unconstrained none => exact absurd none some
  | evaluated _ constr kernel residual => exact ⟨_, _, _, constr, kernel, residual, rfl⟩

theorem Filled.y_ne_nil {s : LoopState R} (filled : t.Filled s) (some : 0 < t.problem.m) :
    s.y ≠ [] := by
  intro none
  have length := filled.y
  rw [none] at length
  exact Nat.ne_of_lt some length

/-- With constraints, the norm is that of the violation. -/
theorem Evaluated.normE_eq {a : Snapshot R S O} (v : t.Evaluated a) (some : 0 < t.problem.m)
    (filled : t.Filled a.state) : v.state.normE = normInf v.violation := by
  obtain ⟨values, shifted, distance, -, -, -, same⟩ :=
    v.updates.exists_evaluated (filled.y_ne_nil some)
  rw [same]

/-- What an iteration comes to is what the rounds with its own say. -/
theorem Evaluated.remembers {a : Snapshot R S O} (v : t.Evaluated a) (k : Nat)
    (some : 0 < t.problem.m) (filled : t.Filled a.state) (remembers : t.Remembers a) :
    v.state.values = t.values (v.round k :: a.past) ∧
      v.violation = t.violation (v.round k :: a.past) ∧
      v.state.normE = normInf (t.violation (v.round k :: a.past)) := by
  obtain ⟨values, shifted, distance, constr, -, residual, same⟩ :=
    v.updates.exists_evaluated (filled.y_ne_nil some)
  have kept : t.values (v.round k :: a.past) = values := by
    show (t.problem.constr v.x (t.values a.past)).kept = values
    rw [← remembers.values]
    exact congrArg Written.kept constr
  have violation : v.violation = t.violation (v.round k :: a.past) := by
    rw [residual, Task.violation, kept]
    rfl
  rw [same, ← violation, kept]
  exact ⟨rfl, rfl, rfl⟩

theorem Continues.remembers {k : Nat} {a b : Snapshot R S O} (continues : t.Continues k a b)
    (some : 0 < t.problem.m) (filled : t.Filled a.state) (remembers : t.Remembers a) :
    t.Remembers b := by
  cases continues with
  | next v converges stops timesOut advanced =>
      obtain ⟨values, violation, normE⟩ := v.remembers k some filled remembers
      obtain ⟨weights, -, rfl⟩ := Loop.advance_eq_ok advanced
      exact ⟨values, violation, fun _ => normE⟩

/-- The rounds up to an iteration that goes on are those of the snapshot after it. -/
theorem Follows.violationIn_eq {first : Snapshot R S O} {path : Nat → Snapshot R S O} {last k : Nat}
    {run : Run R S O} (follows : t.Follows first path last run) (fresh : first.past = [])
    (within : k < last) : t.violationIn run k = t.violation (path (k + 1)).past := by
  rw [violationIn, follows.take_rounds fresh within, List.reverse_reverse]

/-- The first snapshot holds no rounds, and its buffers hold zeros. -/
theorem remembers_first (x y weights : List R) (solver : S) (watcher : O) :
    t.Remembers (t.first x y weights solver watcher) :=
  ⟨rfl, rfl, fun some => absurd rfl some⟩

namespace Starts

variable {x y weights : List R} {solver : S} {watcher : O} {run : Run R S O}
  {path : Nat → Snapshot R S O} {last k : Nat}

/-- The vectors of a solve are filled at every snapshot. -/
theorem filled [Ordered R] (starts : t.Starts x y solver watcher run weights path last)
    (tidy : t.problem.Tidy) (within : k ≤ last) : t.Filled (path k).state :=
  (starts.follows.reaches within).filled tidy starts.good
    (filled_first starts.good starts.length starts.chosen solver watcher)

theorem weighted [Growing R] (starts : t.Starts x y solver watcher run weights path last)
    (within : k ≤ last) : t.Weighted (path k).state.weights :=
  (starts.follows.reaches within).weighted starts.good (first_weighted starts.good starts.chosen)

/-- At every snapshot of a solve the buffers hold what the rounds so far say. -/
theorem remembers [Ordered R] (starts : t.Starts x y solver watcher run weights path last)
    (tidy : t.problem.Tidy) (some : 0 < t.problem.m) (within : k ≤ last) : t.Remembers (path k) := by
  refine (starts.follows.forall_of_step (fun _ a => t.Filled a.state ∧ t.Remembers a)
    ⟨filled_first starts.good starts.length starts.chosen solver watcher,
      remembers_first ..⟩ ?_ k within).2
  intro k a b continues ⟨filled, remembers⟩
  exact ⟨continues.filled tidy starts.good filled, continues.remembers some filled remembers⟩

end Starts

end AugmentedLagrangian.Task
