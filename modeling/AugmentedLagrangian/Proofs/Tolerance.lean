/- # AugmentedLagrangian.Proofs.Tolerance — the tolerance that a solution reports

A solution reports the tolerance of the state that it is taken from.  Four of the five statuses end
an iteration before its tolerance shrinks, so they report what the inner solver was given.  A solve
that uses up its iterations ends after the last of them has shrunk the tolerance: what it reports is
the tolerance of an iteration that never took place.  `reported_tolerance_iff` is the exact
condition, in which shrinking makes no difference once the tolerance stays where it is.
-/
import AugmentedLagrangian.Inner.Replay
import AugmentedLagrangian.Proofs.Admissible
import AugmentedLagrangian.Proofs.Iteration

namespace AugmentedLagrangian.Task

set_option autoImplicit false

variable {R S O : Type} [Scalar R] (t : Task R S O)

/-- The tolerance that comes after another. -/
def shrunk (tolerance : R) : R :=
  Scalar.larger (t.settings.toleranceUpdateFactor * tolerance) t.settings.epsilon

/-- After a first round, the state's tolerance comes after the last round's. -/
def Shrinks (k : Nat) (a : Snapshot R S O) : Prop :=
  k ≠ 0 → ∃ last past, a.past = last :: past ∧ a.state.tolerance = t.shrunk last.asked.tolerance

variable {t}

theorem Continues.shrinks {k : Nat} {a b : Snapshot R S O} (continues : t.Continues k a b) :
    t.Shrinks (k + 1) b := by
  intro _
  cases continues with
  | next v converges stops timesOut advanced =>
      obtain ⟨weights, -, rfl⟩ := Loop.advance_eq_ok advanced
      refine ⟨_, a.past, rfl, ?_⟩
      show t.shrunk v.state.tolerance = t.shrunk a.state.tolerance
      rw [v.state_tolerance]

theorem Reaches.shrinks {first a : Snapshot R S O} {k : Nat} (reached : t.Reaches first k a) :
    t.Shrinks k a := by
  cases reached with
  | start => exact fun nonzero => absurd rfl nonzero
  | step _ continues => exact continues.shrinks

/-- An end within an iteration reports the tolerance of that iteration, and is no end at the
limit. -/
theorem Ends.reported {k : Nat} {a : Snapshot R S O} {run : Run R S O} (ends : t.Ends k a run)
    {sol : Solution R} (solved : run.outcome = .ok sol) :
    sol.status ≠ .maxIter ∧ ∃ last, run.rounds.getLast? = some last ∧
      sol.tolerance = last.asked.tolerance := by
  cases ends with
  | refused answered => cases solved
  | notFinite answered status =>
      cases solved
      exact ⟨by simp [LoopState.solution], _, List.getLast?_reverse, rfl⟩
  | unevaluated answered finite failed => cases solved
  | converged v converges =>
      cases solved
      exact ⟨by simp [LoopState.solution], _, List.getLast?_reverse, v.state_tolerance⟩
  | stopped v converges stops =>
      cases solved
      exact ⟨by simp [LoopState.solution], _, List.getLast?_reverse, v.state_tolerance⟩
  | timedOut v converges stops timesOut =>
      cases solved
      exact ⟨by simp [LoopState.solution], _, List.getLast?_reverse, v.state_tolerance⟩
  | unweighted v converges stops timesOut failed => cases solved

variable (t)

/-- A solution has a last round, and reports its tolerance, except that a solve at its limit reports
the next. -/
theorem reported_tolerance {layers : List Layer} {x y : List R} {solver : S} {watcher : O}
    {sol : Solution R} (solved : (t.run layers x y solver watcher).outcome = .ok sol) :
    ∃ last, (t.run layers x y solver watcher).rounds.getLast? = some last ∧
      sol.tolerance =
        if sol.status = .maxIter then t.shrunk last.asked.tolerance else last.asked.tolerance := by
  have solves := t.run_solves layers x y solver watcher
  generalize t.run layers x y solver watcher = run at solved solves ⊢
  cases solves with
  | refused => cases solved
  | unweighted => cases solved
  | iterated accepted chosen concludes =>
      cases concludes with
      | limited reached =>
          have some : t.settings.maxIter ≠ 0 := (Loop.accept_eq_ok.1 accepted).1.maxIter
          obtain ⟨last, past, rounds, tolerance⟩ := reached.shrinks some
          cases solved
          refine ⟨last, ?_, tolerance⟩
          simp [Loop.finish, rounds]
      | ended reached within ends =>
          obtain ⟨inside, last, rounds, tolerance⟩ := ends.reported solved
          exact ⟨last, rounds, by rw [if_neg inside, tolerance]⟩

/-- A solution reports the tolerance of its last round exactly if the solve did not end at its
limit, or shrinking that tolerance once more makes no difference. -/
theorem reported_tolerance_iff {layers : List Layer} {x y : List R} {solver : S} {watcher : O}
    {sol : Solution R} (solved : (t.run layers x y solver watcher).outcome = .ok sol) :
    ∃ last, (t.run layers x y solver watcher).rounds.getLast? = some last ∧
      (sol.tolerance = last.asked.tolerance ↔
        sol.status ≠ .maxIter ∨ t.shrunk last.asked.tolerance = last.asked.tolerance) := by
  obtain ⟨last, rounds, tolerance⟩ := t.reported_tolerance solved
  refine ⟨last, rounds, ?_⟩
  rw [tolerance]
  by_cases limit : sol.status = .maxIter
  · simp [limit]
  · simp [limit]

/-- One iteration is allowed, and the inner solver leaves its point as it is. -/
def single : Task Float (ReplayState Float) Unit where
  problem := .ofPrimitives ⟨.unbounded 1, .unbounded 0⟩ {}
  settings := { OuterSettings.default with maxIter := 1 }
  inner := Replay.solver [{ report := ⟨.converged, 1.0, 0⟩ }]
  watch := .silent
  clock := quickClock

theorem single_reported_tolerance_iff :
    ∃ sol last, (single.run [] [0.0] [] {} ()).outcome = .ok sol ∧
      (single.run [] [0.0] [] {} ()).rounds.getLast? = some last ∧
      (sol.tolerance = last.asked.tolerance ↔
        sol.status ≠ .maxIter ∨ single.shrunk last.asked.tolerance = last.asked.tolerance) := by
  have solved : ∃ sol, (single.run [] [0.0] [] {} ()).outcome = .ok sol := ⟨_, rfl⟩
  obtain ⟨sol, solved⟩ := solved
  obtain ⟨last, rounds, same⟩ := single.reported_tolerance_iff solved
  exact ⟨sol, last, solved, rounds, same⟩

/-- The only inner solve was given the tolerance `1`, and the solution reports another. -/
theorem single_reported_tolerance_ne :
    ∃ sol last, (single.run [] [0.0] [] {} ()).outcome = .ok sol ∧ sol.status = .maxIter ∧
      (single.run [] [0.0] [] {} ()).rounds.getLast? = some last ∧ last.asked.tolerance = 1.0 ∧
      sol.tolerance ≠ last.asked.tolerance :=
  ⟨_, _, rfl, rfl, rfl, rfl, by decide +kernel⟩

end AugmentedLagrangian.Task
