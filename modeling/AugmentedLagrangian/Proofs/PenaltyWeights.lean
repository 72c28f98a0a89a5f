/- # AugmentedLagrangian.Proofs.PenaltyWeights — the penalty weights that a run shows

The vectors that a run shows are `Steady` if all weights are positive and at most the cap, and none
shrinks from one vector to the next.  Growth preserves this, so a run is steady if the weights that
it starts from are at most the cap.

What an update cannot repair is where the weights start.  A first weight that is chosen lies within
its bounds, but one that is given is not compared with the cap: the runs that are not steady are
those with constraints and a given first weight beyond the cap (`Task.run_steady_iff`).
-/
import Mathlib.Data.List.Chain
import AugmentedLagrangian.Inner.Replay
import AugmentedLagrangian.Proofs.Double
import AugmentedLagrangian.Proofs.WeightGrowth

namespace AugmentedLagrangian

set_option autoImplicit false

open Scalar (Ordered Growing)

/-! ## What a run shows -/

section Shown

variable {R : Type} [Scalar R]

/-- The weights that a round shows. -/
def Round.shown (r : Round R) : List (List R) :=
  r.asked.weights :: (r.event.map Event.weights).toList

/-- The weights that an outcome shows. -/
def shownAtEnd : Except SolveError (Solution R) → List (List R)
  | .ok sol => [sol.weights]
  | .error _ => []

/-- The weights that a run shows, in order. -/
def Run.shown {S O : Type} (run : Run R S O) : List (List R) :=
  run.rounds.flatMap Round.shown ++ shownAtEnd run.outcome

/-- What is shown before an iteration, with the weights that it starts from. -/
def Snapshot.shown {S O : Type} (a : Snapshot R S O) : List (List R) :=
  a.past.reverse.flatMap Round.shown ++ [a.state.weights]

/-- All weights are positive and at most the cap, and none shrinks from one vector to the next. -/
structure Steady (cap : R) (shown : List (List R)) : Prop where
  within : ∀ weights ∈ shown, ∀ weight ∈ weights, 0.0 < weight ∧ weight ≤ cap
  rises : shown.IsChain (List.Forall₂ (· ≤ ·))

namespace Steady

variable {cap : R} {shown : List (List R)} {weights weights' : List R}

/-- A steady trail goes on with weights that have not shrunk and are at most the cap. -/
theorem extend (steady : Steady cap (shown ++ [weights]))
    (rises : List.Forall₂ (· ≤ ·) weights weights')
    (within : ∀ weight ∈ weights', 0.0 < weight ∧ weight ≤ cap) :
    Steady cap (shown ++ [weights] ++ [weights']) := by
  constructor
  · intro ws member
    rcases List.mem_append.1 member with member | member
    · exact steady.within ws member
    · rw [List.mem_singleton.1 member]
      exact within
  · rw [List.append_assoc, List.singleton_append, List.isChain_split]
    exact ⟨steady.rises, List.isChain_pair.2 rises⟩

theorem last (steady : Steady cap (shown ++ [weights])) :
    ∀ weight ∈ weights, 0.0 < weight ∧ weight ≤ cap :=
  steady.within weights (List.mem_append_right _ (List.mem_singleton_self _))

theorem repeat_last [Ordered R] (steady : Steady cap (shown ++ [weights])) (n : Nat) :
    Steady cap (shown ++ [weights] ++ List.replicate n weights) := by
  have same : List.Forall₂ (· ≤ ·) weights weights := List.forall₂_same.2 fun weight member =>
    Scalar.le_refl_of_number (Scalar.isNaN_left (steady.last weight member).2)
  induction n generalizing shown with
  | zero => simpa using steady
  | succ n ih =>
      rw [List.replicate_succ, List.append_cons]
      exact ih (steady.extend same steady.last)

end Steady

end Shown

namespace Task

variable {R S O : Type} [Scalar R] {t : Task R S O}

theorem Evaluated.shown {a : Snapshot R S O} (v : t.Evaluated a) (k : Nat) :
    (v.rounds k).reverse.flatMap Round.shown = a.shown ++ [a.state.weights] := by
  simp [rounds, Snapshot.shown, Round.shown, event, LoopState.event, LoopState.subproblem,
    v.state_weights]

/-- A run that ends after an event shows the weights of the event, and a solution's are the same. -/
theorem Evaluated.shown_conclude {a : Snapshot R S O} (v : t.Evaluated a) (k : Nat)
    {outcome : Except SolveError (Solution R)}
    (same : ∀ sol, outcome = .ok sol → sol.weights = v.state.weights) :
    ∃ n, (v.conclude k outcome).shown = a.shown ++ List.replicate n a.state.weights := by
  rw [Run.shown, conclude, Loop.finish, v.shown]
  cases outcome with
  | error e => exact ⟨1, List.append_nil _⟩
  | ok sol =>
      refine ⟨2, ?_⟩
      rw [shownAtEnd, same sol rfl, v.state_weights, List.append_assoc]
      rfl

theorem Continues.shown {k : Nat} {a b : Snapshot R S O} (continues : t.Continues k a b) :
    b.shown = a.shown ++ [a.state.weights] ++ [b.state.weights] := by
  cases continues with
  | next v converges stops timesOut advanced => rw [Snapshot.shown, v.shown]

/-- An iteration that ends a solve shows no other weights than those that it starts from. -/
theorem Ends.shown {k : Nat} {a : Snapshot R S O} {run : Run R S O} (ends : t.Ends k a run) :
    ∃ n, run.shown = a.shown ++ List.replicate n a.state.weights := by
  cases ends with
  | refused answered =>
      refine ⟨0, ?_⟩
      simp [Run.shown, shownAtEnd, Loop.finish, Snapshot.shown, Round.shown, LoopState.subproblem]
  | notFinite answered status =>
      refine ⟨1, ?_⟩
      simp [Run.shown, shownAtEnd, Loop.finish, Snapshot.shown, Round.shown, LoopState.subproblem,
        LoopState.solution, LoopState.moved]
  | unevaluated answered finite failed =>
      refine ⟨0, ?_⟩
      simp [Run.shown, shownAtEnd, Loop.finish, Snapshot.shown, Round.shown, LoopState.subproblem]
  | converged v converges =>
      exact v.shown_conclude k fun sol same => by cases same; rfl
  | stopped v converges stops =>
      exact v.shown_conclude k fun sol same => by cases same; rfl
  | timedOut v converges stops timesOut =>
      exact v.shown_conclude k fun sol same => by cases same; rfl
  | unweighted v converges stops timesOut failed =>
      exact v.shown_conclude k fun sol same => by cases same

/-- Every snapshot that a solve reaches from weights up to the cap is steady so far. -/
theorem Reaches.steady [Growing R] (good : t.settings.Admissible) {first a : Snapshot R S O}
    {k : Nat} (reached : t.Reaches first k a) (weighted : t.Weighted first.state.weights)
    (steady : Steady t.settings.maxPenalty first.shown) : Steady t.settings.maxPenalty a.shown := by
  induction reached with
  | start => exact steady
  | @step k a b reached continues ih =>
      obtain ⟨grow, -⟩ := continues.weights_grow good (reached.weighted good weighted)
      have bounded := (List.forall₂_and_left _ _).2 ⟨ih.last, grow⟩
      rw [continues.shown]
      refine Steady.extend (ih.repeat_last 1) (bounded.imp ?_) ?_
      · exact fun _ _ ⟨old, grows⟩ => grows.rises old.1 old.2
      · exact Weights.forall_carried grow
          (fun _ _ grows old => ⟨grows.positive good old.1, grows.capped old.2⟩) ih.last

/-- What has been shown stays shown. -/
theorem Reaches.shown {first a : Snapshot R S O} {k : Nat} (reached : t.Reaches first k a) :
    ∃ rest, a.shown = first.shown ++ rest := by
  induction reached with
  | start => exact ⟨[], (List.append_nil _).symm⟩
  | step _ continues ih =>
      obtain ⟨rest, shown⟩ := ih
      exact ⟨_, by rw [continues.shown, shown, List.append_assoc, List.append_assoc]⟩

/-- A solve shows what it reaches, and nothing after that but its last weights. -/
theorem Concludes.shown {first : Snapshot R S O} {run : Run R S O}
    (concludes : t.Concludes first run) :
    ∃ k a n, t.Reaches first k a ∧ run.shown = a.shown ++ List.replicate n a.state.weights := by
  cases concludes with
  | limited reached =>
      exact ⟨_, _, 0, reached, by simp [Run.shown, shownAtEnd, Loop.finish,
        Snapshot.shown, LoopState.solution]⟩
  | ended reached within ends =>
      obtain ⟨n, shown⟩ := ends.shown
      exact ⟨_, _, n, reached, shown⟩

/-- A solve from its first weights is steady exactly if those are at most the cap. -/
theorem Concludes.steady_iff [Growing R] (good : t.settings.Admissible) {x y weights : List R}
    {solver : S} {watcher : O} {run : Run R S O} (weighted : t.Weighted weights)
    (concludes : t.Concludes (t.first x y weights solver watcher) run) :
    Steady t.settings.maxPenalty run.shown ↔
      ∀ weight ∈ weights, weight ≤ t.settings.maxPenalty := by
  obtain ⟨k, a, n, reached, shown⟩ := concludes.shown
  rw [shown]
  constructor
  · intro steady weight member
    obtain ⟨rest, before⟩ := reached.shown
    refine (steady.within weights ?_ weight member).2
    rw [before]
    exact List.mem_append_left _ (List.mem_append_left _ (List.mem_singleton_self _))
  · intro capped
    refine Steady.repeat_last (reached.steady good weighted ⟨?_, List.isChain_singleton _⟩) n
    intro ws member weight isWeight
    rw [List.mem_singleton.1 member] at isWeight
    exact ⟨weighted.positive weight isWeight, capped weight isWeight⟩

/-- The first weights are at most the cap exactly if a given first weight is, or there are no
constraints. -/
theorem first_capped_iff [Ordered R] (good : t.settings.Admissible) {x weights : List R}
    (chosen : t.firstWeights x = .done weights ()) :
    (∀ weight ∈ weights, weight ≤ t.settings.maxPenalty) ↔
      t.problem.m = 0 ∨ ∀ σ ∈ t.settings.initialPenalty, σ ≤ t.settings.maxPenalty := by
  obtain ⟨weight, rfl, none | first⟩ := firstWeights_eq good chosen
  · simp [none]
  have shared : (∀ w ∈ List.replicate t.problem.m weight, w ≤ t.settings.maxPenalty) ↔
      t.problem.m = 0 ∨ weight ≤ t.settings.maxPenalty := by
    simp only [List.mem_replicate, ne_eq, and_imp, forall_eq_apply_imp_iff]
    exact ⟨fun all => (em _).imp_right all, fun either some => either.resolve_left some⟩
  rw [shared]
  cases first with
  | given given => simp [given]
  | chosen none least most => simp [none, most]

variable (t)

/-- An accepted solve is steady exactly if it has no constraints, or a given first weight is at most
the cap. -/
theorem run_steady_iff [Growing R] {layers : List Layer} {x y : List R} {solver : S} {watcher : O}
    (accepted : Loop.accept t.settings t.problem.constraints x y = .ok ()) :
    Steady t.settings.maxPenalty (t.run layers x y solver watcher).shown ↔
      t.problem.m = 0 ∨ ∀ σ ∈ t.settings.initialPenalty, σ ≤ t.settings.maxPenalty := by
  have good := (Loop.accept_eq_ok.1 accepted).1
  have solves := t.run_solves layers x y solver watcher
  generalize t.run layers x y solver watcher = run at solves ⊢
  cases solves with
  | refused refused =>
      rw [accepted] at refused
      cases refused
  | unweighted _ failed =>
      have none := firstWeights_failed failed
      simp only [none, Option.mem_def, reduceCtorEq, false_implies, implies_true, or_true, iff_true]
      exact ⟨List.forall_mem_nil _, .nil⟩
  | iterated _ chosen concludes =>
      rw [concludes.steady_iff good (first_weighted good chosen), first_capped_iff good chosen]

/-- One constraint that is never met, and a given first weight beyond the cap. -/
def overweight : Task Float (ReplayState Float) Unit where
  problem := .ofPrimitives ⟨.unbounded 1, ⟨[⟨0.0, 0.0, by decide⟩]⟩⟩
    { constr? := some fun x g => overwrite x g }
  settings :=
    { OuterSettings.default with initialPenalty := some 10.0, maxPenalty := 1.0, maxIter := 2 }
  inner := Replay.solver []
  watch := .silent
  clock := quickClock

theorem overweight_steady_iff :
    Loop.accept overweight.settings overweight.problem.constraints [1.0] [0.0] = .ok () ∧
      (Steady overweight.settings.maxPenalty (overweight.run [] [1.0] [0.0] {} ()).shown ↔
        overweight.problem.m = 0 ∨
          ∀ σ ∈ overweight.settings.initialPenalty, σ ≤ overweight.settings.maxPenalty) :=
  ⟨rfl, overweight.run_steady_iff rfl⟩

/-- The first round shows a weight beyond the cap, and the second a smaller one. -/
theorem overweight_not_steady :
    Loop.accept overweight.settings overweight.problem.constraints [1.0] [0.0] = .ok () ∧
      (overweight.run [] [1.0] [0.0] {} ()).shown = [[10.0], [10.0], [1.0], [1.0], [1.0]] ∧
      overweight.settings.maxPenalty = 1.0 ∧
      ¬ Steady overweight.settings.maxPenalty (overweight.run [] [1.0] [0.0] {} ()).shown := by
  have shown : (overweight.run [] [1.0] [0.0] {} ()).shown =
      [[10.0], [10.0], [1.0], [1.0], [1.0]] := by
    decide +kernel
  refine ⟨rfl, shown, rfl, fun steady => ?_⟩
  rw [shown] at steady
  have capped := (steady.within [10.0] (.head _) 10.0 (.head _)).2
  exact absurd capped (by decide +kernel)

end Task

end AugmentedLagrangian
