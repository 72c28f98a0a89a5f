/- # AugmentedLagrangian.Proofs.Tightening — the tolerances that a solve asks for

The tolerance of an iteration comes from the one before and from nothing else, so what the inner
solver is asked for is fixed by the settings up to where the solve ends: `Task.tolerances_eq`.

Shrinking gives a tolerance that is at least `ε`, and no larger than the one it started from as soon
as that was at least `ε` too.  So the tolerances tighten from the second iteration on.  The first is
`ε₀`, which nothing compares with `ε`: the solves whose tolerances do not tighten are those that ask
for a first tolerance below `ε`, which the second then raises (`Task.tightens_iff`).
-/
import Mathlib.Data.List.Iterate
import AugmentedLagrangian.Proofs.Scaling
import AugmentedLagrangian.Proofs.Tolerance
import AugmentedLagrangian.Proofs.Trajectory

namespace AugmentedLagrangian

set_option autoImplicit false

open Scalar (Ordered Shrinking)

variable {R S O : Type} [Scalar R]

omit [Scalar R] in
/-- The tolerances that the inner solver is asked for, in order. -/
def Run.tolerances (run : Run R S O) : List R :=
  run.rounds.map fun r => r.asked.tolerance

/-- No tolerance is larger than one before it, and all are at least the one that is wanted in the
end. -/
structure Tightens (wanted : R) (tolerances : List R) : Prop where
  falls : tolerances.Pairwise fun before after => after ≤ before
  reaches : ∀ tolerance ∈ tolerances, wanted ≤ tolerance

namespace Task

variable {t : Task R S O}

/-! ## The tolerances of a run -/

theorem Follows.state_tolerance {first : Snapshot R S O} {path : Nat → Snapshot R S O}
    {last k : Nat} {run : Run R S O} (follows : t.Follows first path last run) (within : k ≤ last) :
    (path k).state.tolerance = t.shrunk^[k] first.state.tolerance := by
  refine follows.forall_of_step
    (fun k a => a.state.tolerance = t.shrunk^[k] first.state.tolerance) rfl ?_ k within
  intro k a b continues tolerance
  obtain ⟨last, past, rounds, shrinks⟩ := continues.shrinks k.succ_ne_zero
  obtain ⟨v, past', -⟩ := continues.past_eq
  rw [past'] at rounds
  cases rounds
  rw [shrinks, Function.iterate_succ_apply', ← tolerance]
  rfl

variable (t)

/-- The inner solver is asked for the first tolerance, and then for what comes after it. -/
theorem tolerances_eq (layers : List Layer) (x y : List R) (solver : S) (watcher : O) :
    let run := t.run layers x y solver watcher
    run.tolerances = List.iterate t.shrunk t.settings.initialTolerance run.rounds.length := by
  intro run
  apply List.ext_getElem?
  intro k
  rw [Run.tolerances, List.getElem?_map]
  cases round : run.rounds[k]? with
  | none =>
      have past : run.rounds.length ≤ k := List.getElem?_eq_none_iff.1 round
      rw [List.getElem?_eq_none (by rw [List.length_iterate]; exact past)]
      rfl
  | some r =>
      have within : k < run.rounds.length := (List.getElem?_eq_some_iff.1 round).1
      obtain ⟨weights, path, last, starts⟩ := t.starts_of_round round
      obtain ⟨before, asked, -⟩ := starts.follows.round_eq rfl round
      rw [List.getElem?_iterate _ _ _ _ within, Option.map_some, asked]
      exact congrArg some (starts.follows.state_tolerance before)

/-! ## What shrinking does -/

variable {t}

theorem epsilon_le_shrunk [Ordered R] (good : t.settings.Admissible) (tolerance : R) :
    t.settings.epsilon ≤ t.shrunk tolerance :=
  Scalar.le_larger_right (Scalar.isNaN_right (Scalar.le_of_lt good.epsilon))

/-- A tolerance that is at least `ε` does not grow. -/
theorem shrunk_le [Shrinking R] (good : t.settings.Admissible) {tolerance : R}
    (wanted : t.settings.epsilon ≤ tolerance) : t.shrunk tolerance ≤ tolerance := by
  obtain ⟨positive, most⟩ := good.toleranceUpdateFactor
  exact Scalar.larger_le
    (Shrinking.scaled_le positive most (Scalar.lt_of_lt_of_le good.epsilon wanted)) wanted

theorem tightens_iterate [Shrinking R] (good : t.settings.Admissible) {tolerance : R}
    (wanted : t.settings.epsilon ≤ tolerance) (n : Nat) :
    Tightens t.settings.epsilon (List.iterate t.shrunk tolerance n) ∧
      ∀ later ∈ List.iterate t.shrunk tolerance n, later ≤ tolerance := by
  induction n generalizing tolerance with
  | zero => exact ⟨⟨.nil, List.forall_mem_nil _⟩, List.forall_mem_nil _⟩
  | succ n ih =>
      obtain ⟨⟨falls, reaches⟩, below⟩ := ih (epsilon_le_shrunk good tolerance)
      have falling : ∀ later ∈ List.iterate t.shrunk (t.shrunk tolerance) n,
          later ≤ tolerance := by
        intro later member
        apply Scalar.le_trans (below later member)
        exact shrunk_le good wanted
      have same : tolerance ≤ tolerance := Scalar.le_refl_of_number (Scalar.isNaN_right wanted)
      simp only [List.iterate, List.forall_mem_cons]
      refine ⟨⟨.cons falling falls, ?_⟩, same, falling⟩
      simp only [List.forall_mem_cons]
      exact ⟨wanted, reaches⟩

variable (t)

/-- The tolerances that a solve asks for tighten from the second on, and all of them do exactly if
there are none or the first is at least `ε`. -/
theorem tightens_iff [Shrinking R] (layers : List Layer) (x y : List R) (solver : S)
    (watcher : O) :
    let run := t.run layers x y solver watcher
    Tightens t.settings.epsilon run.tolerances.tail ∧
      (Tightens t.settings.epsilon run.tolerances ↔
        run.rounds = [] ∨ t.settings.epsilon ≤ t.settings.initialTolerance) := by
  intro run
  have asked : run.tolerances = _ := t.tolerances_eq layers x y solver watcher
  have none : Tightens t.settings.epsilon ([] : List R) := ⟨.nil, List.forall_mem_nil _⟩
  rcases t.run_starts layers x y solver watcher with ⟨weights, accepted, -⟩ | ⟨refused, -⟩
  · have good := (Loop.accept_eq_ok.1 accepted).1
    rw [asked]
    cases rounds : run.rounds with
    | nil => exact ⟨none, fun _ => .inl rfl, fun _ => none⟩
    | cons r rounds =>
        rw [List.length_cons]
        refine ⟨(tightens_iterate good (epsilon_le_shrunk good _) _).1, fun tightens => .inr ?_, ?_⟩
        · exact tightens.reaches _ (.head _)
        · rintro (rounds | wanted)
          · cases rounds
          · exact (tightens_iterate good wanted _).1
  · have empty : run.tolerances = [] := by rw [Run.tolerances, refused, List.map_nil]
    rw [empty]
    exact ⟨none, fun _ => .inl refused, fun _ => none⟩

/-- The first tolerance is below `ε`. -/
def eager : Task Float (ReplayState Float) Unit where
  problem := .ofPrimitives ⟨.unbounded 1, .unbounded 0⟩ {}
  settings :=
    { OuterSettings.default with epsilon := 1.0, initialTolerance := 0.5, maxIter := 2 }
  inner := Replay.solver [{ report := ⟨.converged, 2.0, 1⟩ }]
  watch := .silent
  clock := quickClock

theorem eager_tightens_iff :
    let run := eager.run [] [0.0] [] {} ()
    Tightens eager.settings.epsilon run.tolerances.tail ∧
      (Tightens eager.settings.epsilon run.tolerances ↔
        run.rounds = [] ∨ eager.settings.epsilon ≤ eager.settings.initialTolerance) :=
  eager.tightens_iff [] [0.0] [] {} ()

/-- The first tolerance is below `ε`, and the second is larger. -/
theorem eager_not_tightens :
    Loop.accept eager.settings eager.problem.constraints [0.0] [] = .ok () ∧
      eager.settings.epsilon = 1.0 ∧
      (eager.run [] [0.0] [] {} ()).tolerances = [0.5, 1.0] ∧
      ¬ Tightens eager.settings.epsilon (eager.run [] [0.0] [] {} ()).tolerances := by
  have asked : (eager.run [] [0.0] [] {} ()).tolerances = [0.5, 1.0] := by
    decide +kernel
  refine ⟨rfl, rfl, asked, fun tightens => ?_⟩
  rw [asked] at tightens
  exact absurd (tightens.reaches 0.5 (.head _)) (by decide +kernel)

end Task

end AugmentedLagrangian
