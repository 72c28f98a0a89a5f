/- # AugmentedLagrangian.Proofs.Trajectory — a solve, iteration by iteration

A solve that has started goes through snapshots, one before each iteration, and its run is made of
what these iterations do: `Task.Follows` names the snapshots of a run by their numbers.  The rounds
of a run are its iterations in order.  Round `k` is that of the iteration from snapshot `k`, and the
rounds before it are those that the snapshot holds (`Follows.take_rounds`).

So what holds of every snapshot can be said of the rounds of a run, where it can be seen.
-/
import AugmentedLagrangian.Proofs.Admissible
import AugmentedLagrangian.Proofs.Iteration

namespace AugmentedLagrangian

set_option autoImplicit false

variable {R S O : Type}

/-- What is shown of a run's solution is shown of a solution. -/
theorem Run.exists_solution {run : Run R S O} {α : Type} {f : Solution R → α} {a : α}
    (shown : run.outcome.toOption.map f = some a) : ∃ sol, run.outcome = .ok sol ∧ f sol = a := by
  cases outcome : run.outcome with
  | error e =>
      rw [outcome] at shown
      cases shown
  | ok sol =>
      rw [outcome] at shown
      exact ⟨sol, rfl, Option.some.inj shown⟩

namespace Task

variable [Scalar R] {t : Task R S O}

/-! ## Rounds -/

namespace Evaluated

variable {a : Snapshot R S O} (v : t.Evaluated a) (k : Nat)

/-- The round of an iteration that comes to its event. -/
def round : Round R :=
  ⟨a.state.subproblem, .ok (v.x, v.report), some (v.event k)⟩

theorem rounds_eq : v.rounds k = v.round k :: a.past := rfl

end Evaluated

/-- Going on adds a round, after which nothing asks for an end. -/
theorem Continues.past_eq {k : Nat} {a b : Snapshot R S O} (continues : t.Continues k a b) :
    ∃ v : t.Evaluated a, b.past = v.round k :: a.past ∧ ¬ v.Converges ∧ ¬ v.Stops k := by
  cases continues with
  | next v converges stops => exact ⟨v, rfl, converges, stops⟩

omit [Scalar R] in
/-- The round that was added last is the one at the end. -/
theorem round_unique {past : List (Round R)} {r r' : Round R}
    (rounds : (r' :: past).reverse = past.reverse ++ [r]) : r = r' := by
  rw [List.reverse_cons] at rounds
  cases List.append_cancel_left rounds
  rfl

/-- Ending adds a round, of what the inner solver was asked and what it answered. -/
theorem Ends.rounds_eq {k : Nat} {a : Snapshot R S O} {run : Run R S O} (ends : t.Ends k a run) :
    ∃ r, run.rounds = a.past.reverse ++ [r] ∧ r.asked = a.state.subproblem ∧
      r.answer = (t.answer a).2 := by
  cases ends with
  | refused answered => exact ⟨_, List.reverse_cons, rfl, by rw [answered]⟩
  | notFinite answered => exact ⟨_, List.reverse_cons, rfl, by rw [answered]⟩
  | unevaluated answered => exact ⟨_, List.reverse_cons, rfl, by rw [answered]⟩
  | converged v => exact ⟨_, List.reverse_cons, rfl, by rw [v.answered]⟩
  | stopped v => exact ⟨_, List.reverse_cons, rfl, by rw [v.answered]⟩
  | timedOut v => exact ⟨_, List.reverse_cons, rfl, by rw [v.answered]⟩
  | unweighted v => exact ⟨_, List.reverse_cons, rfl, by rw [v.answered]⟩

/-- A solve that ends after an event has a solution, unless the next weights cannot be chosen. -/
theorem Ends.evaluated_inv {k : Nat} {a : Snapshot R S O} {run : Run R S O} (ends : t.Ends k a run)
    {r : Round R} (rounds : run.rounds = a.past.reverse ++ [r]) (evaluated : r.event ≠ none) :
    ∃ v : t.Evaluated a, r = v.round k ∧
      ((∃ sol, run.outcome = .ok sol ∧ sol.status ≠ .maxIter) ∨
        ∃ e, Loop.advance t.settings (k == 0) v.state v.violation = .error e) := by
  cases ends with
  | refused => exact absurd (by rw [round_unique rounds]) evaluated
  | notFinite => exact absurd (by rw [round_unique rounds]) evaluated
  | unevaluated => exact absurd (by rw [round_unique rounds]) evaluated
  | converged v => exact ⟨v, round_unique rounds, .inl ⟨_, rfl, by simp [LoopState.solution]⟩⟩
  | stopped v => exact ⟨v, round_unique rounds, .inl ⟨_, rfl, by simp [LoopState.solution]⟩⟩
  | timedOut v => exact ⟨v, round_unique rounds, .inl ⟨_, rfl, by simp [LoopState.solution]⟩⟩
  | unweighted v _ _ _ failed => exact ⟨v, round_unique rounds, .inr ⟨_, failed⟩⟩

/-- A solve that ends without an event was not told a finite point, or cannot evaluate it. -/
theorem Ends.silent_inv {k : Nat} {a : Snapshot R S O} {run : Run R S O} (ends : t.Ends k a run)
    {r : Round R} (rounds : run.rounds = a.past.reverse ++ [r]) (silent : r.event = none) {x : List R}
    {report : InnerReport R} (answered : (t.answer a).2 = .ok (x, report)) :
    report.status = .notFinite ∨ ∃ e, t.update (a.state.moved x report) = .error e := by
  have evaluated (v : t.Evaluated a) : (v.rounds k).reverse ≠ a.past.reverse ++ [r] := by
    intro same
    rw [round_unique same] at silent
    cases silent
  cases ends with
  | refused answered' => rw [answered'] at answered; cases answered
  | notFinite answered' status =>
      rw [answered'] at answered
      cases answered
      exact .inl status
  | unevaluated answered' _ failed =>
      rw [answered'] at answered
      cases answered
      exact .inr ⟨_, failed⟩
  | converged v => exact absurd rounds (evaluated v)
  | stopped v => exact absurd rounds (evaluated v)
  | timedOut v => exact absurd rounds (evaluated v)
  | unweighted v => exact absurd rounds (evaluated v)

/-! ## The snapshots of a run -/

variable (t) in
/-- How a run ends after `last` iterations that go on: at the limit, or in one more iteration. -/
inductive EndsAfter (last : Nat) (a : Snapshot R S O) : Run R S O → Prop
  | limited (limit : last = t.settings.maxIter) :
      EndsAfter last a
        (Loop.finish (.ok (a.state.solution .maxIter last)) a.past a.solver a.watcher)
  | ended {run : Run R S O} (within : last < t.settings.maxIter) (ends : t.Ends last a run) :
      EndsAfter last a run

variable (t) in
/-- A run goes through the snapshots of `path`, from `first` to number `last`, and ends there. -/
structure Follows (first : Snapshot R S O) (path : Nat → Snapshot R S O) (last : Nat)
    (run : Run R S O) : Prop where
  start : path 0 = first
  continues : ∀ k < last, t.Continues k (path k) (path (k + 1))
  ends : t.EndsAfter last (path last) run

theorem Reaches.exists_path {first a : Snapshot R S O} {n : Nat} (reached : t.Reaches first n a) :
    ∃ path : Nat → Snapshot R S O, path 0 = first ∧ path n = a ∧
      ∀ k < n, t.Continues k (path k) (path (k + 1)) := by
  induction reached with
  | start => exact ⟨fun _ => first, rfl, rfl, nofun⟩
  | @step n a b _ continues ih =>
      obtain ⟨path, start, here, before⟩ := ih
      -- the path so far, and the new snapshot from then on
      refine ⟨fun k => if k ≤ n then path k else b, ?_, ?_, ?_⟩
      · exact (if_pos (Nat.zero_le n)).trans start
      · exact if_neg (Nat.not_succ_le_self n)
      · intro k within
        show t.Continues k (if k ≤ n then path k else b) (if k + 1 ≤ n then path (k + 1) else b)
        rw [if_pos (Nat.le_of_lt_succ within)]
        rcases Nat.lt_or_eq_of_le (Nat.le_of_lt_succ within) with earlier | rfl
        · rw [if_pos (Nat.succ_le_of_lt earlier)]
          exact before k earlier
        · rw [if_neg (Nat.not_succ_le_self k), here]
          exact continues

theorem Concludes.follows {first : Snapshot R S O} {run : Run R S O}
    (concludes : t.Concludes first run) : ∃ path last, t.Follows first path last run := by
  cases concludes with
  | limited reached =>
      obtain ⟨path, start, here, continues⟩ := reached.exists_path
      exact ⟨path, _, start, continues, here ▸ .limited rfl⟩
  | ended reached within ends =>
      obtain ⟨path, start, here, continues⟩ := reached.exists_path
      exact ⟨path, _, start, continues, .ended within (here ▸ ends)⟩

namespace Follows

variable {first : Snapshot R S O} {path : Nat → Snapshot R S O} {last k : Nat} {run : Run R S O}

theorem reaches (follows : t.Follows first path last run) (within : k ≤ last) :
    t.Reaches first k (path k) := by
  induction k with
  | zero => exact follows.start ▸ .start
  | succ k ih => exact .step (ih (Nat.le_of_succ_le within)) (follows.continues k within)

/-- What holds at the start, and is kept by going on, holds at every snapshot of the run. -/
theorem forall_of_step (follows : t.Follows first path last run)
    (holds : Nat → Snapshot R S O → Prop) (start : holds 0 first)
    (step : ∀ {k a b}, t.Continues k a b → holds k a → holds (k + 1) b) :
    ∀ k ≤ last, holds k (path k) := by
  intro k within
  induction k with
  | zero => exact follows.start ▸ start
  | succ k ih => exact step (follows.continues k within) (ih (Nat.le_of_succ_le within))

/-- A snapshot holds a round for each iteration before it. -/
theorem length_past (follows : t.Follows first path last run) (fresh : first.past = [])
    (within : k ≤ last) : (path k).past.length = k := by
  refine follows.forall_of_step (fun k a => a.past.length = k) (by simp [fresh]) ?_ k within
  intro k a b continues length
  obtain ⟨v, past, -⟩ := continues.past_eq
  rw [past, List.length_cons, length]

/-- Later snapshots keep the rounds of earlier ones. -/
theorem past_prefix (follows : t.Follows first path last run) {j : Nat} (le : k ≤ j)
    (within : j ≤ last) : (path k).past.reverse <+: (path j).past.reverse := by
  induction le with
  | refl => exact List.prefix_rfl
  | @step j _ ih =>
      obtain ⟨v, past, -⟩ := (follows.continues j within).past_eq
      rw [past, List.reverse_cons]
      exact (ih (Nat.le_of_succ_le within)).trans (List.prefix_append _ _)

/-- The rounds of a run begin with those that its last snapshot holds. -/
theorem past_last_prefix (follows : t.Follows first path last run) :
    (path last).past.reverse <+: run.rounds := by
  cases follows.ends with
  | limited => exact List.prefix_rfl
  | ended _ ends =>
      obtain ⟨r, rounds, -⟩ := ends.rounds_eq
      exact ⟨[r], rounds.symm⟩

/-- A snapshot holds the first rounds of the run, last first. -/
theorem take_rounds (follows : t.Follows first path last run) (fresh : first.past = [])
    (within : k ≤ last) : run.rounds.take k = (path k).past.reverse := by
  have begins := (follows.past_prefix within (Nat.le_refl last)).trans follows.past_last_prefix
  have length : (path k).past.reverse.length = k := by
    rw [List.length_reverse, follows.length_past fresh within]
  rw [List.prefix_iff_eq_take.1 begins, length]

/-- The round that a snapshot does not hold yet has its number. -/
theorem getElem?_concat (follows : t.Follows first path last run) (fresh : first.past = [])
    (within : k ≤ last) (r : Round R) : ((path k).past.reverse ++ [r])[k]? = some r := by
  have length : (path k).past.reverse.length = k := by
    rw [List.length_reverse, follows.length_past fresh within]
  rw [List.getElem?_append_right (Nat.le_of_eq length), length, Nat.sub_self]
  rfl

/-- Before the last snapshot, round `k` is that of the iteration from snapshot `k`. -/
theorem getElem?_rounds (follows : t.Follows first path last run) (fresh : first.past = [])
    (within : k < last) : ∃ v : t.Evaluated (path k), run.rounds[k]? = some (v.round k) ∧
      ¬ v.Converges ∧ ¬ v.Stops k := by
  obtain ⟨v, past, goesOn⟩ := (follows.continues k within).past_eq
  refine ⟨v, ?_, goesOn⟩
  have here : (run.rounds.take (k + 1))[k]? = some (v.round k) := by
    rw [follows.take_rounds fresh within, past, List.reverse_cons]
    exact follows.getElem?_concat fresh (Nat.le_of_lt within) _
  rwa [List.getElem?_take_of_lt (Nat.lt_succ_self k)] at here

theorem ends_inv (follows : t.Follows first path last run) :
    last = t.settings.maxIter ∧
        run = Loop.finish (.ok ((path last).state.solution .maxIter last)) (path last).past
          (path last).solver (path last).watcher ∨
      last < t.settings.maxIter ∧ t.Ends last (path last) run := by
  have ends := follows.ends
  generalize path last = a at ends ⊢
  cases ends with
  | limited limit => exact .inl ⟨limit, rfl⟩
  | ended within ends => exact .inr ⟨within, ends⟩

/-- A run has a round for each iteration that goes on, and one more unless it ends at the limit. -/
theorem length_rounds (follows : t.Follows first path last run) (fresh : first.past = []) :
    last = t.settings.maxIter ∧ run.rounds.length = last ∧
        run.outcome = .ok ((path last).state.solution .maxIter last) ∨
      last < t.settings.maxIter ∧ run.rounds.length = last + 1 ∧ t.Ends last (path last) run := by
  have length : (path last).past.reverse.length = last := by
    rw [List.length_reverse, follows.length_past fresh (Nat.le_refl last)]
  rcases follows.ends_inv with ⟨limit, same⟩ | ⟨within, ends⟩
  · rw [same]
    exact .inl ⟨limit, length, rfl⟩
  · obtain ⟨r, rounds, -⟩ := ends.rounds_eq
    refine .inr ⟨within, ?_, ends⟩
    rw [rounds, List.length_append, length, List.length_singleton]

/-- A solution at the limit is the state of the last snapshot. -/
theorem limit_inv (follows : t.Follows first path last run) {sol : Solution R}
    (solved : run.outcome = .ok sol) (limit : sol.status = .maxIter) :
    last = t.settings.maxIter ∧ sol = (path last).state.solution .maxIter last := by
  rcases follows.ends_inv with ⟨reached, same⟩ | ⟨-, ends⟩
  · rw [same] at solved
    cases solved
    exact ⟨reached, rfl⟩
  · cases ends <;> cases solved <;> cases limit

/-- Every round belongs to an iteration: one that goes on, or the one that ends the run. -/
theorem round_cases (follows : t.Follows first path last run) (fresh : first.past = []) {r : Round R}
    (round : run.rounds[k]? = some r) :
    k < last ∨ k = last ∧ last < t.settings.maxIter ∧ t.Ends last (path last) run ∧
      run.rounds = (path last).past.reverse ++ [r] := by
  obtain ⟨within, here⟩ := List.getElem?_eq_some_iff.1 round
  rcases follows.length_rounds fresh with ⟨-, length, -⟩ | ⟨below, length, ends⟩
  · exact .inl (length ▸ within)
  rcases Nat.lt_or_ge k last with earlier | late
  · exact .inl earlier
  obtain rfl : k = last := by omega
  refine .inr ⟨rfl, below, ends, ?_⟩
  rw [← follows.take_rounds fresh (Nat.le_refl k), ← here, List.take_append_getElem, ← length,
    List.take_length]

/-- A round shows what the inner solver was asked at its snapshot, and what it answered. -/
theorem round_eq (follows : t.Follows first path last run) (fresh : first.past = []) {r : Round R}
    (round : run.rounds[k]? = some r) :
    k ≤ last ∧ r.asked = (path k).state.subproblem ∧ r.answer = (t.answer (path k)).2 := by
  rcases follows.round_cases fresh round with earlier | ⟨rfl, -, ends, rounds⟩
  · obtain ⟨v, here, -⟩ := follows.getElem?_rounds fresh earlier
    rw [here] at round
    cases round
    exact ⟨Nat.le_of_lt earlier, rfl, by rw [v.answered]; rfl⟩
  · obtain ⟨r', rounds', asked, answer⟩ := ends.rounds_eq
    rw [rounds] at rounds'
    cases List.append_cancel_left rounds'
    exact ⟨Nat.le_refl k, asked, answer⟩

/-- The round of an event is that of an iteration that comes to it. -/
theorem exists_evaluated (follows : t.Follows first path last run) (fresh : first.past = [])
    {r : Round R} (round : run.rounds[k]? = some r) {e : Event R} (event : r.event = some e) :
    k ≤ last ∧ ∃ v : t.Evaluated (path k), e = v.event k := by
  rcases follows.round_cases fresh round with earlier | ⟨rfl, -, ends, rounds⟩
  · obtain ⟨v, here, -⟩ := follows.getElem?_rounds fresh earlier
    rw [here] at round
    cases round
    cases event
    exact ⟨Nat.le_of_lt earlier, v, rfl⟩
  · obtain ⟨v, rfl, -⟩ := ends.evaluated_inv rounds (by simp [event])
    cases event
    exact ⟨Nat.le_refl k, v, rfl⟩

end Follows

/-! ## Runs that start -/

variable (t)

/-- A solve that starts goes through snapshots. -/
theorem run_follows {layers : List Layer} {x y weights : List R} {solver : S} {watcher : O}
    (accepted : Loop.accept t.settings t.problem.constraints x y = .ok ())
    (chosen : t.firstWeights x = .done weights ()) :
    ∃ path last, t.Follows (t.first x y weights solver watcher) path last
      (t.run layers x y solver watcher) := by
  have solves := t.run_solves layers x y solver watcher
  generalize t.run layers x y solver watcher = run at solves ⊢
  cases solves with
  | refused refused => rw [accepted] at refused; cases refused
  | unweighted _ failed => rw [chosen] at failed; cases failed
  | iterated _ chosen' concludes =>
      rw [chosen] at chosen'
      cases chosen'
      exact concludes.follows

/-- A solve that does not start has no rounds and no solution. -/
theorem run_starts (layers : List Layer) (x y : List R) (solver : S) (watcher : O) :
    (∃ weights, Loop.accept t.settings t.problem.constraints x y = .ok () ∧
      t.firstWeights x = .done weights ()) ∨
    (t.run layers x y solver watcher).rounds = [] ∧
      ∃ e, (t.run layers x y solver watcher).outcome = .error e := by
  have solves := t.run_solves layers x y solver watcher
  generalize t.run layers x y solver watcher = run at solves ⊢
  cases solves with
  | refused => exact .inr ⟨rfl, _, rfl⟩
  | unweighted => exact .inr ⟨rfl, _, rfl⟩
  | iterated accepted chosen concludes => exact .inl ⟨_, accepted, chosen⟩

/-- What a solve that starts has passed, and how it goes. -/
structure Starts (x y : List R) (solver : S) (watcher : O) (run : Run R S O) (weights : List R)
    (path : Nat → Snapshot R S O) (last : Nat) : Prop where
  good : t.settings.Admissible
  length : y.length = t.problem.m
  chosen : t.firstWeights x = .done weights ()
  follows : t.Follows (t.first x y weights solver watcher) path last run

variable {layers : List Layer} {x y : List R} {solver : S} {watcher : O}

theorem starts_of_accepted {weights : List R}
    (accepted : Loop.accept t.settings t.problem.constraints x y = .ok ())
    (chosen : t.firstWeights x = .done weights ()) :
    ∃ path last,
      t.Starts x y solver watcher (t.run layers x y solver watcher) weights path last := by
  obtain ⟨good, -, length⟩ := Loop.accept_eq_ok.1 accepted
  obtain ⟨path, last, follows⟩ := t.run_follows accepted chosen
  exact ⟨path, last, good, length, chosen, follows⟩

/-- A run that has rounds has started. -/
theorem starts_of_round {k : Nat} {r : Round R}
    (round : (t.run layers x y solver watcher).rounds[k]? = some r) :
    ∃ weights path last,
      t.Starts x y solver watcher (t.run layers x y solver watcher) weights path last := by
  rcases t.run_starts layers x y solver watcher with ⟨weights, accepted, chosen⟩ | ⟨none, -⟩
  · exact ⟨weights, t.starts_of_accepted accepted chosen⟩
  · rw [none] at round
    cases round

/-- A run that has a solution has started. -/
theorem starts_of_ok {sol : Solution R}
    (solved : (t.run layers x y solver watcher).outcome = .ok sol) :
    ∃ weights path last,
      t.Starts x y solver watcher (t.run layers x y solver watcher) weights path last := by
  rcases t.run_starts layers x y solver watcher with ⟨weights, accepted, chosen⟩ | ⟨-, e, failed⟩
  · exact ⟨weights, t.starts_of_accepted accepted chosen⟩
  · rw [failed] at solved
    cases solved

end Task

end AugmentedLagrangian
