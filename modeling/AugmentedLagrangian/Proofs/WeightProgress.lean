/- # AugmentedLagrangian.Proofs.WeightProgress — no violation lasts at a weight that stays

The weights are what makes an outer loop come closer to its constraints: where the violation does
not shrink, they have to grow.  In exact arithmetic an iteration that goes on does one of three
things (`Progress`).  Its violation is within `δ`, and the weights stay.  Or the violation shrank by
`θ` since the iteration before.  Or every constraint with the largest violation, and with a single
weight every constraint, has its weight scaled by exactly `Δ` and capped.

The relative growth of a weight is `Δ` exactly at the largest entry.  And an entry that did not grow
its weight has shrunk by `θ`, so if that is the largest, the whole violation has shrunk.  Which
violation it is compared with is told by the rounds (`Task.violation`), not by the buffers.
-/
import AugmentedLagrangian.Inner.Replay
import AugmentedLagrangian.Proofs.Exact
import AugmentedLagrangian.Proofs.History

namespace AugmentedLagrangian

set_option autoImplicit false
set_option linter.unusedSectionVars false

open Scalar (isNaN isFinite larger smaller magnitude normInf)

/-- What an iteration number `k` achieves that has violation `e` and weights `weights`, comes after
violation `old` and chooses the weights `next`. -/
inductive Progress {R : Type} [Scalar R] (s : OuterSettings R) (k : Nat)
    (e old weights next : List R) : Prop
  | settled (small : normInf e ≤ s.delta) (kept : next = weights)
  | shrunk (later : 1 ≤ k) (shrunk : normInf e ≤ s.relPenaltyIncreaseThreshold * normInf old)
  | grown (grown : ∀ (i : Nat) (weight : R), weights[i]? = some weight →
      (s.singlePenaltyFactor = true ∨ ∃ v, e[i]? = some v ∧ magnitude v = normInf e) →
      next[i]? = some (smaller s.maxPenalty (s.penaltyUpdateFactor * weight)))

/-- The first iteration is compared with none. -/
theorem Progress.of_first {R : Type} [Scalar R] {s : OuterSettings R} {e old weights next : List R}
    (progress : Progress s 0 e old weights next) (old' : List R) :
    Progress s 0 e old' weights next := by
  cases progress with
  | settled small kept => exact .settled small kept
  | shrunk later => exact absurd later (Nat.not_succ_le_zero 0)
  | grown grown => exact .grown grown

/-! ## Norms -/

namespace Exact

variable {K : Type} [Field K] [LinearOrder K] [IsStrictOrderedRing K]

theorem isFinite_iff {a : Exact K} : isFinite a = true ↔ ∃ x : K, a = fin x := by
  rw [Scalar.isFinite_iff]
  constructor
  · intro between
    cases a with
    | nan => exact between.1.1.elim
    | negInf => exact absurd between.1.1 between.1.2
    | fin x => exact ⟨x, rfl⟩
    | posInf => exact absurd between.2.1 between.2.2
  · rintro ⟨x, rfl⟩
    exact ⟨⟨trivial, id⟩, trivial, id⟩

/-- The norm of finite entries is finite. -/
theorem normInf_finite {es : List (Exact K)} (finite : ∀ e ∈ es, isFinite e = true) :
    ∃ n : K, 0 ≤ n ∧ normInf es = fin n := by
  rw [normInf, zero_eq]
  -- for the induction the fold starts anywhere from zero up
  suffices ∀ start : K, 0 ≤ start → ∃ n : K, 0 ≤ n ∧ es.foldl (fun acc x =>
      if isNaN x || isNaN acc then Scalar.nan else larger acc (magnitude x)) (fin start) = fin n from
    this 0 le_rfl
  induction es with
  | nil => exact fun start nonneg => ⟨start, nonneg, rfl⟩
  | cons e es ih =>
      intro start nonneg
      rw [List.forall_mem_cons] at finite
      obtain ⟨x, rfl⟩ := isFinite_iff.1 finite.1
      have step : (if isNaN (fin x) || isNaN (fin start) then Scalar.nan
          else larger (fin start) (magnitude (fin x))) = fin (max start |x|) := by
        rw [magnitude_fin, larger_fin]
        rfl
      rw [List.foldl_cons, step]
      exact ih finite.2 _ (le_max_of_le_left nonneg)

theorem isFinite_normInf {es : List (Exact K)} (finite : ∀ e ∈ es, isFinite e = true) :
    isFinite (normInf es) = true := by
  obtain ⟨n, -, norm⟩ := normInf_finite finite
  exact isFinite_iff.2 ⟨n, norm⟩

theorem isFinite_magnitude {a : Exact K} (finite : isFinite a = true) :
    isFinite (magnitude a) = true := by
  obtain ⟨x, rfl⟩ := isFinite_iff.1 finite
  exact isFinite_iff.2 ⟨|x|, rfl⟩

/-- No entry exceeds the norm. -/
theorem magnitude_le_normInf {es : List (Exact K)} (finite : ∀ e ∈ es, isFinite e = true)
    {e : Exact K} (member : e ∈ es) : magnitude e ≤ normInf es := by
  obtain ⟨n, -, norm⟩ := normInf_finite finite
  exact near_of_normInf_le (by rw [norm]; exact le_refl n) e member

end Exact

/-! ## One update -/

namespace Weights

section Any

variable {R : Type} [Scalar R] {s : OuterSettings R} {factor normE : R} {first : Bool}

/-- What growth one by one does to each weight. -/
theorem getElem?_growEach? {e old weights buffer kept : List R}
    (grew : growEach? s factor first normE e old weights buffer = some kept) {i : Nat} {v weight : R}
    (violation : e[i]? = some v) (here : weights[i]? = some weight) :
    ∃ grows, grows? s first v old[i]? = some grows ∧
      kept[i]? = some (if grows then grown s factor normE v weight else weight) := by
  induction e generalizing old weights buffer kept i with
  | nil => cases violation
  | cons e es ih =>
      cases weights with
      | nil => cases here
      | cons head weights =>
          cases buffer with
          | nil => cases grew
          | cons slot buffer =>
              simp only [growEach?, Option.bind_eq_bind, Option.bind_eq_some_iff] at grew
              obtain ⟨grows, known, rest, grewRest, same⟩ := grew
              cases same
              cases i with
              | zero =>
                  cases violation
                  cases here
                  exact ⟨grows, by rwa [← List.head?_eq_getElem?], rfl⟩
              | succ i =>
                  have := ih grewRest violation here
                  rwa [List.getElem?_tail] at this

end Any

variable {K : Type} [Field K] [LinearOrder K] [IsStrictOrderedRing K]
  {s : OuterSettings (Exact K)}

/-- The largest violation's share of the factor is all of it. -/
theorem share_of_largest {factor : Exact K} {n : K} (more : 1.0 < factor) (pos : 0 < n) :
    larger (factor * .fin n / .fin n) 1.0 = factor := by
  have least := Scalar.le_of_lt more
  rw [Exact.mul_div_fin (Scalar.pos_of_one_le least) pos pos, div_self pos.ne', Exact.mul_swap,
    Exact.fin_one_mul, Scalar.larger_eq_left least]

/-- The violation with the largest magnitude scales its weight by the whole factor. -/
theorem grown_of_largest {factor v weight : Exact K} {n : K} (more : 1.0 < factor) (pos : 0 < n)
    (largest : magnitude v = .fin n) :
    grown s factor (.fin n) v weight = smaller s.maxPenalty (factor * weight) := by
  rw [grown, largest, share_of_largest more pos]

/-- The threshold is a value of the field, strictly between zero and one. -/
theorem threshold_finite (good : s.Admissible) :
    ∃ θ : K, 0 < θ ∧ s.relPenaltyIncreaseThreshold = .fin θ := by
  obtain ⟨above, below⟩ := good.relPenaltyIncreaseThreshold
  rw [Exact.zero_eq] at above
  rw [Exact.one_eq] at below
  obtain ⟨θ, same⟩ := Exact.exists_fin_of_between (Scalar.le_of_lt above) (Scalar.le_of_lt below)
  rw [same, Exact.fin_lt] at above
  exact ⟨θ, above, same⟩

/-- A violation beyond `δ` is positive. -/
theorem pos_of_large (good : s.Admissible) {n : K} (large : ¬ (.fin n : Exact K) ≤ s.delta) :
    0 < n := by
  rcases Exact.pos_cases good.delta with ⟨d, pos, delta⟩ | delta
  · rw [delta, Exact.fin_le, not_le] at large
    exact pos.trans large
  · rw [delta] at large
    exact absurd trivial large

/-- A finite violation that has not shrunk by the threshold since one before exceeds its share. -/
theorem lt_of_not_shrunk (good : s.Admissible) {v old : Exact K} (finite : isFinite v = true)
    (finiteOld : isFinite old = true) (kept : ¬ v ≤ s.relPenaltyIncreaseThreshold * old) :
    s.relPenaltyIncreaseThreshold * old < v := by
  obtain ⟨θ, -, threshold⟩ := threshold_finite good
  obtain ⟨x, rfl⟩ := Exact.isFinite_iff.1 finite
  obtain ⟨o, rfl⟩ := Exact.isFinite_iff.1 finiteOld
  rw [threshold, Exact.fin_mul] at kept ⊢
  exact (Exact.fin_lt _ _).2 (not_le.1 kept)

theorem threshold_mul_le (good : s.Admissible) {a b : Exact K} (ha : isFinite a = true)
    (hb : isFinite b = true) (le : a ≤ b) :
    s.relPenaltyIncreaseThreshold * a ≤ s.relPenaltyIncreaseThreshold * b := by
  obtain ⟨θ, pos, threshold⟩ := threshold_finite good
  obtain ⟨x, rfl⟩ := Exact.isFinite_iff.1 ha
  obtain ⟨y, rfl⟩ := Exact.isFinite_iff.1 hb
  rw [threshold, Exact.fin_mul, Exact.fin_mul, Exact.fin_le]
  exact mul_le_mul_of_nonneg_left ((Exact.fin_le x y).1 le) pos.le

/-! ## One update -/

section Update

variable {k : Nat} {e old weights next : List (Exact K)} (good : s.Admissible)
  (finite : ∀ v ∈ e, isFinite v = true) (finiteOld : ∀ v ∈ old, isFinite v = true)
  (lasts : ¬ (1 ≤ k ∧ normInf e ≤ s.relPenaltyIncreaseThreshold * normInf old))

include good finite finiteOld lasts

/-- While the violation lasts, the single weight grows. -/
theorem single_grows {oldNormE : Exact K} (oldNorm : k ≠ 0 → oldNormE = normInf old) :
    (k == 0 || decide (s.relPenaltyIncreaseThreshold * oldNormE < normInf e)) = true := by
  rcases Nat.eq_zero_or_pos k with rfl | later
  · rfl
  have less := lt_of_not_shrunk good (Exact.isFinite_normInf finite)
    (Exact.isFinite_normInf finiteOld) fun shrunk => lasts ⟨later, shrunk⟩
  rw [oldNorm later.ne', decide_eq_true less, Bool.or_true]

/-- While the violation lasts, the weight of a largest entry grows: had that entry shrunk, so had
the whole violation. -/
theorem largest_grows {i : Nat} {v : Exact K} (violation : e[i]? = some v)
    (largest : magnitude v = normInf e) {grows : Bool}
    (known : grows? s (k == 0) v old[i]? = some grows) : grows = true := by
  rcases Nat.eq_zero_or_pos k with rfl | later
  · cases known
    rfl
  have first : (k == 0) = false := beq_eq_false_iff_ne.2 later.ne'
  rw [grows?, first, if_neg Bool.false_ne_true, Option.map_eq_some_iff] at known
  obtain ⟨o, before, rfl⟩ := known
  have member : o ∈ old := List.mem_of_getElem? before
  have finiteHere := Exact.isFinite_magnitude (finite v (List.mem_of_getElem? violation))
  have finiteBefore := Exact.isFinite_magnitude (finiteOld o member)
  refine decide_eq_true (lt_of_not_shrunk good finiteHere finiteBefore fun shrunk => ?_)
  refine lasts ⟨later, ?_⟩
  rw [← largest]
  exact Scalar.le_trans shrunk (threshold_mul_le good finiteBefore
    (Exact.isFinite_normInf finiteOld) (Exact.magnitude_le_normInf finiteOld member))

end Update

/-- Every update makes progress. -/
theorem update_progress (good : s.Admissible) {k : Nat} {e old weights next : List (Exact K)}
    {oldNormE : Exact K} (uniform : s.singlePenaltyFactor = true → Uniform weights)
    (finite : ∀ v ∈ e, isFinite v = true) (finiteOld : ∀ v ∈ old, isFinite v = true)
    (oldNorm : k ≠ 0 → oldNormE = normInf old)
    (updated : update s s.penaltyUpdateFactor (k == 0) e old (normInf e) oldNormE weights weights =
      .done next ()) : Progress s k e old weights next := by
  by_cases lasts : 1 ≤ k ∧ normInf e ≤ s.relPenaltyIncreaseThreshold * normInf old
  · exact .shrunk lasts.1 lasts.2
  unfold update at updated
  split at updated
  · rename_i small
    rw [overwriteAll, if_pos rfl] at updated
    cases updated
    exact .settled small rfl
  rename_i large
  refine .grown fun i weight here attains => ?_
  cases single : s.singlePenaltyFactor with
  | true =>
      rw [single, if_pos rfl, if_pos (single_grows good finite finiteOld lasts oldNorm)] at updated
      obtain ⟨shared, same⟩ := uniform single
      cases weights with
      | nil => cases updated
      | cons head tail =>
          cases updated
          obtain ⟨rfl, -⟩ := List.cons.inj (same.trans List.replicate_succ)
          obtain rfl := List.eq_of_mem_replicate (same ▸ List.mem_of_getElem? here)
          rw [fill, List.getElem?_map, here]
          rfl
  | false =>
      rw [single, if_neg Bool.false_ne_true] at updated
      split at updated
      · rename_i kept grew
        cases updated
        obtain ⟨v, violation, largest⟩ := attains.resolve_left (by simp [single])
        obtain ⟨grows, known, result⟩ := getElem?_growEach? grew violation here
        have growing := largest_grows good finite finiteOld lasts violation largest known
        obtain ⟨n, -, norm⟩ := Exact.normInf_finite finite
        rw [norm] at largest large result
        rw [result, if_pos growing]
        exact congrArg some
          (grown_of_largest good.penaltyUpdateFactor (pos_of_large good large) largest)
      · cases updated

end Weights

/-! ## The solve -/

section Runs

variable {R S O : Type} [Scalar R]

/-- The run ends in its round `k`, and not because that is the last one allowed. -/
def Run.EndsIn (run : Run R S O) (k : Nat) : Prop :=
  k + 1 = run.rounds.length ∧ ∃ sol, run.outcome = .ok sol ∧ sol.status ≠ .maxIter

/-- The weights that were chosen after round `k`: those of the next round or, at the limit, those of
the solution. -/
def Run.weightsAfter (run : Run R S O) (k : Nat) : Option (List R) :=
  match run.rounds[k + 1]? with
  | some r => some r.asked.weights
  | none =>
    match run.outcome with
    | .ok sol => if sol.status = .maxIter then some sol.weights else none
    | .error _ => none

end Runs

namespace Task

variable {R S O : Type} [Scalar R] {t : Task R S O}

/-- The weights of the snapshot after an iteration are those that were chosen after its round. -/
theorem Follows.weightsAfter {first : Snapshot R S O} {path : Nat → Snapshot R S O} {last k : Nat}
    {run : Run R S O} (follows : t.Follows first path last run) (fresh : first.past = [])
    (within : k < last) : run.weightsAfter k = some (path (k + 1)).state.weights := by
  unfold Run.weightsAfter
  split
  · rename_i r next
    obtain ⟨-, asked, -⟩ := follows.round_eq fresh next
    rw [asked]
    rfl
  · rename_i none
    rw [List.getElem?_eq_none_iff] at none
    rcases follows.length_rounds fresh with ⟨-, length, outcome⟩ | ⟨-, length, -⟩
    · obtain rfl : last = k + 1 := by omega
      rw [outcome]
      rfl
    · omega

/-- A run that ends in a round with an event ends there with a solution. -/
theorem Starts.endsIn [Scalar.Ordered R] {x y weights : List R} {solver : S} {watcher : O}
    {run : Run R S O} {path : Nat → Snapshot R S O} {last : Nat}
    (starts : t.Starts x y solver watcher run weights path last) (tidy : t.problem.Tidy)
    (ends : t.Ends last (path last) run) {r : Round R}
    (rounds : run.rounds = (path last).past.reverse ++ [r]) (evaluated : r.event ≠ none) :
    run.EndsIn last := by
  obtain ⟨v, rfl, ⟨sol, outcome, status⟩ | ⟨e, failed⟩⟩ := ends.evaluated_inv rounds evaluated
  · refine ⟨?_, sol, outcome, status⟩
    rw [rounds, List.length_append, List.length_reverse, List.length_singleton,
      starts.follows.length_past rfl (Nat.le_refl last)]
  · obtain ⟨state, advanced, -⟩ :=
      v.advances tidy starts.good (starts.filled tidy (Nat.le_refl last)) (last == 0)
    rw [failed] at advanced
    cases advanced

variable {K : Type} [Field K] [LinearOrder K] [IsStrictOrderedRing K]

theorem violation_start_finite (t : Task (Exact K) S O) :
    ∀ v ∈ t.violation [], isFinite v = true := by
  intro v member
  rw [List.eq_of_mem_replicate member, Exact.zero_eq]
  exact Exact.isFinite_iff.2 ⟨0, rfl⟩

/-- Every iteration that goes on makes progress. -/
theorem Continues.progress {t : Task (Exact K) S O} (good : t.settings.Admissible)
    (some : 0 < t.problem.m) {k : Nat} {a b : Snapshot (Exact K) S O}
    (continues : t.Continues k a b) (length : a.past.length = k)
    (filled : t.Filled a.state) (remembers : t.Remembers a) (weighted : t.Weighted a.state.weights)
    (finite : ∀ v ∈ t.violation b.past, isFinite v = true)
    (finiteOld : ∀ v ∈ t.violation a.past, isFinite v = true) :
    Progress t.settings k (t.violation b.past) (t.violation a.past) a.state.weights
      b.state.weights := by
  cases continues with
  | next v converges stops timesOut advanced =>
      obtain ⟨-, violation, normE⟩ := v.remembers k some filled remembers
      obtain ⟨weights, updated, rfl⟩ := Loop.advance_eq_ok advanced
      rw [v.state_weights, v.state_violation, v.state_oldNormE, remembers.violation, normE,
        violation] at updated
      refine Weights.update_progress good weighted.uniform finite finiteOld ?_ updated
      intro later
      refine remembers.oldNormE fun none => later ?_
      rw [← length, none, List.length_nil]

variable (t : Task (Exact K) S O)

/-- In a solve with constraints, every iteration that comes to its event and does not end the solve
chooses the next weights, and makes progress with them, as far as the violations are finite. -/
theorem weights_progress (tidy : t.problem.Tidy) (some : 0 < t.problem.m) {layers : List Layer}
    {x y : List (Exact K)} {solver : S} {watcher : O} {run : Run (Exact K) S O}
    (isRun : run = t.run layers x y solver watcher) {k : Nat} {r : Round (Exact K)}
    (round : run.rounds[k]? = .some r) (evaluated : r.event ≠ none) (goesOn : ¬ run.EndsIn k)
    (finite : ∀ j ≤ k, ∀ v ∈ t.violationIn run j, isFinite v = true) :
    ∃ next, run.weightsAfter k = .some next ∧ (t.violationIn run k).length = t.problem.m ∧
      Progress t.settings k (t.violationIn run k) (t.violationIn run (k - 1)) r.asked.weights
        next := by
  subst isRun
  obtain ⟨weights, path, last, starts⟩ := t.starts_of_round round
  generalize t.run layers x y solver watcher = run at *
  rcases starts.follows.round_cases rfl round with earlier | ⟨rfl, -, ends, rounds⟩
  · obtain ⟨v, here, -⟩ := starts.follows.getElem?_rounds rfl earlier
    rw [round] at here
    cases here
    have within := Nat.le_of_lt earlier
    have progress := (starts.follows.continues k earlier).progress starts.good some
      (starts.follows.length_past rfl within) (starts.filled tidy within)
      (starts.remembers tidy some within) (starts.weighted within)
    have violation := starts.follows.violationIn_eq rfl earlier
    rw [← violation] at progress
    refine ⟨_, starts.follows.weightsAfter rfl earlier, ?_, ?_⟩
    · rw [violation, ← (starts.remembers tidy some earlier).violation]
      exact (starts.filled tidy earlier).violation
    · cases k with
      | zero =>
          have none : (path 0).past = [] := by rw [starts.follows.start]; rfl
          rw [none] at progress
          exact (progress (finite 0 le_rfl) t.violation_start_finite).of_first _
      | succ k =>
          rw [← starts.follows.violationIn_eq rfl within] at progress
          exact progress (finite (k + 1) le_rfl) (finite k (Nat.le_succ k))
  · exact absurd (starts.endsIn tidy ends rounds evaluated) goesOn

/-- Two constraints that are never met, one by twice as much as the other. -/
def stuck : Task (Exact ℚ) (ReplayState (Exact ℚ)) Unit where
  problem := .ofPrimitives
    ⟨.unbounded 2, ⟨List.replicate 2 (.between 0.0 0.0 Exact.zero_le_zero)⟩⟩
    { constr? := some fun x => overwriteAll x }
  settings := { OuterSettings.default with initialPenalty := some 1.0, maxIter := 2 }
  inner := Replay.solver []
  watch := .silent
  clock := quickClock

theorem stuck_tidy : stuck.problem.Tidy :=
  Problem.tidy_of_kernel rfl fun length done => (length_of_overwriteAll done).trans length

/-- The larger violation scales its weight by `10` twice, the smaller by `5`. -/
theorem stuck_weights_progress :
    let run := stuck.run [] [1.0, 0.5] [0.0, 0.0] {} ()
    stuck.violationIn run 0 = [1.0, 0.5] ∧ stuck.violationIn run 1 = [1.0, 0.5] ∧
      run.weightsAfter 0 = some [10.0, 5.0] ∧ run.weightsAfter 1 = some [100.0, 25.0] ∧
      Progress stuck.settings 1 (stuck.violationIn run 1) (stuck.violationIn run 0) [10.0, 5.0]
        [100.0, 25.0] := by
  intro run
  have first : stuck.violationIn run 0 = [1.0, 0.5] := by decide +kernel
  have second : stuck.violationIn run 1 = [1.0, 0.5] := by decide +kernel
  have after : run.weightsAfter 1 = some [100.0, 25.0] := by decide +kernel
  refine ⟨first, second, by decide +kernel, after, ?_⟩
  have finite : ∀ j ≤ 1, ∀ v ∈ stuck.violationIn run j, isFinite v = true := by decide +kernel
  have shown : (run.rounds[1]?.map fun r => (r.asked.weights, r.event.isSome)) =
      some (([10.0, 5.0] : List (Exact ℚ)), true) := by decide +kernel
  have status : run.outcome.toOption.map Solution.status = some .maxIter := by decide +kernel
  obtain ⟨r, round, seen⟩ := Option.map_eq_some_iff.1 shown
  obtain ⟨weights, event⟩ := Prod.mk.inj seen
  have goesOn : ¬ run.EndsIn 1 := by
    rintro ⟨-, sol, outcome, other⟩
    rw [outcome] at status
    exact other (Option.some.inj status)
  obtain ⟨next, chosen, -, progress⟩ := stuck.weights_progress stuck_tidy (by decide) rfl round
    (Option.isSome_iff_ne_none.1 event) goesOn finite
  rw [after] at chosen
  cases chosen
  rwa [weights] at progress

end Task

end AugmentedLagrangian
