/- # AugmentedLagrangian.Proofs.Variants — the same solve with other limits and another observer

The relations that say how an iteration ends or goes on determine it (`Ends.iterate_eq`,
`Continues.iterate_eq`), so to know what follows a snapshot it is enough to build one of them.

What an iteration does up to its event depends neither on who watches, nor on the clock, nor on how
many iterations are allowed.  So an iteration that comes to its event does so in every variant of the
task as well (`Evaluated.vary`), and the next weights are the same (`advance_variant`).
-/
import AugmentedLagrangian.Proofs.Trajectory

namespace AugmentedLagrangian

set_option autoImplicit false

variable {R S O P : Type}

/-- The snapshot with another observer's state. -/
def Snapshot.watchedBy (a : Snapshot R S O) (watcher : P) : Snapshot R S P :=
  ⟨a.state, a.past, a.solver, watcher⟩

variable [Scalar R]

namespace Task

/-! ## What an iteration does is determined -/

section Determined

variable {t : Task R S O} {k remaining : Nat} {a b : Snapshot R S O} {run : Run R S O}

instance (v : t.Evaluated a) : Decidable v.Converges :=
  inferInstanceAs (Decidable (_ ∧ _))

instance (v : t.Evaluated a) : Decidable (v.Stops k) :=
  inferInstanceAs (Decidable (_ = _))

/-- What follows an event, in the order of the checks. -/
theorem Evaluated.iterate_eq (v : t.Evaluated a) : t.iterate (remaining + 1) k a =
    if v.Converges then v.conclude k (.ok (v.state.solution .converged (k + 1)))
    else if v.Stops k then v.conclude k (.ok (v.state.solution .stoppedByObserver (k + 1)))
    else if t.TimesOut k then v.conclude k (.ok (v.state.solution .maxTime (k + 1)))
    else
      match Loop.advance t.settings (k == 0) v.state v.violation with
      | .error e => v.conclude k (.error (.problem e))
      | .ok s => t.iterate remaining (k + 1) ⟨s, v.rounds k, v.solver, (v.observed k).1⟩ := by
  have answered := v.answered
  have updated := v.updated
  unfold answer at answered
  unfold update LoopState.moved at updated
  simp only [iterate, Loop.iterate, Consult.bind_eq, Consult.against_bind, answered,
    if_neg v.finite, updated]
  change Consult.against t.problem (if v.Converges then _ else if v.Stops k then _ else
    if t.TimesOut k then _ else _) = _
  by_cases converges : v.Converges
  · rw [if_pos converges, if_pos converges]
    rfl
  rw [if_neg converges, if_neg converges]
  by_cases stops : v.Stops k
  · rw [if_pos stops, if_pos stops]
    rfl
  rw [if_neg stops, if_neg stops]
  by_cases timesOut : t.TimesOut k
  · rw [if_pos timesOut, if_pos timesOut]
    rfl
  rw [if_neg timesOut, if_neg timesOut]
  cases Loop.advance t.settings (k == 0) v.state v.violation <;> rfl

theorem Ends.iterate_eq (ends : t.Ends k a run) : t.iterate (remaining + 1) k a = run := by
  cases ends with
  | refused answered =>
      unfold answer at answered
      simp only [iterate, Loop.iterate, Consult.bind_eq, Consult.against_bind, answered]
      rfl
  | notFinite answered status =>
      unfold answer at answered
      simp only [iterate, Loop.iterate, Consult.bind_eq, Consult.against_bind, answered,
        if_pos status]
      rfl
  | unevaluated answered finite failed =>
      unfold answer at answered
      unfold update LoopState.moved at failed
      simp only [iterate, Loop.iterate, Consult.bind_eq, Consult.against_bind, answered,
        if_neg finite, failed]
      rfl
  | converged v converges => rw [v.iterate_eq, if_pos converges]
  | stopped v converges stops => rw [v.iterate_eq, if_neg converges, if_pos stops]
  | timedOut v converges stops timesOut =>
      rw [v.iterate_eq, if_neg converges, if_neg stops, if_pos timesOut]
  | unweighted v converges stops timesOut failed =>
      rw [v.iterate_eq, if_neg converges, if_neg stops, if_neg timesOut, failed]

theorem Continues.iterate_eq (continues : t.Continues k a b) :
    t.iterate (remaining + 1) k a = t.iterate remaining (k + 1) b := by
  cases continues with
  | next v converges stops timesOut advanced =>
      rw [v.iterate_eq, if_neg converges, if_neg stops, if_neg timesOut, advanced]

/-- The rounds of a run begin with those that a snapshot of it holds. -/
theorem rounds_iterate (remaining k : Nat) (a : Snapshot R S O) :
    ∃ rest, (t.iterate remaining k a).rounds = a.past.reverse ++ rest := by
  induction remaining generalizing k a with
  | zero => exact ⟨[], (List.append_nil _).symm⟩
  | succ remaining ih =>
      rcases t.iterate_succ remaining k a with ends | ⟨b, continues, same⟩
      · obtain ⟨r, rounds, -⟩ := ends.rounds_eq
        exact ⟨[r], rounds⟩
      · obtain ⟨v, past, -⟩ := continues.past_eq
        obtain ⟨rest, rounds⟩ := ih (k + 1) b
        refine ⟨v.round k :: rest, ?_⟩
        rw [same, rounds, past, List.reverse_cons, List.append_assoc]
        rfl

/-- The rounds of a run go on after an iteration that comes to its event. -/
theorem Evaluated.rounds_iterate (v : t.Evaluated a) (remaining k : Nat) :
    ∃ rest, (t.iterate (remaining + 1) k a).rounds = (v.rounds k).reverse ++ rest := by
  rw [v.iterate_eq]
  by_cases converges : v.Converges
  · exact ⟨[], by rw [if_pos converges, List.append_nil]; rfl⟩
  rw [if_neg converges]
  by_cases stops : v.Stops k
  · exact ⟨[], by rw [if_pos stops, List.append_nil]; rfl⟩
  rw [if_neg stops]
  by_cases timesOut : t.TimesOut k
  · exact ⟨[], by rw [if_pos timesOut, List.append_nil]; rfl⟩
  rw [if_neg timesOut]
  cases Loop.advance t.settings (k == 0) v.state v.violation with
  | error e => exact ⟨[], (List.append_nil _).symm⟩
  | ok s => exact Task.rounds_iterate _ _ _

end Determined

/-! ## How a solve starts -/

/-- The first weights of a solve, if it is accepted and they can be chosen. -/
def opening (t : Task R S O) (x y : List R) : Except SolveError (List R) :=
  match Loop.accept t.settings t.problem.constraints x y with
  | .error e => .error e
  | .ok _ =>
    match t.firstWeights x with
    | ⟨_, .error e⟩ => .error (.problem e)
    | ⟨weights, .ok _⟩ => .ok weights

/-- A solve that opens has admissible settings and as many multipliers as constraints. -/
theorem opening_eq_ok {t : Task R S O} {x y weights : List R} (opened : t.opening x y = .ok weights) :
    t.settings.Admissible ∧ y.length = t.problem.m ∧ t.firstWeights x = .done weights () := by
  unfold opening at opened
  split at opened
  · cases opened
  rename_i accepted
  obtain ⟨good, -, length⟩ := Loop.accept_eq_ok.1 accepted
  rcases chosen : t.firstWeights x with ⟨first, e | ⟨⟩⟩
  all_goals
    rw [chosen] at opened
    cases opened
  exact ⟨good, length, rfl⟩

/-- A solve that opens with first weights is its iterations, and every other one ends at once. -/
theorem run_eq (t : Task R S O) (layers : List Layer) (x y : List R) (solver : S) (watcher : O) :
    t.run layers x y solver watcher =
      match t.opening x y with
      | .error e => Loop.finish (.error e) [] solver watcher
      | .ok weights => t.iterate t.settings.maxIter 0 (t.first x y weights solver watcher) := by
  rw [run, Consult.fst_through, minimize, opening]
  rcases Loop.accept t.settings t.problem.constraints x y with e | ⟨⟩
  · rfl
  rcases chosen : t.firstWeights x with ⟨weights, e | ⟨⟩⟩
  all_goals
    unfold firstWeights at chosen
    simp only [Consult.bind_eq, Consult.against_bind, chosen]
  · rfl
  · rfl

/-- A solve that is accepted and has its first weights is its iterations. -/
theorem run_of_chosen {t : Task R S O} {layers : List Layer} {x y weights : List R} {solver : S}
    {watcher : O} (accepted : Loop.accept t.settings t.problem.constraints x y = .ok ())
    (chosen : t.firstWeights x = .done weights ()) :
    t.run layers x y solver watcher =
      t.iterate t.settings.maxIter 0 (t.first x y weights solver watcher) := by
  rw [run_eq, opening, accepted, chosen]
  rfl

/-- A solve whose first weights cannot be chosen ends at once. -/
theorem run_of_failed {t : Task R S O} {layers : List Layer} {x y weights : List R} {solver : S}
    {watcher : O} {e : EvalError}
    (accepted : Loop.accept t.settings t.problem.constraints x y = .ok ())
    (failed : t.firstWeights x = .failed weights e) :
    t.run layers x y solver watcher = Loop.finish (.error (.problem e)) [] solver watcher := by
  rw [run_eq, opening, accepted, failed]
  rfl

/-! ## Variants of a task -/

/-- The task with another observer, another clock and another limit on iterations. -/
def variant (t : Task R S O) (watch : Observer P (Event R) Action) (clock : Nat → Nat)
    (limit : Nat) : Task R S P :=
  ⟨t.problem, { t.settings with maxIter := limit }, t.inner, watch, clock⟩

section Variant

variable {t : Task R S O} {watch : Observer P (Event R) Action} {clock : Nat → Nat} {limit : Nat}
variable {a : Snapshot R S O} {watcher : P}

theorem growEach?_variant (factor normE : R) (first : Bool) (e old weights buffer : List R) :
    Weights.growEach? (t.variant watch clock limit).settings factor first normE e old weights
        buffer =
      Weights.growEach? t.settings factor first normE e old weights buffer := by
  induction e generalizing old weights buffer with
  | nil => rfl
  | cons e es ih =>
      cases weights with
      | nil => rfl
      | cons weight weights =>
          cases buffer with
          | nil => rfl
          | cons slot buffer =>
              simp only [Weights.growEach?, ih]
              rfl

/-- The next weights and the next tolerance do not depend on the limit. -/
theorem advance_variant (first : Bool) (s : LoopState R) (violation : List R) :
    Loop.advance (t.variant watch clock limit).settings first s violation =
      Loop.advance t.settings first s violation := by
  simp only [Loop.advance, Weights.update, growEach?_variant]
  rfl

/-- A solve is accepted under another limit as well, unless only one of the limits is zero. -/
theorem accept_variant (same : limit = 0 ↔ t.settings.maxIter = 0) (x y : List R) :
    Loop.accept (t.variant watch clock limit).settings t.problem.constraints x y =
      Loop.accept t.settings t.problem.constraints x y := by
  have same : (limit != 0) = (t.settings.maxIter != 0) := by
    rw [bne, bne, Bool.eq_iff_iff]
    simp [same]
  simp only [Loop.accept, OuterSettings.requirements, variant, same]
  rfl

/-- A solve opens with the same weights under another limit as well, unless only one of the limits is
zero. -/
theorem opening_variant (same : limit = 0 ↔ t.settings.maxIter = 0) (x y : List R) :
    (t.variant watch clock limit).opening x y = t.opening x y := by
  have weights : (t.variant watch clock limit).firstWeights x = t.firstWeights x := rfl
  have accept : Loop.accept (t.variant watch clock limit).settings
      (t.variant watch clock limit).problem.constraints x y =
        Loop.accept t.settings t.problem.constraints x y := accept_variant same x y
  rw [opening, opening, weights, accept]

/-- An iteration as far as its event does not depend on who watches, nor on the clock or the
limit. -/
def Evaluated.vary (v : t.Evaluated a) (watch : Observer P (Event R) Action) (clock : Nat → Nat)
    (limit : Nat) (watcher : P) : (t.variant watch clock limit).Evaluated (a.watchedBy watcher) :=
  ⟨v.solver, v.x, v.report, v.state, v.violation, v.answered, v.finite, v.updated⟩

end Variant

end Task

end AugmentedLagrangian
