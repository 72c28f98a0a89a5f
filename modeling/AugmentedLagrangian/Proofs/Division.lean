/- # AugmentedLagrangian.Proofs.Division — a solve divides by nothing that vanishes

`Dividing divide` is an arithmetic with another division and nothing else changed.  If the two
divisions differ at most where the divisor is zero, a computation that never divides by zero comes to
the same in both.

A solve divides in four places: the residual and the kernel divide by weights, which are positive;
the growth of a weight divides by the norm of the violation, which is then beyond `δ`; and a first
weight that is chosen is divided by one at least.  So a solve is the same under both divisions
(`Task.run_dividing`).
-/
import AugmentedLagrangian.Proofs.Invalid
import AugmentedLagrangian.Proofs.Lengths
import AugmentedLagrangian.Proofs.Variants

namespace AugmentedLagrangian

set_option autoImplicit false

open Scalar (Ordered Growing Vanishes larger magnitude sum)

variable {R : Type}

/-- The numbers of an arithmetic, to be divided another way. -/
def Dividing (_ : R → R → R) : Type := R

variable [Scalar R]

instance (divide : R → R → R) : Scalar (Dividing divide) where
  __ := (inferInstance : Scalar R)
  div := divide

/-- The divisions differ at most where the divisor is zero. -/
def Dividing.Agrees (divide : R → R → R) : Prop :=
  ∀ a b, ¬ Vanishes b → divide a b = a / b

theorem Scalar.not_vanishes_of_pos [Ordered R] {a : R} (positive : 0.0 < a) : ¬ Vanishes a :=
  fun vanishes => not_le_of_lt positive vanishes.1

/-- What is beyond a positive bound, or is no number, does not vanish. -/
theorem Scalar.not_vanishes_of_not_le [Ordered R] {a bound : R} (positive : 0.0 < bound)
    (beyond : ¬ a ≤ bound) : ¬ Vanishes a :=
  fun vanishes => beyond (le_trans vanishes.1 (le_of_lt positive))

/-- The larger of a value and one does not vanish. -/
theorem Scalar.not_vanishes_larger_one [Ordered R] (a : R) : ¬ Vanishes (larger a 1.0) := by
  exact not_vanishes_of_pos (pos_of_one_le (le_larger_right number_one))

/-! ## An update by its mode -/

namespace Weights

variable {s : OuterSettings R} {factor normE oldNormE : R} {first : Bool}
  {e old weights buffer : List R}

/-- With a single weight for all, an update beyond `δ` scales the first or keeps all. -/
theorem update_of_single (large : ¬ normE ≤ s.delta) (single : s.singlePenaltyFactor = true) :
    update s factor first e old normE oldNormE weights buffer =
      if first || decide (s.relPenaltyIncreaseThreshold * oldNormE < normE) then
        match weights with
        | [] => .failed buffer .breach
        | weight :: _ => .done (fill (Scalar.smaller s.maxPenalty (factor * weight)) buffer) ()
      else overwriteAll weights buffer := by
  unfold update
  exact (if_neg large).trans (if_pos single)

/-- With a weight for each, an update beyond `δ` lets them grow one by one. -/
theorem update_of_each (large : ¬ normE ≤ s.delta) (each : s.singlePenaltyFactor = false) :
    update s factor first e old normE oldNormE weights buffer =
      match growEach? s factor first normE e old weights buffer with
      | some kept => .done kept ()
      | none => .failed buffer .breach := by
  unfold update
  exact (if_neg large).trans (if_neg (by simp [each]))

end Weights

namespace Dividing

/-- A division may come to anything where the divisor is zero. -/
theorem agrees_of_value (value : R) :
    Agrees fun a b => if b ≤ 0.0 ∧ 0.0 ≤ b then value else a / b :=
  fun _ _ nonzero => if_neg nonzero

variable (divide : R → R → R)

def interval (i : Interval R) : Interval (Dividing divide) :=
  ⟨i.lower, i.upper, i.ordered⟩

def box (b : Box R) : Box (Dividing divide) :=
  ⟨b.intervals.map (interval divide)⟩

def constraints (c : Constraints R) : Constraints (Dividing divide) :=
  ⟨box divide c.domain, box divide c.values⟩

/-- The problem with the usual kernel under the other division.  What it evaluates for itself stays
as it is. -/
def problem (p : Problem R) : Problem (Dividing divide) where
  constraints := constraints divide p.constraints
  duplicable := p.duplicable
  cost := p.cost
  costGrad := p.costGrad
  constr := p.constr
  constrGradProd := p.constrGradProd
  constrGrad := p.constrGrad
  lagrHessProd := p.lagrHessProd
  lagrHess := p.lagrHess
  costWithGrad := p.costWithGrad
  costWithConstr := p.costWithConstr
  costWithGradConstr := p.costWithGradConstr
  gradTerms := p.gradTerms
  lagrGrad := p.lagrGrad
  merit := p.merit
  meritGradFrom := p.meritGradFrom
  meritGrad := p.meritGrad
  meritWithGrad := p.meritWithGrad
  shifted := Multipliers.shifted (box divide p.constraints.values)

@[simp] theorem size_box (b : Box R) : (box divide b).size = b.size :=
  List.length_map _

/-! ## Multipliers -/

theorem clip_eq (limit : R) (b : Box R) (ys : List R) :
    (Multipliers.clip (R := Dividing divide) limit (box divide b).lowers (box divide b).uppers ys :
        List R) = Multipliers.clip limit b.lowers b.uppers ys := by
  obtain ⟨is⟩ := b
  induction is generalizing ys with
  | nil => rfl
  | cons i is ih =>
      rcases ys with _ | ⟨y, ys⟩
      · rfl
      · exact congrArg (Multipliers.clipOne limit i.lower i.upper y :: ·) (ih ys)

variable {divide}

theorem residual_eq (agrees : Agrees divide) (is : List (Interval R)) (gs ys : List R) {σs : List R}
    (nonzero : ∀ σ ∈ σs, ¬ Vanishes σ) :
    (Multipliers.residual (R := Dividing divide) (is.map (interval divide)) gs ys σs : List R) =
      Multipliers.residual is gs ys σs := by
  induction is generalizing gs ys σs with
  | nil => rfl
  | cons i is ih =>
      rcases gs with _ | ⟨g, gs⟩
      · rfl
      rcases ys with _ | ⟨y, ys⟩
      · rfl
      rcases σs with _ | ⟨σ, σs⟩
      · rfl
      obtain ⟨here, rest⟩ := List.forall_mem_cons.1 nonzero
      -- rewriting does not see through `Dividing`, so the quotient is named and then replaced
      have step : ∀ shift : R, shift = y / σ →
          (g - i.project (g + shift)) ::
              (Multipliers.residual (R := Dividing divide) (is.map (interval divide)) gs ys σs :
                List R) =
            Multipliers.residual (i :: is) (g :: gs) (y :: ys) (σ :: σs) := by
        rintro _ rfl
        exact congrArg ((g - i.project (g + y / σ)) :: ·) (ih gs ys rest)
      exact step (divide y σ) (agrees y σ here)

theorem eachPass_eq (agrees : Agrees divide) (acc : R) (is : List (Interval R)) (gs ys : List R)
    {σs : List R} (nonzero : ∀ σ ∈ σs, ¬ Vanishes σ) :
    (Multipliers.eachPass (R := Dividing divide) acc (is.map (interval divide)) gs ys σs :
        R × List R) = Multipliers.eachPass acc is gs ys σs := by
  induction is generalizing acc gs ys σs with
  | nil => rfl
  | cons i is ih =>
      rcases gs with _ | ⟨g, gs⟩
      · rfl
      rcases ys with _ | ⟨y, ys⟩
      · rfl
      rcases σs with _ | ⟨σ, σs⟩
      · rfl
      obtain ⟨here, rest⟩ := List.forall_mem_cons.1 nonzero
      have step : ∀ inverse : R, inverse = 1.0 / σ →
          (let d := i.offset (g + inverse * y)
            let pass : R × List R := Multipliers.eachPass (R := Dividing divide) (acc + d * σ * d : R)
              (is.map (interval divide)) gs ys σs
            (pass.1, σ * d :: pass.2)) =
            Multipliers.eachPass acc (i :: is) (g :: gs) (y :: ys) (σ :: σs) := by
        rintro _ rfl
        exact congrArg (fun pass : R × List R =>
          (pass.1, σ * i.offset (g + 1.0 / σ * y) :: pass.2)) (ih _ gs ys rest)
      exact step (divide 1.0 σ) (agrees 1.0 σ here)

theorem shifted_eq (agrees : Agrees divide) {b : Box R} {g y weights : List R}
    (hg : g.length = b.size) (hy : y.length = b.size) (hσ : weights.length = b.size)
    (nonzero : ∀ σ ∈ weights, ¬ Vanishes σ) :
    (Multipliers.shifted (R := Dividing divide) (box divide b) g y weights :
        Written (List R) R) =
      Multipliers.shifted b g y weights := by
  have pass := eachPass_eq agrees 0.0 b.intervals g y nonzero
  have size := size_box divide b
  rw [Multipliers.shifted_each hg hy hσ]
  refine (Multipliers.shifted_each (R := Dividing divide) (hg.trans size.symm) (hy.trans size.symm)
    (hσ.trans size.symm)).trans ?_
  exact congrArg (fun pass : R × List R => Written.done pass.2 pass.1) pass

/-! ## Weights -/

theorem initial_eq [Ordered R] (agrees : Agrees divide) (s : OuterSettings R) (f : R) (g : List R) :
    (Weights.initial (R := Dividing divide) s f g : R) = Weights.initial s f g := by
  have step : ∀ value : R,
      value = s.initialPenaltyFactor * larger (magnitude f) 1.0 /
        larger (0.5 * sum (g.map fun v => v * v)) 1.0 →
      Scalar.smaller (larger value s.minPenalty) s.maxPenalty = Weights.initial s f g := by
    rintro _ rfl
    rfl
  exact step _ (agrees _ _ (Scalar.not_vanishes_larger_one _))

theorem grown_eq (agrees : Agrees divide) {normE : R} (nonzero : ¬ Vanishes normE)
    (s : OuterSettings R) (factor e weight : R) :
    (Weights.grown (R := Dividing divide) s factor normE e weight : R) =
      Weights.grown s factor normE e weight := by
  have step : ∀ share : R, share = factor * magnitude e / normE →
      Scalar.smaller s.maxPenalty (larger share 1.0 * weight) =
        Weights.grown s factor normE e weight := by
    rintro _ rfl
    rfl
  exact step _ (agrees _ _ nonzero)

theorem growEach?_eq (agrees : Agrees divide) {normE : R} (nonzero : ¬ Vanishes normE)
    (s : OuterSettings R) (factor : R) (first : Bool) (e old weights buffer : List R) :
    (Weights.growEach? (R := Dividing divide) s factor first normE e old weights buffer :
        Option (List R)) =
      Weights.growEach? s factor first normE e old weights buffer := by
  induction e generalizing old weights buffer with
  | nil => rfl
  | cons e es ih =>
      rcases weights with _ | ⟨weight, weights⟩
      · rfl
      rcases buffer with _ | ⟨slot, buffer⟩
      · rfl
      have step : ∀ next : R, next = Weights.grown s factor normE e weight →
          (do
            let grows ← Weights.grows? s first e old.head?
            let rest ← (Weights.growEach? (R := Dividing divide) s factor first normE es old.tail
              weights buffer : Option (List R))
            return (if grows then next else weight) :: rest) =
            Weights.growEach? s factor first normE (e :: es) old (weight :: weights)
              (slot :: buffer) := by
        rintro _ rfl
        rw [ih]
        rfl
      exact step _ (grown_eq agrees nonzero s factor e weight)

theorem update_eq [Ordered R] (agrees : Agrees divide) {s : OuterSettings R} (positive : 0.0 < s.delta)
    (factor : R) (first : Bool) (e old : List R) (normE oldNormE : R) (weights buffer : List R) :
    (Weights.update (R := Dividing divide) s factor first e old normE oldNormE weights buffer :
        Written (List R) Unit) =
      Weights.update s factor first e old normE oldNormE weights buffer := by
  by_cases small : normE ≤ s.delta
  · exact (if_pos small).trans (if_pos small).symm
  cases single : s.singlePenaltyFactor with
  | true =>
      exact (Weights.update_of_single (R := Dividing divide) small single).trans
        (Weights.update_of_single small single).symm
  | false =>
      have each := growEach?_eq agrees (Scalar.not_vanishes_of_not_le positive small) s factor first
        e old weights buffer
      refine (Weights.update_of_each (R := Dividing divide) small single).trans ?_
      rw [Weights.update_of_each small single]
      exact congrArg (fun grown : Option (List R) =>
        match grown with
        | some kept => Written.done kept ()
        | none => .failed buffer .breach) each

end Dividing

/-! ## Solves -/

namespace Task

variable {S O : Type} (t : Task R S O)

/-- The solve under another division.  The inner solver answers as it did: what it divides by is its
own affair. -/
def dividing (divide : R → R → R) : Task (Dividing divide) S O where
  problem := Dividing.problem divide t.problem
  settings := t.settings
  inner := ⟨fun _ solver asked =>
    .done ((t.inner.solve t.problem.constraints solver asked).against t.problem)⟩
  watch := t.watch
  clock := t.clock

variable {t} {divide : R → R → R}

theorem m_dividing : (t.dividing divide).problem.constraints.m = t.problem.constraints.m :=
  Dividing.size_box divide _

theorem accept_dividing {x y : List R}
    (accepted : Loop.accept t.settings t.problem.constraints x y = .ok ()) :
    Loop.accept (t.dividing divide).settings (t.dividing divide).problem.constraints x y =
      .ok () := by
  obtain ⟨good, point, multipliers⟩ := Loop.accept_eq_ok.1 accepted
  apply Loop.accept_eq_ok.2
  refine ⟨⟨good.epsilon, good.delta, good.penaltyUpdateFactor, good.initialPenalty,
    good.initialPenaltyFactor, good.initialTolerance, good.toleranceUpdateFactor,
    good.relPenaltyIncreaseThreshold, good.maxMultiplier, good.minPenalty, good.maxPenalty,
    good.maxIter, good.maxTime⟩, ?_, ?_⟩
  · exact point.trans (Dividing.size_box divide _).symm
  · exact multipliers.trans m_dividing.symm

theorem choose_dividing [Ordered R] (agrees : Dividing.Agrees divide) (m : Nat)
    (x weights : List R) :
    ((Weights.choose (R := Dividing divide) t.settings m x weights).against
        (t.dividing divide).problem : Written (List R) Unit) =
      (Weights.choose t.settings m x weights).against t.problem := by
  refine (Weights.choose_against (R := Dividing divide) _ m x weights).trans
    (Eq.trans ?_ (Weights.choose_against t.problem m x weights).symm)
  have cost : (t.dividing divide).problem.cost x = t.problem.cost x := rfl
  have constr : (t.dividing divide).problem.constr x (List.replicate m 0.0) =
      t.problem.constr x (List.replicate m 0.0) := rfl
  rw [cost, constr]
  rcases t.problem.cost x with e | f
  · rfl
  rcases t.problem.constr x (List.replicate m 0.0) with ⟨g, e | u⟩
  · rfl
  · exact congrArg (fun σ => Written.done (fill σ weights) ())
      (Dividing.initial_eq agrees t.settings f g)

theorem firstWeights_dividing [Ordered R] (agrees : Dividing.Agrees divide) (x : List R) :
    ((t.dividing divide).firstWeights x : Written (List R) Unit) = t.firstWeights x := by
  refine (firstWeights_eq_choose (t := t.dividing divide)).trans
    (Eq.trans ?_ (firstWeights_eq_choose (t := t)).symm)
  rw [m_dividing]
  refine ite_congr rfl (fun _ => rfl) fun _ => ?_
  have penalty : (t.dividing divide).settings.initialPenalty = t.settings.initialPenalty := rfl
  rw [penalty]
  cases t.settings.initialPenalty with
  | some σ => rfl
  | none => exact choose_dividing agrees _ _ _

/-- The multipliers are replaced alike, where no weight vanishes. -/
theorem update_dividing (agrees : Dividing.Agrees divide)
    (kernel : t.problem.shifted = Multipliers.shifted t.problem.constraints.values)
    (tidy : t.problem.Tidy) {s : LoopState R} (filled : t.Filled s)
    (nonzero : ∀ σ ∈ s.weights, ¬ Vanishes σ) :
    ((t.dividing divide).update s : Except EvalError (LoopState R × List R)) = t.update s := by
  by_cases none : s.y = []
  · exact (update_of_empty (t := t.dividing divide) none).trans (update_of_empty none).symm
  rcases constr : t.problem.constr s.x s.values with ⟨values, e | ⟨⟩⟩
  · exact (update_of_failed (t := t.dividing divide) none constr).trans
      (update_of_failed none constr).symm
  have length := tidy.constr filled.values constr
  obtain ⟨shifted, distance, done⟩ : ∃ shifted distance,
      t.problem.shifted values s.y s.weights = .done shifted distance := by
    rw [kernel]
    exact ⟨_, _, Multipliers.shifted_each length filled.y filled.weights⟩
  have divided : (t.dividing divide).problem.shifted values s.y s.weights = .done shifted distance := by
    refine (Dividing.shifted_eq agrees length filled.y filled.weights nonzero).trans ?_
    rw [← kernel]
    exact done
  have step : ∀ y violation : List R,
      y = Multipliers.clip t.settings.maxMultiplier t.problem.constraints.values.lowers
        t.problem.constraints.values.uppers shifted →
      violation = Multipliers.residual t.problem.constraints.values.intervals values s.y s.weights →
      .ok ({ s with y, values, normE := Scalar.normInf violation }, violation) = t.update s := by
    rintro _ _ rfl rfl
    exact (update_of_evaluated none constr done).symm
  have clipped := Dividing.clip_eq divide t.settings.maxMultiplier t.problem.constraints.values shifted
  have residual := Dividing.residual_eq agrees t.problem.constraints.values.intervals values s.y
    nonzero
  exact (update_of_evaluated (t := t.dividing divide) none constr divided).trans
    (step _ _ clipped residual)

/-- The next weights are chosen alike: what they are divided by is beyond `δ`. -/
theorem advance_dividing [Ordered R] (agrees : Dividing.Agrees divide) (good : t.settings.Admissible)
    (first : Bool) (s : LoopState R) (violation : List R) :
    (Loop.advance (R := Dividing divide) t.settings first s violation :
      Except EvalError (LoopState R)) = Loop.advance t.settings first s violation := by
  have step : ∀ updated : Written (List R) Unit,
      updated = Weights.update t.settings t.settings.penaltyUpdateFactor first violation
        s.violation s.normE s.oldNormE s.weights s.weights →
      updated.outcome.map (fun _ => { s with
        weights := updated.kept
        violation
        oldNormE := s.normE
        tolerance :=
          larger (t.settings.toleranceUpdateFactor * s.tolerance) t.settings.epsilon }) =
        Loop.advance t.settings first s violation := by
    rintro _ rfl
    rfl
  exact step _ (Dividing.update_eq agrees good.delta ..)

section Iterations

variable {k : Nat} {a b : Snapshot R S O} {run : Run R S O}

variable (t divide k a) in
/-- The other division makes no difference to iteration `k` from a snapshot. -/
structure Undivided : Prop where
  updates : ∀ x report, ((t.dividing divide).update (a.state.moved x report) :
    Except EvalError (LoopState R × List R)) = t.update (a.state.moved x report)
  advances : ∀ s violation, (Loop.advance (R := Dividing divide) t.settings (k == 0) s violation :
    Except EvalError (LoopState R)) = Loop.advance t.settings (k == 0) s violation

theorem undivided [Growing R] (agrees : Dividing.Agrees divide)
    (kernel : t.problem.shifted = Multipliers.shifted t.problem.constraints.values)
    (tidy : t.problem.Tidy) (good : t.settings.Admissible) (filled : t.Filled a.state)
    (weighted : t.Weighted a.state.weights) : t.Undivided divide k a where
  updates := by
    intro x report
    apply update_dividing agrees kernel tidy (filled.moved x report)
    intro σ member
    exact Scalar.not_vanishes_of_pos (weighted.positive σ member)
  advances := advance_dividing agrees good (k == 0)

/-- The same iteration under the other division. -/
def Evaluated.divided (v : t.Evaluated a) (same : t.Undivided divide k a) :
    (t.dividing divide).Evaluated a :=
  ⟨v.solver, v.x, v.report, v.state, v.violation, v.answered, v.finite,
    (same.updates v.x v.report).trans v.updated⟩

theorem Ends.divided (ends : t.Ends k a run) (same : t.Undivided divide k a) :
    (t.dividing divide).Ends k a run := by
  cases ends with
  | refused answered => exact .refused (t := t.dividing divide) answered
  | notFinite answered status => exact .notFinite (t := t.dividing divide) answered status
  | unevaluated answered finite failed =>
      exact .unevaluated (t := t.dividing divide) answered finite
        ((same.updates _ _).trans failed)
  | converged v converges => exact .converged (v.divided same) converges
  | stopped v converges stops => exact .stopped (v.divided same) converges stops
  | timedOut v converges stops timesOut =>
      exact .timedOut (v.divided same) converges stops timesOut
  | unweighted v converges stops timesOut failed =>
      exact .unweighted (v.divided same) converges stops timesOut
        ((same.advances _ _).trans failed)

theorem Continues.divided (continues : t.Continues k a b) (same : t.Undivided divide k a) :
    (t.dividing divide).Continues k a b := by
  cases continues with
  | next v converges stops timesOut advanced =>
      exact .next (v.divided same) converges stops timesOut ((same.advances _ _).trans advanced)

end Iterations

/-- The iterations from a snapshot are the same, if its vectors are filled and its weights
positive. -/
theorem iterate_dividing [Growing R] (agrees : Dividing.Agrees divide)
    (kernel : t.problem.shifted = Multipliers.shifted t.problem.constraints.values)
    (tidy : t.problem.Tidy) (good : t.settings.Admissible) (remaining k : Nat)
    {a : Snapshot R S O} (filled : t.Filled a.state) (weighted : t.Weighted a.state.weights) :
    ((t.dividing divide).iterate remaining k a : Run R S O) = t.iterate remaining k a := by
  induction remaining generalizing k a with
  | zero => rfl
  | succ remaining ih =>
      have same : t.Undivided divide k a := undivided agrees kernel tidy good filled weighted
      rcases t.iterate_succ remaining k a with ends | ⟨b, continues, follows⟩
      · exact (ends.divided same).iterate_eq
      · rw [follows]
        refine (continues.divided same).iterate_eq.trans ?_
        exact ih (k + 1) (continues.filled tidy good filled) (continues.weighted good weighted)

variable (t)

/-- A solve with the usual kernel is the same under any division that differs at most where the
divisor is zero: it divides by nothing that vanishes. -/
theorem run_dividing [Growing R] (agrees : Dividing.Agrees divide)
    (kernel : t.problem.shifted = Multipliers.shifted t.problem.constraints.values)
    (tidy : t.problem.Tidy) {layers layers' : List Layer} {x y : List R} {solver : S} {watcher : O}
    (accepted : Loop.accept t.settings t.problem.constraints x y = .ok ()) :
    ((t.dividing divide).run layers' x y solver watcher : Run R S O) =
      t.run layers x y solver watcher := by
  obtain ⟨good, -, length⟩ := Loop.accept_eq_ok.1 accepted
  have weights := firstWeights_dividing (t := t) agrees x
  rcases chosen : t.firstWeights x with ⟨first, e | ⟨⟩⟩
  · rw [run_of_failed accepted chosen]
    exact run_of_failed (accept_dividing accepted) (weights.trans chosen)
  have filled := filled_first good length chosen solver watcher
  have start : ((t.dividing divide).first x y first solver watcher : Snapshot R S O) =
      t.first x y first solver watcher := by
    have step : ∀ m, m = t.problem.constraints.m →
        (⟨⟨x, y, first, t.settings.initialTolerance, List.replicate m 0.0, List.replicate m 0.0,
          Scalar.infinity, Scalar.infinity, 0⟩, [], solver, watcher⟩ : Snapshot R S O) =
          t.first x y first solver watcher := by
      rintro _ rfl
      rfl
    exact step _ m_dividing
  rw [run_of_chosen accepted chosen]
  refine (run_of_chosen (accept_dividing accepted) (weights.trans chosen)).trans ?_
  refine (congrArg ((t.dividing divide).iterate t.settings.maxIter 0) start).trans ?_
  exact iterate_dividing agrees kernel tidy good _ _ filled (first_weighted good chosen)

end Task

end AugmentedLagrangian
