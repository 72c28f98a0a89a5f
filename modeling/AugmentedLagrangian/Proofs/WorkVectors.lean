/- # AugmentedLagrangian.Proofs.WorkVectors — what is alive in the vectors of a solve

The method on vectors that are written over is the method on the values that they hold.  `WorkState`
has three vectors of which nothing is read before it is written: where the violation is measured,
where the kernel works, and where the weights are copied to.  As long as every vector has an entry
for each constraint (`WorkState.Filled`), each step does to the rest what it does to a `LoopState`
(`WorkState.live_updateMultipliers`, `WorkState.live_advance`), with the same calls.  So the two
solves are one (`Task.through_minimizeInPlace`).
-/
import AugmentedLagrangian.Outer.WorkVectors
import AugmentedLagrangian.Proofs.Lengths

namespace AugmentedLagrangian

set_option autoImplicit false

variable {R : Type} [Scalar R]

omit [Scalar R] in
theorem overwriteAll_of_length {source target : List R} (same : source.length = target.length) :
    overwriteAll source target = .done source () :=
  if_pos same

namespace WorkState

/-! ## Measuring the violation -/

omit [Scalar R] in
/-- Writing the next entry over a vector of which the first are written. -/
theorem set_take_append_drop {written buffer : List R} (same : buffer.length = written.length)
    {i : Nat} (within : i < written.length) :
    (written.take i ++ buffer.drop i).set i written[i] =
      written.take (i + 1) ++ buffer.drop (i + 1) := by
  have first : (written.take i).length = i := List.length_take_of_le (Nat.le_of_lt within)
  have next : buffer.drop i = buffer[i] :: buffer.drop (i + 1) := List.drop_eq_getElem_cons _
  rw [List.set_append_right _ _ (Nat.le_of_eq first), first, Nat.sub_self, next,
    List.set_cons_zero, ← List.take_append_getElem within, List.append_assoc]
  rfl

section Measuring

variable {box : Box R} {values y weights : List R} {m : Nat} (size : box.size = m)
  (hvalues : values.length = m) (hy : y.length = m) (hweights : weights.length = m)

include size hvalues hy hweights

/-- Once the first entries are written, writing the next one leaves one more of the violation. -/
theorem measureAt?_eq {buffer : List R} (length : buffer.length = m) {i : Nat} (within : i < m) :
    let violation := Multipliers.residual box.intervals values y weights
    measureAt? box values y weights (violation.take i ++ buffer.drop i) i =
      some (violation.take (i + 1) ++ buffer.drop (i + 1)) := by
  intro violation
  have full : violation.length = m := Multipliers.length_residual size hvalues hy hweights
  have in_violation : i < violation.length := full ▸ within
  have in_box : i < box.intervals.length := Nat.lt_of_lt_of_eq within size.symm
  have in_values : i < values.length := hvalues ▸ within
  have in_y : i < y.length := hy ▸ within
  have in_weights : i < weights.length := hweights ▸ within
  have entry : violation[i] =
      values[i] - (box.intervals[i]).project (values[i] + y[i] / weights[i]) := by
    simp only [violation, Multipliers.residual_eq, List.getElem_zipWith]
  have room : i < (violation.take i ++ buffer.drop i).length := by
    rw [List.length_append, List.length_take, List.length_drop]
    omega
  simp only [measureAt?, List.getElem?_eq_getElem in_values, List.getElem?_eq_getElem in_y,
    List.getElem?_eq_getElem in_weights, List.getElem?_eq_getElem in_box, Option.bind_eq_bind,
    Option.bind_some, if_pos room]
  rw [← entry, set_take_append_drop (length.trans full.symm) in_violation]
  rfl

/-- Whatever the vector held before, in the end it holds the violation. -/
theorem measure?_eq {buffer : List R} (length : buffer.length = m) :
    measure? box values y weights buffer =
      some (Multipliers.residual box.intervals values y weights) := by
  have full := Multipliers.length_residual size hvalues hy hweights
  have prefixes : ∀ i ≤ m, (List.range i).foldlM (measureAt? box values y weights) buffer =
      some ((Multipliers.residual box.intervals values y weights).take i ++ buffer.drop i) := by
    intro i within
    induction i with
    | zero => rfl
    | succ i ih =>
        rw [List.range_succ, List.foldlM_append, ih (Nat.le_of_succ_le within)]
        have step := measureAt?_eq size hvalues hy hweights length within
        simp only [Option.bind_eq_bind, Option.bind_some, List.foldlM_cons, List.foldlM_nil, step]
        rfl
  rw [measure?, hvalues, prefixes m (Nat.le_refl m), List.take_of_length_le (Nat.le_of_eq full),
    List.drop_eq_nil_of_le (Nat.le_of_eq length), List.append_nil]

end Measuring

/-! ## The steps -/

/-- Every vector has an entry for each of `m` constraints. -/
structure Filled (m : Nat) (s : WorkState R) : Prop where
  y : s.y.length = m
  weights : s.weights.length = m
  oldWeights : s.oldWeights.length = m
  values : s.values.length = m
  shifted : s.shifted.length = m
  violation : s.violation.length = m
  oldViolation : s.oldViolation.length = m

variable {p : Problem R} {settings : OuterSettings R} {s : WorkState R}

theorem measured_eq {c : Constraints R} (filled : s.Filled c.m) :
    let violation := Multipliers.residual c.values.intervals s.values s.y s.weights
    measured c s =
      .ok { s with violation, normE := Scalar.normInf violation, shifted := s.values } := by
  intro violation
  rw [measured, measure?_eq rfl filled.values filled.y filled.weights filled.violation,
    overwriteAll_of_length (filled.values.trans filled.shifted.symm)]
  rfl

theorem replaced_eq {c : Constraints R} (filled : s.Filled c.m) :
    replaced settings c s =
      .ok { s with
        y := Multipliers.clip settings.maxMultiplier c.values.lowers c.values.uppers
          s.shifted } := by
  rw [replaced, overwriteAll_of_length (filled.shifted.trans filled.y.symm)]
  rfl

/-- Replacing the multipliers does to what is alive what it does to a `LoopState`, with the same
calls, and leaves the violation beside it. -/
theorem live_updateMultipliers (settings : OuterSettings R) (tidy : p.Tidy) (filled : s.Filled p.m)
    (layers : List Layer) :
    let update := (s.updateMultipliers settings p.constraints).through p layers
    (Loop.updateMultipliers settings p.constraints s.live).through p layers =
        (update.1.map fun s' => (s'.live, s'.violation), update.2) ∧
      ∀ s', update.1 = .ok s' → s'.Filled p.m := by
  intro update
  simp only [update, updateMultipliers, Loop.updateMultipliers]
  by_cases none : s.y.isEmpty = true
  · have size : s.violation.length = 0 := by
      rw [filled.violation, ← filled.y, List.isEmpty_iff.1 none, List.length_nil]
    rw [if_pos none, if_pos (show s.live.y.isEmpty = true from none)]
    refine ⟨?_, ?_⟩
    · show _ = (Except.ok (_, s.violation), _)
      rw [List.eq_nil_of_length_eq_zero size]
      rfl
    · rintro s' ⟨⟩
      exact ⟨filled.y, filled.weights, filled.oldWeights, filled.values, filled.shifted,
        filled.violation, filled.oldViolation⟩
  rw [if_neg none, if_neg (show ¬ s.live.y.isEmpty = true from none)]
  simp only [live, Consult.bind_eq, Consult.through_bind, Consult.against_call, Problem.answer]
  generalize constr : p.constr s.x s.values = evaluated
  rcases evaluated with ⟨values, e | ⟨⟩⟩
  · exact ⟨rfl, by rintro s' ⟨⟩⟩
  have evaluates : values.length = p.m := tidy.constr filled.values constr
  have before : ({ s with values } : WorkState R).Filled p.constraints.m :=
    { filled with values := evaluates }
  simp only [measured_eq before, Consult.through_bind, Consult.against_call, Problem.answer]
  generalize kernel : p.shifted values s.y s.weights = turned
  rcases turned with ⟨shifted, e | distance⟩
  · exact ⟨rfl, by rintro s' ⟨⟩⟩
  have turns : shifted.length = p.m := tidy.shifted evaluates filled.y filled.weights kernel
  have measures := Multipliers.length_residual rfl evaluates filled.y filled.weights
  generalize Multipliers.residual p.constraints.values.intervals values s.y s.weights = violation
    at measures ⊢
  have after : ({ s with values, violation, normE := Scalar.normInf violation, shifted } :
      WorkState R).Filled p.constraints.m :=
    { filled with values := evaluates, violation := measures, shifted := turns }
  simp only [replaced_eq after]
  refine ⟨rfl, ?_⟩
  rintro s' ⟨⟩
  exact { after with y := (Multipliers.length_clip ..).trans turns }

/-- So whatever comes after it goes on in the same way. -/
theorem through_updateMultipliers {α : Type} (tidy : p.Tidy) (filled : s.Filled p.m)
    {f : Except EvalError (WorkState R) → Consult R α}
    {g : Except EvalError (LoopState R × List R) → Consult R α}
    (failed : ∀ e layers, (f (.error e)).through p layers = (g (.error e)).through p layers)
    (updated : ∀ s' : WorkState R, s'.Filled p.m → ∀ layers,
      (f (.ok s')).through p layers = (g (.ok (s'.live, s'.violation))).through p layers)
    (layers : List Layer) :
    ((s.updateMultipliers settings p.constraints).bind f).through p layers =
      ((Loop.updateMultipliers settings p.constraints s.live).bind g).through p layers := by
  have same := live_updateMultipliers settings tidy filled layers
  simp only [Consult.fst_through] at same
  obtain ⟨same, fills⟩ := same
  have outcome := congrArg Prod.fst same
  rw [Consult.fst_through] at outcome
  rw [Consult.through_bind, Consult.through_bind, same, outcome]
  cases result : (s.updateMultipliers settings p.constraints).against p with
  | error e => exact failed e _
  | ok s' => exact updated s' (fills s' result) _

/-- Going on does to what is alive what it does to a `LoopState`. -/
theorem live_advance (settings : OuterSettings R) {m : Nat} (filled : s.Filled m) (first : Bool) :
    Loop.advance settings first s.live s.violation = (s.advance settings first).map live ∧
      ∀ s', s.advance settings first = .ok s' → s'.Filled m := by
  rw [advance, updateWeights, overwriteAll_of_length (filled.weights.trans filled.oldWeights.symm)]
  simp only [Loop.advance, live, Written.done]
  generalize update : Weights.update settings settings.penaltyUpdateFactor first s.violation
    s.oldViolation s.normE s.oldNormE s.weights s.weights = updated
  rcases updated with ⟨weights, e | ⟨⟩⟩
  · exact ⟨rfl, by rintro s' ⟨⟩⟩
  refine ⟨rfl, ?_⟩
  rintro s' ⟨⟩
  exact { filled with
    weights := (Weights.length_update update).trans filled.weights
    oldWeights := filled.weights
    violation := filled.oldViolation
    oldViolation := filled.violation }

/-! ## Whole solves -/

section Solves

variable {S O : Type} {inner : InnerSolver R S} {watch : Observer O (Event R) Action}
  {clock : Nat → Nat}

/-- The iterations on filled vectors are those on what is alive in them, with the same calls. -/
theorem iterate_through (tidy : p.Tidy) (remaining k : Nat) (filled : s.Filled p.m)
    (past : List (Round R)) (solver : S) (watcher : O) (layers : List Layer) :
    (iterate settings p.constraints inner watch clock remaining k s past solver watcher).through p
        layers =
      (Loop.iterate settings p.constraints inner watch clock remaining k s.live past solver
        watcher).through p layers := by
  induction remaining generalizing k s past solver watcher layers with
  | zero => rfl
  | succ remaining ih =>
      simp only [iterate, Loop.iterate, Consult.bind_eq]
      rw [Consult.through_bind, Consult.through_bind]
      generalize (inner.solve p.constraints solver s.live.subproblem).against p = answered
      rcases answered with ⟨solver, e | ⟨x, report⟩⟩
      · rfl
      by_cases status : report.status = .notFinite
      · simp only [if_pos status]
        rfl
      simp only [if_neg status]
      have moved : ({ s with x, innerIterations := s.innerIterations + report.iterations } :
          WorkState R).Filled p.m := { filled with }
      refine through_updateMultipliers tidy moved ?_ ?_ _
      · intro e layers
        rfl
      intro s' filled' layers
      obtain ⟨advances, keeps⟩ := live_advance settings filled' (k == 0)
      have normE : s'.live.normE = s'.normE := rfl
      simp only [normE, advances]
      by_cases converges : s'.normE ≤ settings.delta ∧ report.stationarity ≤ settings.epsilon
      · simp only [if_pos converges]
      by_cases stops : (watch.observe watcher (s'.live.event k report)).2 = some .stopEarly
      · simp only [if_neg converges, if_pos stops]
      by_cases timesOut : settings.maxTime.nanoseconds ≤ clock k
      · simp only [if_neg converges, if_neg stops, if_pos timesOut]
      simp only [if_neg converges, if_neg stops, if_neg timesOut]
      cases advanced : s'.advance settings (k == 0) with
      | error e => rfl
      | ok next => exact ih (k + 1) (keeps next advanced) _ _ _ _

/-- A solve starts with filled vectors. -/
theorem filled_start {x y weights : List R} (length : y.length = p.m)
    (chosen : weights.length = p.m) : (start settings p.constraints x y weights).Filled p.m where
  y := length
  weights := chosen
  oldWeights := chosen
  values := List.length_replicate
  shifted := List.length_replicate
  violation := List.length_replicate
  oldViolation := List.length_replicate

end Solves

end WorkState

namespace Task

variable {S O : Type} (t : Task R S O)

/-- The run of a solve on vectors that are written over. -/
def runInPlace (layers : List Layer) (x y : List R) (solver : S) (watcher : O) : Run R S O :=
  ((minimizeInPlace t.settings t.problem.constraints t.inner t.watch t.clock x y solver
    watcher).through t.problem layers).1

variable {t}

/-- A solve on vectors that are written over is the solve, and makes the same calls. -/
theorem through_minimizeInPlace (tidy : t.problem.Tidy) (layers : List Layer) (x y : List R)
    (solver : S) (watcher : O) :
    (minimizeInPlace t.settings t.problem.constraints t.inner t.watch t.clock x y solver
        watcher).through t.problem layers =
      (minimize t.settings t.problem.constraints t.inner t.watch t.clock x y solver
        watcher).through t.problem layers := by
  rw [minimizeInPlace, minimize]
  cases accepted : Loop.accept t.settings t.problem.constraints x y with
  | error e => rfl
  | ok _ =>
      obtain ⟨-, -, length⟩ := Loop.accept_eq_ok.1 accepted
      have chosen := Loop.length_firstWeights t.settings t.problem x
      simp only [Consult.bind_eq]
      rw [Consult.through_bind, Consult.through_bind]
      generalize (Loop.firstWeights t.settings t.problem.constraints x).against t.problem = weights
        at chosen ⊢
      rcases weights with ⟨weights, e | ⟨⟩⟩
      · rfl
      · exact WorkState.iterate_through tidy _ _ (WorkState.filled_start length chosen) ..

/-- The run of a solve is that on vectors that are written over. -/
theorem runInPlace_eq (tidy : t.problem.Tidy) (layers : List Layer) (x y : List R) (solver : S)
    (watcher : O) : t.runInPlace layers x y solver watcher = t.run layers x y solver watcher :=
  congrArg Prod.fst (through_minimizeInPlace tidy layers x y solver watcher)

end Task

end AugmentedLagrangian
