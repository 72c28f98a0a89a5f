/- # AugmentedLagrangian.Proofs.LostMultipliers — converged, with multipliers that are no numbers

Whether a solve has converged is read off the residual `g - Π(g + y/σ)`.  The multipliers that it
returns come from the kernel, which computes `σ (ζ - Π(ζ))` with `ζ = g + (1/σ) y`.  Where the
residual is a number, so are `g` and `y`; but the kernel can still meet an invalid operation that
the residual does not.  It inverts a weight before it is used, so that `1/σ` may be infinite where
`y/σ` is zero, and it scales by a weight that may itself be infinite.

`Multipliers.Lost` lists the ways in which this happens to a constraint.
`Task.converged_numbers_iff` says that there are no others: the norm and the weights of a solve that
ends as converged are numbers, and its multipliers are as well exactly if no constraint is lost in
the last round.
-/
import AugmentedLagrangian.Inner.Replay
import AugmentedLagrangian.Proofs.History
import AugmentedLagrangian.Proofs.Invalid

namespace AugmentedLagrangian

set_option autoImplicit false

open Scalar (isNaN infinity Infinite Vanishes Opposed Incompatible Ieee Growing)

variable {R : Type} [Scalar R]

/-! ## One constraint -/

/-- The difference of a value and its projection is no number where the value is infinite on a side
on which the interval is free. -/
theorem Interval.isNaN_offset [Ieee R] {i : Interval R} {ζ : R} (number : isNaN ζ = false) :
    isNaN (i.offset ζ) = true ↔
      infinity ≤ ζ ∧ infinity ≤ i.upper ∨ ζ ≤ -infinity ∧ i.lower ≤ -infinity := by
  have projected : isNaN (i.project ζ) = false := (Scalar.isNaN_pin ..).trans number
  obtain ⟨above, below⟩ := Scalar.pin_within i.ordered number
  rw [offset, Ieee.isNaN_sub, number, projected, Scalar.Aligned]
  simp only [Bool.false_eq_true, false_or]
  refine or_congr (and_congr_right fun large => ⟨fun le => Scalar.le_trans le below, fun free => ?_⟩)
    (and_congr_right fun small => ⟨fun le => Scalar.le_trans above le, fun free => ?_⟩)
  · rw [project]
    rcases Scalar.pin_cases i.ordered number with ⟨lt, same⟩ | ⟨-, -, same⟩ | ⟨-, same⟩
    all_goals rw [same]
    · exact Scalar.le_trans large (Scalar.le_of_lt lt)
    · exact large
    · exact free
  · rw [project]
    rcases Scalar.pin_cases i.ordered number with ⟨-, same⟩ | ⟨-, -, same⟩ | ⟨lt, same⟩
    all_goals rw [same]
    · exact free
    · exact small
    · exact Scalar.le_trans (Scalar.le_of_lt lt) small

namespace Multipliers

/-- How the kernel can lose a multiplier whose constraint value `g`, multiplier `y` and weight `σ`
are numbers. -/
inductive Lost (i : Interval R) (g y σ : R) : Prop
  /-- The inverse of a weight is infinite and its multiplier zero, or the reverse. -/
  | shift (invalid : Incompatible (1.0 / σ) y)
  /-- The constraint value and its shift are opposite infinities. -/
  | sum (invalid : Opposed g (1.0 / σ * y))
  /-- The shifted value is infinite and has no upper bound. -/
  | above (infinite : infinity ≤ g + 1.0 / σ * y) (free : infinity ≤ i.upper)
  /-- The shifted value is infinite and has no lower bound. -/
  | below (infinite : g + 1.0 / σ * y ≤ -infinity) (free : i.lower ≤ -infinity)
  /-- The weight is infinite and the shifted value meets the constraint. -/
  | scale (infinite : Infinite σ) (meets : Vanishes (i.offset (g + 1.0 / σ * y)))

section

variable [Ieee R] {i : Interval R} {g y σ : R}

theorem number_inverse (positive : 0.0 < σ) : isNaN (1.0 / σ) = false := by
  refine Bool.eq_false_iff.2 fun nan => ?_
  rcases Ieee.isNaN_div.1 nan with none | none | ⟨infinite, -⟩ | ⟨-, zero⟩
  · rw [Scalar.number_one] at none
    cases none
  · rw [Scalar.isNaN_right (Scalar.le_of_lt positive)] at none
    cases none
  · exact Ieee.not_infinite_one infinite
  · exact Scalar.not_le_of_lt positive zero.1

/-- The shifted value is no number where its shift or their sum is invalid. -/
theorem isNaN_sum_iff (number : isNaN g = false) (number' : isNaN y = false) (positive : 0.0 < σ) :
    isNaN (g + 1.0 / σ * y) = true ↔
      Incompatible (1.0 / σ) y ∨ Opposed g (1.0 / σ * y) := by
  rw [Ieee.isNaN_add, Ieee.isNaN_mul, number, number', number_inverse positive]
  simp only [Bool.false_eq_true, false_or]

/-- The shifted multiplier of a constraint is no number exactly if it is lost. -/
theorem isNaN_shifted_iff (number : isNaN g = false) (number' : isNaN y = false)
    (positive : 0.0 < σ) : isNaN (σ * i.offset (g + 1.0 / σ * y)) = true ↔ Lost i g y σ := by
  have sum := isNaN_sum_iff number number' positive
  have offset_of_sum : isNaN (g + 1.0 / σ * y) = true →
      isNaN (σ * i.offset (g + 1.0 / σ * y)) = true := fun nan =>
    Ieee.isNaN_mul.2 (.inr (.inl (Ieee.isNaN_sub.2 (.inl nan))))
  have offset : isNaN (g + 1.0 / σ * y) = false → isNaN (i.offset (g + 1.0 / σ * y)) = true →
      Lost i g y σ := fun number nan => by
    rcases (Interval.isNaN_offset number).1 nan with ⟨infinite, free⟩ | ⟨infinite, free⟩
    · exact .above infinite free
    · exact .below infinite free
  constructor
  · intro nan
    cases number : isNaN (g + 1.0 / σ * y) with
    | true =>
        rcases sum.1 number with invalid | invalid
        · exact .shift invalid
        · exact .sum invalid
    | false =>
        rcases Ieee.isNaN_mul.1 nan with none | none | ⟨infinite, meets⟩ | ⟨zero, -⟩
        · rw [Scalar.isNaN_right (Scalar.le_of_lt positive)] at none
          cases none
        · exact offset number none
        · exact .scale infinite meets
        · exact absurd zero.1 (Scalar.not_le_of_lt positive)
  · intro lost
    cases lost with
    | shift invalid => exact offset_of_sum (sum.2 (.inl invalid))
    | sum invalid => exact offset_of_sum (sum.2 (.inr invalid))
    | above infinite free =>
        refine Ieee.isNaN_mul.2 (.inr (.inl ?_))
        exact (Interval.isNaN_offset (Scalar.isNaN_right infinite)).2 (.inl ⟨infinite, free⟩)
    | below infinite free =>
        refine Ieee.isNaN_mul.2 (.inr (.inl ?_))
        exact (Interval.isNaN_offset (Scalar.isNaN_left infinite)).2 (.inr ⟨infinite, free⟩)
    | scale infinite meets => exact Ieee.isNaN_mul.2 (.inr (.inr (.inl ⟨infinite, meets⟩)))

/-- Where the residual is a number, so are the constraint value and the multiplier. -/
theorem numbers_of_residual (number : isNaN (g - i.project (g + y / σ)) = false) :
    isNaN g = false ∧ isNaN y = false := by
  have not : ∀ {a : R}, (isNaN a = true → isNaN (g - i.project (g + y / σ)) = true) →
      isNaN a = false := fun spreads => Bool.eq_false_iff.2 fun nan => by
    rw [spreads nan] at number
    cases number
  refine ⟨not fun nan => Ieee.isNaN_sub.2 (.inl nan), not fun nan => ?_⟩
  refine Ieee.isNaN_sub.2 (.inr (.inl ?_))
  rw [Interval.project, Scalar.isNaN_pin]
  exact Ieee.isNaN_add.2 (.inr (.inl (Ieee.isNaN_div.2 (.inl nan))))

end

/-! ## All constraints -/

/-- Some constraint is lost. -/
def SomeLost (is : List (Interval R)) (gs ys σs : List R) : Prop :=
  ∃ q ∈ is.zip (gs.zip (ys.zip σs)), Lost q.1 q.2.1 q.2.2.1 q.2.2.2

theorem someLost_cons {i : Interval R} {is : List (Interval R)} {g y σ : R} {gs ys σs : List R} :
    SomeLost (i :: is) (g :: gs) (y :: ys) (σ :: σs) ↔ Lost i g y σ ∨ SomeLost is gs ys σs := by
  simp [SomeLost]

/-- Where the residual is made of numbers, so are the clipped multipliers exactly if no constraint
is lost. -/
theorem numbers_of_clip_iff [Ieee R] (limit acc : R) {is : List (Interval R)} {gs ys σs : List R}
    (hg : gs.length = is.length) (hy : ys.length = is.length) (hσ : σs.length = is.length)
    (positive : ∀ σ ∈ σs, 0.0 < σ) (numbers : ∀ e ∈ residual is gs ys σs, isNaN e = false) :
    (∀ y ∈ clip limit (is.map Interval.lower) (is.map Interval.upper)
        (eachPass acc is gs ys σs).2, isNaN y = false) ↔ ¬ SomeLost is gs ys σs := by
  induction is generalizing gs ys σs acc with
  | nil =>
      obtain rfl := List.length_eq_zero_iff.1 hg
      simp [SomeLost, eachPass, clip]
  | cons i is ih =>
      cases gs with
      | nil => cases hg
      | cons g gs =>
          cases ys with
          | nil => cases hy
          | cons y ys =>
              cases σs with
              | nil => cases hσ
              | cons σ σs =>
                  rw [List.forall_mem_cons] at positive
                  rw [residual, List.forall_mem_cons] at numbers
                  obtain ⟨number, number'⟩ := numbers_of_residual numbers.1
                  have here := isNaN_shifted_iff (i := i) number number' positive.1
                  have rest := ih (acc + i.offset (g + 1.0 / σ * y) * σ *
                    i.offset (g + 1.0 / σ * y)) (Nat.succ.inj hg) (Nat.succ.inj hy)
                    (Nat.succ.inj hσ) positive.2 numbers.2
                  show (∀ y' ∈ clipOne limit i.lower i.upper (σ * i.offset (g + 1.0 / σ * y)) ::
                    clip limit (is.map Interval.lower) (is.map Interval.upper)
                      (eachPass _ is gs ys σs).2, isNaN y' = false) ↔ _
                  rw [List.forall_mem_cons, rest, isNaN_clipOne, someLost_cons, not_or, ← here,
                    Bool.not_eq_true]

end Multipliers

/-! ## The solve -/

namespace Task

variable {S O : Type} {t : Task R S O}

/-- The violation of an iteration whose norm is a number tells of its multipliers. -/
theorem Evaluated.numbers_iff [Ieee R]
    (kernel : t.problem.shifted = Multipliers.shifted t.problem.constraints.values)
    (tidy : t.problem.Tidy) {a : Snapshot R S O} (v : t.Evaluated a) (k : Nat)
    (filled : t.Filled a.state) (remembers : 0 < t.problem.m → t.Remembers a)
    (weighted : t.Weighted a.state.weights) (number : isNaN v.state.normE = false) :
    (∀ y ∈ v.state.y, isNaN y = false) ↔
      ¬ Multipliers.SomeLost t.problem.constraints.values.intervals (t.values (v.round k :: a.past))
        a.state.y a.state.weights := by
  rcases Nat.eq_zero_or_pos t.problem.m with none | some
  · have intervals : t.problem.constraints.values.intervals = [] :=
      List.eq_nil_of_length_eq_zero none
    have y : v.state.y = [] := List.eq_nil_of_length_eq_zero <|
      (v.updates.filled tidy (filled.moved v.x v.report)).1.y.trans none
    simp [intervals, y, Multipliers.SomeLost]
  · obtain ⟨values, shifted, distance, constr, computed, residual, same⟩ :=
      v.updates.exists_evaluated (filled.y_ne_nil some)
    have length : values.length = t.problem.m := tidy.constr filled.values constr
    have known : values = t.values (v.round k :: a.past) := by
      rw [← (v.remembers k some filled (remembers some)).1, same]
    have computed : t.problem.shifted values a.state.y a.state.weights = .done shifted distance :=
      computed
    rw [kernel, Multipliers.shifted_each length filled.y weighted.length] at computed
    cases computed
    rw [same] at number
    have numbers := Scalar.numbers_of_normInf number
    rw [residual] at numbers
    rw [same, ← known]
    exact Multipliers.numbers_of_clip_iff _ _ length filled.y weighted.length weighted.positive
      numbers

variable (t)

/-- The norm and the weights of a solve that ends as converged are numbers; its multipliers are
exactly if no constraint is lost in the last round. -/
theorem converged_numbers_iff [Growing R] [Ieee R]
    (kernel : t.problem.shifted = Multipliers.shifted t.problem.constraints.values)
    (tidy : t.problem.Tidy) {layers : List Layer} {x y : List R} {solver : S} {watcher : O}
    {run : Run R S O} (isRun : run = t.run layers x y solver watcher) {sol : Solution R}
    (solved : run.outcome = .ok sol) (converged : sol.status = .converged) :
    isNaN sol.normE = false ∧ (∀ σ ∈ sol.weights, isNaN σ = false) ∧
      ∃ last, run.rounds.getLast? = some last ∧
        ((∀ y ∈ sol.y, isNaN y = false) ↔
          ¬ Multipliers.SomeLost t.problem.constraints.values.intervals
            (t.values run.rounds.reverse) last.asked.y last.asked.weights) := by
  subst isRun
  obtain ⟨weights, path, last, starts⟩ := t.starts_of_ok solved
  generalize t.run layers x y solver watcher = run at *
  rcases starts.follows.ends_inv with ⟨-, same⟩ | ⟨-, ends⟩
  · rw [same] at solved
    cases solved
    cases converged
  · obtain ⟨v, converges, rounds, rfl⟩ := ends.converged_inv solved converged
    have weighted := starts.weighted le_rfl
    have number := Scalar.isNaN_left converges.1
    refine ⟨number, fun σ member => ?_, v.round last, ?_, ?_⟩
    · change σ ∈ v.state.weights at member
      rw [v.state_weights] at member
      exact Scalar.isNaN_right (Scalar.le_of_lt (weighted.positive σ member))
    · rw [rounds, List.getLast?_reverse]
      rfl
    · rw [rounds, List.reverse_reverse]
      exact v.numbers_iff kernel tidy last (starts.filled tidy le_rfl)
        (fun some => starts.remembers tidy some le_rfl) weighted number

/-- One constraint, met from the start, whose weight is given. -/
def weighing (σ : Float) : Task Float (ReplayState Float) Unit where
  problem := .ofPrimitives ⟨.unbounded 1, ⟨[.between 0.0 1.0 Scalar.zero_le_one]⟩⟩
    { constr? := some fun x => overwriteAll x }
  settings := { OuterSettings.default with initialPenalty := some σ }
  inner := Replay.solver []
  watch := .silent
  clock := quickClock

theorem weighing_tidy (σ : Float) : (weighing σ).problem.Tidy :=
  Problem.tidy_of_kernel rfl fun length done => (length_of_overwriteAll done).trans length

theorem weighing_converged_numbers_iff :
    let run := (weighing 1.0).run [] [0.5] [0.0] {} ()
    ∃ sol, run.outcome = .ok sol ∧ sol.status = .converged ∧ isNaN sol.normE = false ∧
      (∀ σ ∈ sol.weights, isNaN σ = false) ∧
      ∃ last, run.rounds.getLast? = some last ∧
        ((∀ y ∈ sol.y, isNaN y = false) ↔
          ¬ Multipliers.SomeLost (weighing 1.0).problem.constraints.values.intervals
            ((weighing 1.0).values run.rounds.reverse) last.asked.y last.asked.weights) := by
  intro run
  have shown : run.outcome.toOption.map Solution.status = some .converged := by decide +kernel
  obtain ⟨sol, solved, converged⟩ := Run.exists_solution shown
  exact ⟨sol, solved, converged,
    (weighing 1.0).converged_numbers_iff rfl (weighing_tidy 1.0) rfl solved converged⟩

/-- The least positive weight has no finite inverse: the solve converges, and its multiplier is no
number. -/
theorem weighing_not_numbers :
    let light := weighing 5e-324
    Loop.accept light.settings light.problem.constraints [0.5] [0.0] = .ok () ∧
      ∃ sol, (light.run [] [0.5] [0.0] {} ()).outcome = .ok sol ∧ sol.status = .converged ∧
        sol.normE = 0.0 ∧ ∃ y ∈ sol.y, isNaN y = true := by
  have shown : ((weighing 5e-324).run [] [0.5] [0.0] {} ()).outcome.toOption.map (fun sol =>
      (sol.status, sol.normE, sol.y.any isNaN)) = some (.converged, 0.0, true) := by
    decide +kernel
  obtain ⟨sol, solved, shown⟩ := Run.exists_solution shown
  obtain ⟨status, shown⟩ := Prod.mk.inj shown
  obtain ⟨norm, none⟩ := Prod.mk.inj shown
  exact ⟨by decide +kernel, sol, solved, status, norm, by simpa using none⟩

end Task

end AugmentedLagrangian
