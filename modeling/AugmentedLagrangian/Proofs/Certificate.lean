/- # AugmentedLagrangian.Proofs.Certificate — what convergence certifies

In exact arithmetic a solve that ends as converged has found a point that is feasible and
complementary to within `δ` (`Task.converged_certified`): every constraint value is within `δ` of
its interval, and a multiplier is only positive where the value is within `δ` of a finite upper
bound, and only negative where it is within `δ` of a finite lower one.

All of it comes from one residual, `g - Π(g + y/σ)`, which is at most `δ` where the solve ends.  The
projection lies in the interval, so the value is near it.  And the multiplier that the kernel
computes has the sign of the distance to the projection; where that is positive the projection is
the upper bound, so what the residual measures is the distance to that bound.  Clipping does not
turn a sign, and leaves nothing where a bound is infinite.
-/
import AugmentedLagrangian.Inner.Replay
import AugmentedLagrangian.Proofs.Exact
import AugmentedLagrangian.Proofs.Regular

namespace AugmentedLagrangian

set_option autoImplicit false
set_option linter.unusedSectionVars false

open Scalar (isNaN magnitude isFinite)

variable {K : Type} [Field K] [LinearOrder K] [IsStrictOrderedRing K]

/-- A constraint value and a multiplier that are feasible and complementary to within `δ`. -/
structure Certified (δ : Exact K) (i : Interval (Exact K)) (g y : Exact K) : Prop where
  least : i.lower - δ ≤ g
  most : g ≤ i.upper + δ
  positive : 0.0 < y → isFinite i.upper ∧ magnitude (g - i.upper) ≤ δ
  negative : y < 0.0 → isFinite i.lower ∧ magnitude (g - i.lower) ≤ δ

/-! ## One constraint -/

namespace Multipliers

variable {i : Interval (Exact K)} {limit lower upper y : Exact K}

/-- A multiplier that is positive once it is clipped was so before, and its constraint has an upper
bound. -/
theorem of_clipOne_pos (positive : 0.0 < limit) (clipped : 0.0 < clipOne limit lower upper y) :
    0.0 < y ∧ ¬ Scalar.infinity ≤ upper := by
  rw [clipOne_eq_pin] at clipped
  obtain ⟨nonpos, nonneg⟩ := range_around_zero positive lower upper
  have number := Scalar.number_of_pin (Scalar.isNaN_right (Scalar.le_of_lt clipped))
  have bounded : ∀ {a}, 0.0 < a → a ≤ (range limit lower upper).2 → ¬ Scalar.infinity ≤ upper := by
    intro a above le infinite
    have zero : (range limit lower upper).2 = 0.0 := if_pos infinite
    rw [zero] at le
    exact Scalar.not_le_of_lt above le
  rcases Scalar.pin_cases (Scalar.le_trans nonpos nonneg) number with
    ⟨-, same⟩ | ⟨-, below, same⟩ | ⟨above, same⟩
  all_goals rw [same] at clipped
  · exact absurd nonpos (Scalar.not_le_of_lt clipped)
  · exact ⟨clipped, bounded clipped below⟩
  · have at_limit := Scalar.le_refl_of_number (Scalar.isNaN_left (Scalar.le_of_lt above))
    exact ⟨Scalar.lt_of_lt_of_le clipped (Scalar.le_of_lt above), bounded clipped at_limit⟩

/-- A multiplier that is negative once it is clipped was so before, and its constraint has a lower
bound. -/
theorem of_clipOne_neg (positive : 0.0 < limit) (clipped : clipOne limit lower upper y < 0.0) :
    y < 0.0 ∧ ¬ lower ≤ -Scalar.infinity := by
  rw [clipOne_eq_pin] at clipped
  obtain ⟨nonpos, nonneg⟩ := range_around_zero positive lower upper
  have number := Scalar.number_of_pin (Scalar.isNaN_left (Scalar.le_of_lt clipped))
  have bounded : ∀ {a}, a < 0.0 → (range limit lower upper).1 ≤ a → ¬ lower ≤ -Scalar.infinity := by
    intro a below le infinite
    have zero : (range limit lower upper).1 = 0.0 := if_pos infinite
    rw [zero] at le
    exact Scalar.not_le_of_lt below le
  rcases Scalar.pin_cases (Scalar.le_trans nonpos nonneg) number with
    ⟨below, same⟩ | ⟨above, -, same⟩ | ⟨-, same⟩
  all_goals rw [same] at clipped
  · have at_limit := Scalar.le_refl_of_number (Scalar.isNaN_right (Scalar.le_of_lt below))
    exact ⟨Scalar.lt_of_lt_of_le below (Scalar.le_of_lt clipped), bounded clipped at_limit⟩
  · exact ⟨clipped, bounded clipped above⟩
  · exact absurd nonneg (Scalar.not_le_of_lt clipped)

end Multipliers

/-! ## The projection -/

namespace Interval

variable {i : Interval (Exact K)} {ζ : Exact K}

theorem project_within (number : isNaN ζ = false) :
    i.lower ≤ i.project ζ ∧ i.project ζ ≤ i.upper :=
  Scalar.pin_within i.ordered number

/-- A value above its projection is projected to the upper bound. -/
theorem project_of_offset_pos (offset : 0.0 < i.offset ζ) : i.project ζ = i.upper := by
  have above : i.project ζ < ζ := Exact.lt_of_sub_pos offset
  have number := Scalar.isNaN_right (Scalar.le_of_lt above)
  rw [project] at above ⊢
  rcases Scalar.pin_cases i.ordered number with ⟨below, same⟩ | ⟨-, -, same⟩ | ⟨-, same⟩
  · rw [same] at above
    exact absurd (Scalar.le_of_lt below) (Scalar.not_le_of_lt above)
  · rw [same] at above
    exact absurd (Scalar.le_of_lt above) (Scalar.not_le_of_lt above)
  · exact same

/-- A value below its projection is projected to the lower bound. -/
theorem project_of_offset_neg (offset : i.offset ζ < 0.0) : i.project ζ = i.lower := by
  have below : ζ < i.project ζ := Exact.lt_of_sub_neg offset
  have number := Scalar.isNaN_left (Scalar.le_of_lt below)
  rw [project] at below ⊢
  rcases Scalar.pin_cases i.ordered number with ⟨-, same⟩ | ⟨-, -, same⟩ | ⟨above, same⟩
  · exact same
  · rw [same] at below
    exact absurd (Scalar.le_of_lt below) (Scalar.not_le_of_lt below)
  · rw [same] at below
    exact absurd (Scalar.le_of_lt below) (Scalar.not_le_of_lt above)

theorem Meets.isFinite_upper (meets : i.Meets) (bounded : ¬ Scalar.infinity ≤ i.upper) :
    isFinite i.upper := by
  have number := Exact.isNaN_eq_false.1 (Scalar.isNaN_right i.ordered)
  have some := meets.upper_ne
  generalize i.upper = upper at *
  cases upper with
  | nan => exact absurd rfl number
  | negInf => exact absurd rfl some
  | fin u => rfl
  | posInf => exact absurd trivial bounded

theorem Meets.isFinite_lower (meets : i.Meets) (bounded : ¬ i.lower ≤ -Scalar.infinity) :
    isFinite i.lower := by
  have number := Exact.isNaN_eq_false.1 (Scalar.isNaN_left i.ordered)
  have some := meets.lower_ne
  generalize i.lower = lower at *
  cases lower with
  | nan => exact absurd rfl number
  | negInf => exact absurd trivial bounded
  | fin l => rfl
  | posInf => exact absurd rfl some

end Interval

namespace Certified

variable {i : Interval (Exact K)} {δ limit g y σ : Exact K}

/-- A small residual certifies the clipped multiplier of the same shift. -/
theorem of_residual (meets : i.Meets) (limited : 0.0 < limit) (positive : 0.0 < σ)
    (near : magnitude (g - i.project (g + y / σ)) ≤ δ) :
    Certified δ i g
      (Multipliers.clipOne limit i.lower i.upper (σ * i.offset (g + (1.0 / σ) * y))) := by
  rw [Exact.one_div_mul]
  generalize g + y / σ = ζ at near ⊢
  obtain ⟨-, some⟩ := Exact.number_of_near near
  have number := Scalar.number_of_pin (Exact.isNaN_eq_false.2 some)
  obtain ⟨above, below⟩ := Interval.project_within (i := i) number
  refine ⟨Exact.sub_le_of_near near above meets.lower_ne,
    Exact.le_add_of_near near below meets.upper_ne, fun clipped => ?_, fun clipped => ?_⟩
  · obtain ⟨multiplier, bounded⟩ := Multipliers.of_clipOne_pos limited clipped
    have offset := Exact.pos_of_mul_pos positive multiplier
    rw [Interval.project_of_offset_pos offset] at near
    exact ⟨meets.isFinite_upper bounded, near⟩
  · obtain ⟨multiplier, bounded⟩ := Multipliers.of_clipOne_neg limited clipped
    have offset := Exact.neg_of_mul_neg positive multiplier
    rw [Interval.project_of_offset_neg offset] at near
    exact ⟨meets.isFinite_lower bounded, near⟩

/-- A small residual certifies all clipped multipliers. -/
theorem of_residuals {is : List (Interval (Exact K))} {gs ys σs : List (Exact K)} (acc : Exact K)
    (hg : gs.length = is.length) (hy : ys.length = is.length) (hσ : σs.length = is.length)
    (meets : ∀ i ∈ is, i.Meets) (limited : 0.0 < limit) (positive : ∀ σ ∈ σs, 0.0 < σ)
    (near : ∀ e ∈ Multipliers.residual is gs ys σs, magnitude e ≤ δ) :
    List.Forall₂ (fun ig y => Certified δ ig.1 ig.2 y) (is.zip gs)
      (Multipliers.clip limit (is.map Interval.lower) (is.map Interval.upper)
        (Multipliers.eachPass acc is gs ys σs).2) := by
  induction is generalizing gs ys σs acc with
  | nil =>
      obtain rfl := List.length_eq_zero_iff.1 hg
      exact .nil
  | cons i is ih =>
      cases gs with
      | nil => cases hg
      | cons g gs =>
          cases ys with
          | nil => cases hy
          | cons y ys =>
              cases σs with
              | nil => cases hσ
              | cons σ σs =>
                  rw [List.forall_mem_cons] at meets positive
                  rw [Multipliers.residual, List.forall_mem_cons] at near
                  exact .cons (of_residual meets.1 limited positive.1 near.1)
                    (ih _ (Nat.succ.inj hg) (Nat.succ.inj hy) (Nat.succ.inj hσ) meets.2 positive.2
                      near.2)

end Certified

/-! ## The solve -/

namespace Task

variable {S O : Type} {t : Task (Exact K) S O} {g : List (Exact K) → List (Exact K)}

/-- Where the violation is small, the new multipliers are certified. -/
theorem Updates.certified (regular : t.Regular g)
    (meets : ∀ i ∈ t.problem.constraints.values.intervals, i.Meets) (good : t.settings.Admissible)
    {s s' : LoopState (Exact K)} {violation : List (Exact K)} (sized : t.Sized s)
    (weighted : t.Weighted s.weights) (updates : t.Updates s s' violation) {δ : Exact K}
    (small : s'.normE ≤ δ) :
    List.Forall₂ (fun ig y => Certified δ ig.1 ig.2 y)
      (t.problem.constraints.values.intervals.zip (g s.x)) s'.y := by
  by_cases none : s.y = []
  · have size : t.problem.constraints.values.intervals.length = 0 := by
      have length := sized.y
      rw [none] at length
      exact length.symm
    cases updates with
    | unconstrained =>
        rw [List.length_eq_zero_iff.1 size]
        show List.Forall₂ _ _ s.y
        rw [none]
        exact .nil
    | evaluated some => exact absurd none some
  · obtain ⟨-, normE, y⟩ := updates.multipliers regular sized weighted none
    rw [normE] at small
    rw [y]
    exact Certified.of_residuals 0.0 (regular.full s.x) sized.y weighted.length meets
      good.maxMultiplier weighted.positive (Exact.near_of_normInf_le small)

variable (t)

/-- A solve that ends as converged certifies its point and its multipliers, and its last inner solve
was within the tolerance and met only finite values. -/
theorem converged_certified (regular : t.Regular g)
    (meets : ∀ i ∈ t.problem.constraints.values.intervals, i.Meets) {layers : List Layer}
    {x y : List (Exact K)} {solver : S} {watcher : O} {sol : Solution (Exact K)}
    (solved : (t.run layers x y solver watcher).outcome = .ok sol)
    (converged : sol.status = .converged) :
    List.Forall₂ (fun ig y => Certified t.settings.delta ig.1 ig.2 y)
        (t.problem.constraints.values.intervals.zip (g sol.x)) sol.y ∧
      ∃ last report, (t.run layers x y solver watcher).rounds.getLast? = some last ∧
        last.answer = .ok (sol.x, report) ∧ report.stationarity ≤ t.settings.epsilon ∧
        report.status ≠ .notFinite := by
  have solves := t.run_solves layers x y solver watcher
  generalize t.run layers x y solver watcher = run at solved solves ⊢
  cases solves with
  | refused => cases solved
  | unweighted => cases solved
  | iterated accepted chosen concludes =>
      obtain ⟨good, -, length⟩ := Loop.accept_eq_ok.1 accepted
      have weighted := first_weighted good chosen
      cases concludes with
      | limited reached => cases solved; cases converged
      | @ended k a run reached within ends =>
          obtain ⟨v, converges, rounds, rfl⟩ := ends.converged_inv solved converged
          have sized := reached.sized regular good ⟨length, List.length_replicate⟩ weighted
          have certified := v.updates.certified regular meets good (sized.moved v.x v.report)
            (reached.weighted good weighted) converges.1
          have final : run.rounds.getLast? =
              some ⟨a.state.subproblem, .ok (v.x, v.report), some (v.event k)⟩ := by
            rw [rounds, List.getLast?_reverse]
            rfl
          have moved : (v.state.solution .converged (k + 1)).x = v.x := v.state_x
          rw [moved]
          exact ⟨certified, _, v.report, final, rfl, converges.2, v.finite⟩

/-- One constraint, which the inner solver meets at its upper bound. -/
def pressed : Task (Exact ℚ) (ReplayState (Exact ℚ)) Unit where
  problem := .ofPrimitives ⟨.unbounded 1, ⟨[⟨0.0, 1.0, by decide +kernel⟩]⟩⟩
    { constr? := some fun x => overwriteAll [x.headD 0.0] }
  settings := { OuterSettings.default with initialPenalty := some 1.0 }
  inner := Replay.solver [{ x? := some [1.0], report := ⟨.converged, 0.0, 1⟩ }]
  watch := .silent
  clock := quickClock

theorem pressed_regular : pressed.Regular fun x => [x.headD 0.0] where
  kernel := rfl
  constr {x buffer values} length written := by
    have written : overwriteAll [x.headD 0.0] buffer = .done values () := written
    have one : [x.headD 0.0].length = buffer.length := length.symm
    rw [overwriteAll, if_pos one] at written
    cases written
    rfl
  full _ := rfl

theorem pressed_meets : ∀ i ∈ pressed.problem.constraints.values.intervals, i.Meets := by
  intro i member
  obtain rfl := List.mem_singleton.1 member
  exact ⟨0, by decide +kernel, by decide +kernel⟩

theorem pressed_converged_certified :
    ∃ sol, (pressed.run [] [0.0] [1.0] {} ()).outcome = .ok sol ∧ sol.status = .converged ∧
      sol.y = [1.0] ∧
      List.Forall₂ (fun ig y => Certified pressed.settings.delta ig.1 ig.2 y)
        (pressed.problem.constraints.values.intervals.zip [sol.x.headD 0.0]) sol.y ∧
      ∃ last report, (pressed.run [] [0.0] [1.0] {} ()).rounds.getLast? = some last ∧
        last.answer = .ok (sol.x, report) ∧ report.stationarity ≤ pressed.settings.epsilon ∧
        report.status ≠ .notFinite := by
  have ends : ((pressed.run [] [0.0] [1.0] {} ()).outcome.toOption.map fun sol =>
      (sol.status, sol.y)) = some (.converged, [1.0]) := by
    decide +kernel
  obtain ⟨sol, solved, same⟩ := Option.map_eq_some_iff.1 ends
  cases outcome : (pressed.run [] [0.0] [1.0] {} ()).outcome with
  | error e =>
      rw [outcome] at solved
      cases solved
  | ok sol' =>
      rw [outcome] at solved
      cases solved
      obtain ⟨status, y⟩ := Prod.mk.inj same
      exact ⟨sol, rfl, status, y,
        pressed.converged_certified pressed_regular pressed_meets outcome status⟩

end Task

end AugmentedLagrangian
