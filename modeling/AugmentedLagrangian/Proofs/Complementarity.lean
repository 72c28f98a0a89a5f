/- # AugmentedLagrangian.Proofs.Complementarity — where the multipliers come to rest

The violation `e = g - Π(g + Σ⁻¹y)` is computed apart from the shifted multipliers `ŷ`, and its shift
divides by the weights.  In exact arithmetic both come from one step: `ŷ = y + Σe`
(`Multipliers.multipliers_eq_add`).

On which side of zero a violation lies depends on the constraint value, its bounds and the sign of the
multiplier, and not on the weight (`Interval.Meets.violation_nonpos_iff`,
`Interval.Meets.violation_nonneg_iff`).  So the violation is zero exactly if the values lie in the box
and only values at a bound have a multiplier, with the sign of that bound (`Box.Complementary`).
These are the multipliers that the kernel leaves as they are, under any weights.  Those that clipping
restores besides are at the limit, and their values beyond the bound (`residual_complementary`).
-/
import AugmentedLagrangian.Proofs.Iteration
import AugmentedLagrangian.Proofs.MultiplierSigns

namespace AugmentedLagrangian

set_option autoImplicit false

/-! ## One coordinate -/

namespace Interval

variable {i : Interval (Exact ℝ)} {g y σ : ℝ}

/-- The constraint value lies in the interval, at the upper bound where its multiplier is positive,
and at the lower where that is negative. -/
structure Complementary (i : Interval (Exact ℝ)) (g y : ℝ) : Prop where
  holds : i.holds (.fin g) = true
  upper : 0 < y → i.upper = .fin g
  lower : y < 0 → i.lower = .fin g

theorem complementary_iff : i.Complementary g y ↔
    i.holds (.fin g) = true ∧ (0 < y → i.upper = .fin g) ∧ (y < 0 → i.lower = .fin g) :=
  ⟨fun ⟨holds, upper, lower⟩ => ⟨holds, upper, lower⟩,
    fun ⟨holds, upper, lower⟩ => ⟨holds, upper, lower⟩⟩

variable (meets : i.Meets) (positive : 0 < σ)

include meets positive

theorem Meets.violation_nonpos_iff :
    g - i.nearest (g + y / σ) ≤ 0 ↔ .fin g ≤ i.upper ∧ (0 ≤ y ∨ .fin g ≤ i.lower) := by
  rw [sub_nonpos, meets.le_nearest_iff, le_add_iff_nonneg_right, le_div_iff₀ positive, zero_mul]

theorem Meets.violation_nonneg_iff :
    0 ≤ g - i.nearest (g + y / σ) ↔ i.lower ≤ .fin g ∧ (y ≤ 0 ∨ i.upper ≤ .fin g) := by
  rw [sub_nonneg, meets.nearest_le_iff, add_le_iff_nonpos_right, div_le_iff₀ positive, zero_mul]

theorem Meets.violation_eq_zero_iff : g - i.nearest (g + y / σ) = 0 ↔ i.Complementary g y := by
  have self : Exact.fin g ≤ .fin g := le_refl g
  rw [le_antisymm_iff, meets.violation_nonpos_iff positive, meets.violation_nonneg_iff positive]
  constructor
  · rintro ⟨⟨most, falls⟩, least, rises⟩
    refine ⟨holds_eq_true.2 ⟨least, most⟩, fun above => Exact.eq_fin_of_between most ?_,
      fun below => Exact.eq_fin_of_between ?_ least⟩
    · exact rises.resolve_left (not_le.2 above)
    · exact falls.resolve_left (not_le.2 below)
  · rintro ⟨holds, upper, lower⟩
    obtain ⟨least, most⟩ := holds_eq_true.1 holds
    refine ⟨⟨most, (le_or_gt 0 y).imp_right fun below => ?_⟩, least,
      (le_or_gt y 0).imp_right fun above => ?_⟩
    · exact lower below ▸ self
    · exact upper above ▸ self

end Interval

/-! ## Clipped multipliers -/

/-- A step from a multiplier is undone by clipping exactly if it is none, or leads outwards from the
limit. -/
theorem Multipliers.limited_add_eq_iff {M y σ e : ℝ} (limit : 0 < M) (positive : 0 < σ) :
    limited M (y + σ * e) = y ↔ |y| ≤ M ∧ (e = 0 ∨ (y = M ∧ 0 ≤ e) ∨ (y = -M ∧ e ≤ 0)) := by
  have up : 0 ≤ σ * e ↔ 0 ≤ e := mul_nonneg_iff_of_pos_left positive
  have down : σ * e ≤ 0 ↔ e ≤ 0 := by
    rw [← not_lt, mul_pos_iff_of_pos_left positive, not_lt]
  have none : σ * e = 0 ↔ e = 0 := mul_eq_zero_iff_left positive.ne'
  rw [← up, ← down, ← none, limited, abs_le]
  generalize σ * e = s
  constructor
  · intro same
    have least : -M ≤ y := same ▸ le_max_left ..
    have most : y ≤ M := same ▸ max_le (by linarith) (min_le_left ..)
    refine ⟨⟨least, most⟩, ?_⟩
    rcases le_total M (y + s) with above | below
    · rw [min_eq_left above, max_eq_right (by linarith)] at same
      exact .inr (.inl ⟨same.symm, by linarith⟩)
    · rw [min_eq_right below] at same
      rcases le_total (-M) (y + s) with inside | outside
      · rw [max_eq_right inside] at same
        exact .inl (by linarith)
      · rw [max_eq_left outside] at same
        exact .inr (.inr ⟨same.symm, by linarith⟩)
  · rintro ⟨⟨least, most⟩, rfl | ⟨rfl, out⟩ | ⟨rfl, out⟩⟩
    · rw [add_zero, min_eq_right most, max_eq_right least]
    · rw [min_eq_left (by linarith), max_eq_right (by linarith)]
    · rw [min_eq_right (by linarith), max_eq_left (by linarith)]

/-- A multiplier within the limit `M` that is complementary to its constraint value, or is at the
limit on the side on which the value is at or beyond the bound. -/
def Interval.Rests (i : Interval (Exact ℝ)) (M g y : ℝ) : Prop :=
  |y| ≤ M ∧
    (i.Complementary g y ∨ (y = M ∧ i.upper ≤ .fin g) ∨ (y = -M ∧ .fin g ≤ i.lower))

theorem Interval.Meets.limited_eq_iff {i : Interval (Exact ℝ)} (meets : i.Meets) {M g y σ : ℝ}
    (limit : 0 < M) (positive : 0 < σ) :
    Multipliers.limited M (y + σ * (g - i.nearest (g + y / σ))) = y ↔ i.Rests M g y := by
  rw [Multipliers.limited_add_eq_iff limit positive, meets.violation_eq_zero_iff positive,
    meets.violation_nonneg_iff positive, meets.violation_nonpos_iff positive]
  -- at the limit one of the two bounds decides, since they are in order
  have above : y = M → ((i.lower ≤ .fin g ∧ (y ≤ 0 ∨ i.upper ≤ .fin g)) ↔ i.upper ≤ .fin g) := by
    rintro rfl
    rw [or_iff_right (not_le.2 limit)]
    exact and_iff_right_of_imp (Scalar.le_trans i.ordered)
  have below : y = -M → ((.fin g ≤ i.upper ∧ (0 ≤ y ∨ .fin g ≤ i.lower)) ↔ .fin g ≤ i.lower) := by
    rintro rfl
    rw [or_iff_right (not_le.2 (neg_lt_zero.2 limit))]
    exact and_iff_right_of_imp fun le => Scalar.le_trans le i.ordered
  rw [Rests, and_congr_right_iff.2 above, and_congr_right_iff.2 below]

/-! ## All coordinates -/

/-- How multipliers `y` of the constraint values `g` are corrected to `ŷ` by the violation `e`.  That
they are left alone, by the kernel or after clipping, depends on no weight. -/
structure Box.Corrects (box : Box (Exact ℝ)) (σ g y e ŷ : Space box.size) : Prop where
  step : ∀ i, ŷ i = y i + σ i * e i
  vanishes_iff : e = 0 ↔ box.contains (held g) = true ∧
    ∀ i, (0 < y i → (Multipliers.intervalAt box i).upper = .fin (g i)) ∧
      (y i < 0 → (Multipliers.intervalAt box i).lower = .fin (g i))
  kept_iff : ŷ = y ↔ e = 0
  restored_iff : ∀ {M : ℝ}, 0 < M →
    (Multipliers.clip (.fin M) box.lowers box.uppers (held ŷ) = held y ↔
      ∀ i, (Multipliers.intervalAt box i).Rests M (g i) (y i))

namespace Multipliers

variable {box : Box (Exact ℝ)} {y σ g : Space box.size}

/-- The violation. -/
noncomputable def violation (box : Box (Exact ℝ)) (y σ g : Space box.size) : Space box.size :=
  g - box.nearest (shift y σ g)

variable (meets : ∀ i ∈ box.intervals, i.Meets) (positive : ∀ i, 0 < σ i)

include positive

theorem multipliers_eq_add (i : Fin box.size) :
    multipliers (intervalAt box) y σ g i = y i + σ i * violation box y σ g i := by
  have nonzero : σ i ≠ 0 := (positive i).ne'
  rw [multipliers_apply, violation, PiLp.sub_apply, PiLp.sub_apply, shift]
  field_simp
  ring

include meets

theorem residual_held :
    residual box.intervals (held g) (held y) (held σ) = held (violation box y σ g) := by
  rw [intervals_eq_ofFn, held, held, held, residual_ofFn]
  refine congrArg List.ofFn (funext fun i => ?_)
  rw [Exact.fin_div _ (positive i).ne', Exact.fin_add,
    (meets_intervalAt meets i).project_eq, Exact.fin_sub]
  rfl

theorem corrects : box.Corrects σ g y (violation box y σ g)
    (multipliers (intervalAt box) y σ g) where
  step := multipliers_eq_add positive
  vanishes_iff := by
    rw [PiLp.ext_iff, Box.contains_held, ← forall_and]
    refine forall_congr' fun i => ?_
    exact ((meets_intervalAt meets i).violation_eq_zero_iff (positive i)).trans
      Interval.complementary_iff
  kept_iff := by
    rw [PiLp.ext_iff, PiLp.ext_iff]
    refine forall_congr' fun i => ?_
    rw [multipliers_eq_add positive, add_eq_left, mul_eq_zero_iff_left (positive i).ne',
      PiLp.zero_apply]
  restored_iff {M} limit := by
    rw [clip_multipliers_fin meets positive limit, held_injective.eq_iff, PiLp.ext_iff]
    refine forall_congr' fun i => ?_
    rw [← (meets_intervalAt meets i).limited_eq_iff limit (positive i)]
    show limited M (multipliers (intervalAt box) y σ g i) = y i ↔ _
    rw [multipliers_eq_add positive]
    rfl

end Multipliers

/-- The loop is about to replace the multipliers `y` under the weights `σ`, at the constraint values
`g`, by the kernel of the library. -/
structure Task.Presents {S O : Type} (t : Task (Exact ℝ) S O) (s : LoopState (Exact ℝ))
    (box : Box (Exact ℝ)) (σ g y : Space box.size) : Prop where
  values : t.problem.constraints.values = box
  kernel : t.problem.shifted = Multipliers.shifted box
  some : s.y ≠ []
  y : s.y = held y
  weights : s.weights = held σ
  constr : t.problem.constr s.x s.values = .done (held g) ()

theorem Task.Presents.update_eq {S O : Type} {t : Task (Exact ℝ) S O} {s : LoopState (Exact ℝ)}
    {box : Box (Exact ℝ)} {σ g y e ŷ : Space box.size} {total : ℝ} (presents : t.Presents s box σ g y)
    (residual : Multipliers.residual box.intervals (held g) (held y) (held σ) = held e)
    (kernel : Multipliers.shifted box (held g) (held y) (held σ) = .done (held ŷ) (.fin total)) :
    t.update s = .ok ({ s with
      y := Multipliers.clip t.settings.maxMultiplier box.lowers box.uppers (held ŷ)
      values := held g
      normE := Scalar.normInf (held e) }, held e) := by
  have evaluated : t.problem.shifted (held g) s.y s.weights = .done (held ŷ) (.fin total) := by
    rw [presents.kernel, presents.y, presents.weights, kernel]
  rw [update_of_evaluated presents.some presents.constr evaluated, presents.values, presents.y,
    presents.weights, residual]

/-- The kernel corrects the multipliers by the violation that the loop computes, which is zero exactly
where they are complementary to the constraint values. -/
theorem Multipliers.residual_complementary {box : Box (Exact ℝ)}
    (meets : ∀ i ∈ box.intervals, i.Meets) (g y : Space box.size) {σ : Space box.size}
    (positive : ∀ i, 0 < σ i) {weights : List (Exact ℝ)} (weigh : Weigh weights σ) :
    ∃ (e ŷ : Space box.size) (total : ℝ),
      residual box.intervals (held g) (held y) (held σ) = held e ∧
      shifted box (held g) (held y) weights = .done (held ŷ) (.fin total) ∧
      box.Corrects σ g y e ŷ ∧
      ∀ {S O : Type} {t : Task (Exact ℝ) S O} {s : LoopState (Exact ℝ)}, t.Presents s box σ g y →
        t.update s = .ok ({ s with
          y := clip t.settings.maxMultiplier box.lowers box.uppers (held ŷ)
          values := held g
          normE := Scalar.normInf (held e) }, held e) :=
  ⟨_, _, _, residual_held meets positive, shifted_held meets y positive weigh g,
    corrects meets positive, fun presents => presents.update_eq (residual_held meets positive)
      (shifted_held meets y positive (.inl rfl) g)⟩

/-- One variable, which is its own constraint value and must not be negative. -/
noncomputable def resting : Task (Exact ℝ) Unit Unit where
  problem := .ofPrimitives halfLine itself
  settings := .default
  inner := ⟨fun _ _ asked => return ((), .ok (asked.x, ⟨.converged, 0.0, 0⟩))⟩
  watch := .silent
  clock := quickClock

/-- At the bound with a multiplier of `-1`, there is nothing to correct. -/
theorem Multipliers.halfLine_residual_complementary :
    let one : Space 1 := Space.of fun _ => 1
    let s := Loop.start resting.settings halfLine (held (0 : Space 1)) (held (-one)) (held one)
    ∃ (ŷ : Space 1) (total : ℝ),
      residual halfLine.values.intervals (held (0 : Space 1)) (held (-one)) (held one) =
        held (0 : Space 1) ∧
      shifted halfLine.values (held (0 : Space 1)) (held (-one)) [.fin 1] =
        .done (held ŷ) (.fin total) ∧
      ŷ = -one ∧ ∃ s', resting.update s = .ok (s', held (0 : Space 1)) := by
  intro one s
  have weigh : Weigh [.fin 1] one := .inr ⟨1, rfl, fun _ => rfl⟩
  obtain ⟨e, ŷ, total, residual, kernel, corrects, update⟩ :=
    residual_complementary halfLine_meets 0 (-one) (fun _ => one_pos) weigh
  have complementary : e = 0 := by
    refine corrects.vanishes_iff.2 ⟨Box.contains_held.2 (Fin.forall_fin_one.2 ?_),
      Fin.forall_fin_one.2 ⟨fun positive => ?_, fun _ => rfl⟩⟩
    · exact Interval.holds_eq_true.2 ⟨le_refl (0 : ℝ), trivial⟩
    · have negative : (-one) 0 = -1 := rfl
      rw [negative] at positive
      linarith
  have presents : resting.Presents s halfLine.values one 0 (-one) :=
    ⟨rfl, rfl, nofun, rfl, rfl, itself_computes.constr 0 rfl⟩
  subst complementary
  exact ⟨ŷ, total, residual, kernel, corrects.kept_iff.2 rfl, _, update presents⟩

end AugmentedLagrangian
