/- # AugmentedLagrangian.Proofs.MultiplierSigns — the signs of shifted multipliers

The kernel takes the sign of a multiplier from the side on which the shifted constraint value leaves
its interval: it is positive exactly above the upper bound and negative exactly below the lower one.
Clipping knows of this convention only through the bounds that are infinite.  In exact arithmetic the
two agree: on a side without a bound the kernel makes no multiplier of that sign, so the clip at zero
changes nothing, and all that is left of clipping is the limit (`shifted_signs`).
-/
import AugmentedLagrangian.Proofs.MeritDistance

namespace AugmentedLagrangian

set_option autoImplicit false

/-! ## One coordinate -/

namespace Interval

variable {i : Interval (Exact ℝ)}

theorem Meets.offset_pos_iff (meets : i.Meets) {z : ℝ} :
    0 < z - i.nearest z ↔ i.upper < .fin z := by
  rw [sub_pos, ← not_le, meets.le_nearest_iff,
    Scalar.lt_iff_not_le (Scalar.isNaN_right i.ordered) rfl]
  simp

theorem Meets.offset_neg_iff (meets : i.Meets) {z : ℝ} :
    z - i.nearest z < 0 ↔ .fin z < i.lower := by
  rw [sub_neg, ← not_le, meets.nearest_le_iff,
    Scalar.lt_iff_not_le rfl (Scalar.isNaN_left i.ordered)]
  simp

end Interval

namespace Multipliers

/-- The value moved into `[-M, M]`. -/
noncomputable def limited (M v : ℝ) : ℝ :=
  max (-M) (min M v)

variable {M v : ℝ} (positive : 0 < M)

include positive

theorem limited_eq_self_iff : limited M v = v ↔ |v| ≤ M := by
  rw [limited, abs_le]
  constructor
  · intro same
    rw [← same]
    exact ⟨le_max_left .., max_le (by linarith) (min_le_left ..)⟩
  · rintro ⟨least, most⟩
    rw [min_eq_right most, max_eq_right least]

theorem pin_limit : Scalar.pin (-.fin M : Exact ℝ) (.fin M) (.fin v) = .fin (limited M v) := by
  have order : -M ≤ M := by linarith
  rw [Exact.fin_neg, Exact.pin_fin, limited, min_max_distrib_right, min_eq_left order, max_comm,
    min_comm]

end Multipliers

/-! ## All coordinates -/

/-- What the signs of multipliers `ŷ` tell of the shifted values `ζ` that they come from: a positive
one, of a value above its upper bound, and a negative one, of a value below its lower.  Clipping
changes none of them but those beyond the limit. -/
structure Box.Signs (box : Box (Exact ℝ)) (ζ ŷ : Space box.size) : Prop where
  pos_iff : ∀ i, 0 < ŷ i ↔ (Multipliers.intervalAt box i).upper < .fin (ζ i)
  neg_iff : ∀ i, ŷ i < 0 ↔ .fin (ζ i) < (Multipliers.intervalAt box i).lower
  clipped : ∀ {M : ℝ}, 0 < M →
    ∃ kept : Space box.size,
      Multipliers.clip (.fin M) box.lowers box.uppers (held ŷ) = held kept ∧
      (∀ i, kept i = max (-M) (min M (ŷ i))) ∧ ∀ i, kept i ≠ ŷ i ↔ M < |ŷ i|
  unlimited : Multipliers.clip Scalar.infinity box.lowers box.uppers (held ŷ) = held ŷ

namespace Multipliers

variable {box : Box (Exact ℝ)} {y σ g : Space box.size}

section Signs

variable (meets : ∀ i ∈ box.intervals, i.Meets) (positive : ∀ i, 0 < σ i)

include meets positive

theorem multipliers_pos_iff (i : Fin box.size) :
    0 < multipliers (intervalAt box) y σ g i ↔ (intervalAt box i).upper < .fin (shift y σ g i) := by
  rw [multipliers_apply, mul_pos_iff_of_pos_left (positive i)]
  exact (meets_intervalAt meets i).offset_pos_iff

theorem multipliers_neg_iff (i : Fin box.size) :
    multipliers (intervalAt box) y σ g i < 0 ↔ .fin (shift y σ g i) < (intervalAt box i).lower := by
  rw [multipliers_apply, ← not_le, mul_nonneg_iff_of_pos_left (positive i), not_le]
  exact (meets_intervalAt meets i).offset_neg_iff

/-- Clipping finds no multiplier of the wrong sign, so it clips all of them at the limit. -/
theorem clip_multipliers {limit : Exact ℝ} (limited : 0.0 < limit) :
    clip limit box.lowers box.uppers (held (multipliers (intervalAt box) y σ g)) =
      List.ofFn fun i =>
        Scalar.pin (-limit) limit (.fin (multipliers (intervalAt box) y σ g i)) := by
  rw [Box.lowers_eq_ofFn, Box.uppers_eq_ofFn, held, clip_ofFn]
  refine congrArg List.ofFn (funext fun i => clipOne_of_signs limited rfl ?_ ?_)
  · intro free
    rw [Exact.zero_eq, Exact.fin_le, ← not_lt, multipliers_neg_iff meets positive]
    have least : -Scalar.infinity ≤ Exact.fin (shift y σ g i) := trivial
    exact fun below => Scalar.not_le_of_lt below (Scalar.le_trans free least)
  · intro free
    rw [Exact.zero_eq, Exact.fin_le, ← not_lt, multipliers_pos_iff meets positive]
    have most : Exact.fin (shift y σ g i) ≤ Scalar.infinity := trivial
    exact fun above => Scalar.not_le_of_lt above (Scalar.le_trans most free)

theorem clip_multipliers_fin {M : ℝ} (limit : 0 < M) :
    clip (.fin M) box.lowers box.uppers (held (multipliers (intervalAt box) y σ g)) =
      held (Space.of fun i => limited M (multipliers (intervalAt box) y σ g i)) := by
  have order : (0.0 : Exact ℝ) < .fin M := by
    rw [Exact.zero_eq, Exact.fin_lt]
    exact limit
  rw [clip_multipliers meets positive order]
  exact congrArg List.ofFn (funext fun i => pin_limit limit)

theorem signs : box.Signs (shift y σ g) (multipliers (intervalAt box) y σ g) where
  pos_iff := multipliers_pos_iff meets positive
  neg_iff := multipliers_neg_iff meets positive
  clipped limit := ⟨_, clip_multipliers_fin meets positive limit, fun _ => rfl,
    fun _ => (limited_eq_self_iff limit).not.trans not_le⟩
  unlimited := by
    have order : (0.0 : Exact ℝ) < Scalar.infinity := by
      rw [Exact.zero_eq]
      exact ⟨trivial, id⟩
    exact clip_multipliers meets positive order

end Signs

end Multipliers

/-- The multipliers of the kernel have the signs of the sides on which the shifted constraint values
leave the box, and clipping only limits them. -/
theorem Multipliers.shifted_signs {box : Box (Exact ℝ)} (meets : ∀ i ∈ box.intervals, i.Meets)
    (g y : Space box.size) {σ : Space box.size} (positive : ∀ i, 0 < σ i)
    {weights : List (Exact ℝ)} (weigh : Weigh weights σ) :
    ∃ (ŷ : Space box.size) (total : ℝ),
      shifted box (held g) (held y) weights = .done (held ŷ) (.fin total) ∧
        box.Signs (shift y σ g) ŷ :=
  ⟨_, _, shifted_held meets y positive weigh g, signs meets positive⟩

/-- The shifted value is `-1` where no upper bound but a lower one at zero is given. -/
theorem Multipliers.halfLine_shifted_signs :
    let x : Space 1 := Space.of fun _ => -2
    let one : Space 1 := Space.of fun _ => 1
    ∃ (ŷ : Space 1) (total : ℝ),
      shifted halfLine.values (held x) (held one) [.fin 1] = .done (held ŷ) (.fin total) ∧
        halfLine.values.Signs (shift one one x) ŷ ∧ ŷ 0 < 0 := by
  intro x one
  have weigh : Weigh [.fin 1] one := .inr ⟨1, rfl, fun _ => rfl⟩
  obtain ⟨ŷ, total, kernel, signs⟩ := shifted_signs halfLine_meets x one (fun _ => one_pos) weigh
  refine ⟨ŷ, total, kernel, signs, (signs.neg_iff (0 : Fin 1)).2 ?_⟩
  show Exact.fin (-2 + 1 / 1 : ℝ) < .fin 0
  rw [Exact.fin_lt]
  norm_num

end AugmentedLagrangian
