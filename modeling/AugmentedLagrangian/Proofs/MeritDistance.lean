/- # AugmentedLagrangian.Proofs.MeritDistance — the merit function as a distance

In exact arithmetic the kernel measures how far the shifted constraint values `ζ = g + Σ⁻¹y` are from
the box (`merit_distance`).  What it returns is the least of the squares `Σᵢ σᵢ (ζᵢ - wᵢ)²` over the
points `w` of the box, which the projection of `ζ` attains and no other point does.  It is zero
exactly if `ζ` lies in the box, and so is the vector of multipliers.  The merit function adds half of
it to the cost, so it is never below the cost.

The clamp of one coordinate is told by where it stands to any other value
(`Interval.Meets.le_nearest_iff`, `Interval.Meets.nearest_le_iff`).  That the projection is least
comes from its obtuse angle with the interval: a point of the box is at least as far from `ζ` as by
way of the projection (`Box.squaredDistance_add_le`), whatever the weights.
-/
import AugmentedLagrangian.Proofs.BoxPoints
import AugmentedLagrangian.Proofs.MeritGradient

namespace AugmentedLagrangian

set_option autoImplicit false

/-! ## One coordinate -/

namespace Interval

variable {i : Interval (Exact ℝ)}

theorem Meets.le_nearest_iff (meets : i.Meets) {a z : ℝ} :
    a ≤ i.nearest z ↔ .fin a ≤ i.upper ∧ (a ≤ z ∨ .fin a ≤ i.lower) := by
  rw [← Exact.fin_le, ← meets.project_eq z, project, Scalar.le_pin_iff i.ordered rfl, Exact.fin_le]

theorem Meets.nearest_le_iff (meets : i.Meets) {a z : ℝ} :
    i.nearest z ≤ a ↔ i.lower ≤ .fin a ∧ (z ≤ a ∨ i.upper ≤ .fin a) := by
  rw [← Exact.fin_le, ← meets.project_eq z, project, Scalar.pin_le_iff i.ordered rfl, Exact.fin_le]

theorem Meets.holds_nearest (meets : i.Meets) (z : ℝ) : i.holds (.fin (i.nearest z)) = true := by
  rw [← meets.project_eq z]
  exact holds_project rfl

/-- A value of the interval is nearest to itself, and no other value is. -/
theorem Meets.nearest_eq_iff (meets : i.Meets) {z : ℝ} :
    i.nearest z = z ↔ i.holds (.fin z) = true := by
  rw [le_antisymm_iff, meets.le_nearest_iff, meets.nearest_le_iff, holds_eq_true]
  simp

/-- The nearest value and any other of the interval stand at an obtuse angle. -/
theorem Meets.square_add_le (meets : i.Meets) (z : ℝ) {w : ℝ} (holds : i.holds (.fin w) = true) :
    (z - i.nearest z) ^ 2 + (i.nearest z - w) ^ 2 ≤ (z - w) ^ 2 := by
  have angle := meets.obtuse z w
  rw [meets.nearest_eq_iff.2 holds] at angle
  linarith [sq (z - i.nearest z), sq (i.nearest z - w), sq (z - w)]

end Interval

/-! ## All coordinates -/

theorem held_injective {m : Nat} : Function.Injective (held : Space m → List (Exact ℝ)) := by
  intro a b same
  ext i
  exact Exact.fin.inj (congrFun (List.ofFn_injective same) i)

theorem forall₂_ofFn {α β : Type} {m : Nat} {p : α → β → Prop} (a : Fin m → α) (b : Fin m → β) :
    List.Forall₂ p (List.ofFn a) (List.ofFn b) ↔ ∀ i, p (a i) (b i) := by
  induction m with
  | zero => simp
  | succ m ih => simp only [List.ofFn_succ, List.forall₂_cons, ih, Fin.forall_fin_succ]

/-- The square of the distance between two points, each coordinate under its weight. -/
noncomputable def squaredDistance {m : Nat} (σ a b : Space m) : ℝ :=
  ∑ i, σ i * (a i - b i) ^ 2

section SquaredDistance

variable {m : Nat} {σ a b : Space m} (positive : ∀ i, 0 < σ i)

include positive

theorem squaredDistance_nonneg : 0 ≤ squaredDistance σ a b :=
  Finset.sum_nonneg fun i _ => mul_nonneg (positive i).le (sq_nonneg _)

theorem squaredDistance_eq_zero_iff : squaredDistance σ a b = 0 ↔ a = b := by
  have nonneg : ∀ i ∈ Finset.univ, 0 ≤ σ i * (a i - b i) ^ 2 := fun i _ =>
    mul_nonneg (positive i).le (sq_nonneg _)
  rw [squaredDistance, Finset.sum_eq_zero_iff_of_nonneg nonneg]
  constructor
  · intro zero
    ext i
    have square := (mul_eq_zero_iff_left (positive i).ne').1 (zero i (Finset.mem_univ i))
    exact sub_eq_zero.1 ((pow_eq_zero_iff two_ne_zero).1 square)
  · rintro rfl i -
    rw [sub_self]
    ring

end SquaredDistance

namespace Box

open Multipliers (intervalAt intervals_eq_ofFn meets_intervalAt)

variable {box : Box (Exact ℝ)} {σ : Space box.size}

/-- The nearest point of the box. -/
noncomputable def nearest (box : Box (Exact ℝ)) (z : Space box.size) : Space box.size :=
  Space.of fun i => (intervalAt box i).nearest (z i)

theorem lowers_eq_ofFn (box : Box (Exact ℝ)) :
    box.lowers = List.ofFn fun i => (intervalAt box i).lower := by
  rw [lowers, intervals_eq_ofFn, List.map_ofFn]
  rfl

theorem uppers_eq_ofFn (box : Box (Exact ℝ)) :
    box.uppers = List.ofFn fun i => (intervalAt box i).upper := by
  rw [uppers, intervals_eq_ofFn, List.map_ofFn]
  rfl

theorem contains_held {w : Space box.size} :
    box.contains (held w) = true ↔ ∀ i, (intervalAt box i).holds (.fin (w i)) = true := by
  rw [contains_iff, intervals_eq_ofFn, held, forall₂_ofFn]

variable (meets : ∀ i ∈ box.intervals, i.Meets)

include meets

theorem project_held (z : Space box.size) : box.project (held z) = held (box.nearest z) := by
  rw [project, intervals_eq_ofFn, held, zipWith_ofFn]
  exact congrArg List.ofFn (funext fun i => (meets_intervalAt meets i).project_eq (z i))

theorem offset_held (z : Space box.size) : box.offset (held z) = held (z - box.nearest z) := by
  rw [offset, intervals_eq_ofFn, held, zipWith_ofFn]
  exact congrArg List.ofFn (funext fun i => (meets_intervalAt meets i).offset_eq (z i))

theorem contains_nearest (z : Space box.size) : box.contains (held (box.nearest z)) = true :=
  contains_held.2 fun i => (meets_intervalAt meets i).holds_nearest (z i)

theorem nearest_eq_iff {z : Space box.size} :
    box.nearest z = z ↔ box.contains (held z) = true := by
  rw [contains_held, PiLp.ext_iff]
  exact forall_congr' fun i => (meets_intervalAt meets i).nearest_eq_iff

/-- No point of the box is closer than by way of the nearest one. -/
theorem squaredDistance_add_le (positive : ∀ i, 0 < σ i) (z : Space box.size) {w : Space box.size}
    (inside : box.contains (held w) = true) :
    squaredDistance σ z (box.nearest z) + squaredDistance σ (box.nearest z) w ≤
      squaredDistance σ z w := by
  rw [squaredDistance, squaredDistance, ← Finset.sum_add_distrib]
  refine Finset.sum_le_sum fun i _ => ?_
  rw [← mul_add]
  exact mul_le_mul_of_nonneg_left
    ((meets_intervalAt meets i).square_add_le (z i) (contains_held.1 inside i)) (positive i).le

theorem isLeast_squaredDistance (positive : ∀ i, 0 < σ i) (z : Space box.size) :
    IsLeast {q | ∃ w, box.contains (held w) = true ∧ squaredDistance σ z w = q}
      (squaredDistance σ z (box.nearest z)) := by
  refine ⟨⟨box.nearest z, contains_nearest meets z, rfl⟩, ?_⟩
  rintro q ⟨w, inside, rfl⟩
  have detour := squaredDistance_add_le meets positive z inside
  have nonneg := squaredDistance_nonneg positive (a := box.nearest z) (b := w)
  linarith

/-- Only the nearest point is as close as the nearest point. -/
theorem squaredDistance_eq_iff (positive : ∀ i, 0 < σ i) (z : Space box.size) {w : Space box.size}
    (inside : box.contains (held w) = true) :
    squaredDistance σ z w = squaredDistance σ z (box.nearest z) ↔ w = box.nearest z := by
  constructor
  · intro same
    have detour := squaredDistance_add_le meets positive z inside
    have nonneg := squaredDistance_nonneg positive (a := box.nearest z) (b := w)
    exact ((squaredDistance_eq_zero_iff positive).1 (by linarith)).symm
  · rintro rfl
    rfl

end Box

/-! ## The kernel -/

/-- The constraint values, moved by the multipliers over the weights. -/
noncomputable def shift {m : Nat} (y σ g : Space m) : Space m :=
  Space.of fun i => g i + y i / σ i

/-- What is computed from the shifted values `ζ`: the square `total` of their weighted distance from
the box, and multipliers `ŷ` that weigh their offset `d` from the projection. -/
structure Box.Measures (box : Box (Exact ℝ)) (σ ζ ŷ : Space box.size) (total : ℝ) : Prop where
  least : IsLeast {q | ∃ w, box.contains (held w) = true ∧ squaredDistance σ ζ w = q} total
  attained_iff : ∀ w, box.contains (held w) = true →
    (squaredDistance σ ζ w = total ↔ held w = box.project (held ζ))
  product : ∃ d : Space box.size, box.offset (held ζ) = held d ∧ (∀ i, ŷ i = σ i * d i) ∧
    total = ∑ i, d i * ŷ i
  nonneg : 0 ≤ total
  eq_zero_iff : total = 0 ↔ box.contains (held ζ) = true
  vanishes_iff : ŷ = 0 ↔ box.contains (held ζ) = true

theorem Box.Measures.eq_zero_of_empty {box : Box (Exact ℝ)} {σ ζ ŷ : Space box.size} {total : ℝ}
    (measures : box.Measures σ ζ ŷ total) (empty : box.size = 0) : total = 0 :=
  measures.eq_zero_iff.2 (contains_held.2 fun i => absurd i.2 (by omega))

namespace Multipliers

variable {box : Box (Exact ℝ)} {y σ g : Space box.size}

theorem two_mul_half : 2 * half (intervalAt box) y σ g =
    squaredDistance σ (shift y σ g) (box.nearest (shift y σ g)) := by
  rw [half, squaredDistance, Finset.mul_sum]
  refine Finset.sum_congr rfl fun i _ => ?_
  rw [distance, shift, Box.nearest]
  ring

theorem multipliers_apply (i : Fin box.size) : multipliers (intervalAt box) y σ g i =
    σ i * (shift y σ g - box.nearest (shift y σ g)) i := rfl

theorem measures (meets : ∀ i ∈ box.intervals, i.Meets) (positive : ∀ i, 0 < σ i) :
    box.Measures σ (shift y σ g) (multipliers (intervalAt box) y σ g)
      (2 * half (intervalAt box) y σ g) := by
  rw [two_mul_half]
  have weighed : ∀ i, multipliers (intervalAt box) y σ g i =
      σ i * (shift y σ g - box.nearest (shift y σ g)) i := multipliers_apply
  generalize shift y σ g = ζ at *
  exact {
    least := Box.isLeast_squaredDistance meets positive ζ
    attained_iff := by
      intro w inside
      rw [Box.squaredDistance_eq_iff meets positive ζ inside, Box.project_held meets]
      exact held_injective.eq_iff.symm
    product := by
      refine ⟨ζ - box.nearest ζ, Box.offset_held meets ζ, weighed, ?_⟩
      refine Finset.sum_congr rfl fun i _ => ?_
      rw [weighed, PiLp.sub_apply]
      ring
    nonneg := squaredDistance_nonneg positive
    eq_zero_iff := by
      rw [squaredDistance_eq_zero_iff positive, ← Box.nearest_eq_iff meets, eq_comm]
    vanishes_iff := by
      rw [← Box.nearest_eq_iff meets, PiLp.ext_iff, PiLp.ext_iff]
      refine forall_congr' fun i => ?_
      rw [weighed, PiLp.zero_apply, mul_eq_zero_iff_left (positive i).ne', PiLp.sub_apply,
        sub_eq_zero, eq_comm] }

end Multipliers

/-! ## The merit function -/

namespace Problem

variable {R : Type} [Scalar R]

/-- The merit function is composed by the kernel of the library from this cost and these constraint
values of the point.  Without constraints it needs only the cost. -/
structure Evaluates (p : Problem R) (x : List R) (f : R) (g : List R) : Prop where
  merit : p.merit = Composed.merit p.m p.cost p.costWithConstr p.shifted
  kernel : p.shifted = Multipliers.shifted p.constraints.values
  cost : p.cost x = .ok f
  both : p.m ≠ 0 → ∀ {buffer : List R}, buffer.length = p.m →
    p.costWithConstr x buffer = .done g f

theorem evaluates_ofPrimitives {c : Constraints R} {prims : Primitives R} {x g : List R} {f : R}
    (cost : (ofPrimitives c prims).cost x = .ok f)
    (constr : ∀ {buffer : List R}, buffer.length = c.m →
      (ofPrimitives c prims).constr x buffer = .done g ()) :
    (ofPrimitives c prims).Evaluates x f g where
  merit := rfl
  kernel := rfl
  cost := cost
  both _ buffer length := by
    show Composed.costWithConstr (ofPrimitives c prims).cost (ofPrimitives c prims).constr x
      buffer = .done g f
    rw [Composed.costWithConstr, constr length, Written.andThen_done, cost]
    rfl

end Problem

/-- The kernel returns the square of the weighted distance from the shifted constraint values to the
box, and the merit function is the cost with half of that. -/
theorem merit_distance {c : Constraints (Exact ℝ)} (meets : ∀ i ∈ c.values.intervals, i.Meets)
    (g y : Space c.m) {σ : Space c.m} (positive : ∀ i, 0 < σ i) {weights : List (Exact ℝ)}
    (weigh : Multipliers.Weigh weights σ) :
    ∃ (ŷ : Space c.m) (total : ℝ),
      Multipliers.shifted c.values (held g) (held y) weights = .done (held ŷ) (.fin total) ∧
      c.values.Measures σ (shift y σ g) ŷ total ∧
      ∀ {p : Problem (Exact ℝ)} {x buffer : List (Exact ℝ)} {f : ℝ}, p.constraints = c →
        p.Evaluates x (.fin f) (held g) → buffer.length = c.m →
        p.merit x (held y) weights buffer = .done (held ŷ) (.fin (f + 1 / 2 * total)) ∧
          f ≤ f + 1 / 2 * total := by
  have kernel := Multipliers.shifted_held meets y positive weigh g
  have measures : c.values.Measures σ (shift y σ g) _ _ := Multipliers.measures meets positive
  refine ⟨_, _, kernel, measures, ?_⟩
  rintro p x buffer f rfl evaluates length
  constructor
  · rw [evaluates.merit, evaluates.kernel]
    exact Composed.merit_eq evaluates.cost (fun some => evaluates.both some length) kernel
      measures.eq_zero_of_empty length
  · linarith [measures.nonneg]

theorem halfLine_meets : ∀ i ∈ halfLine.values.intervals, i.Meets := by
  intro i member
  obtain rfl := List.mem_singleton.1 member
  exact ⟨0, le_refl (0 : ℝ), trivial⟩

/-- A constraint value that must not be negative is `-2` and its multiplier `1`. -/
theorem halfLine_merit_distance :
    let x : Space 1 := Space.of fun _ => -2
    let one : Space 1 := Space.of fun _ => 1
    ∃ (ŷ : Space 1) (total : ℝ),
      Multipliers.shifted halfLine.values (held x) (held one) [.fin 1] =
        .done (held ŷ) (.fin total) ∧
      halfLine.values.Measures one (shift one one x) ŷ total ∧
      (Problem.ofPrimitives halfLine itself).merit (held x) (held one) [.fin 1] [0.0] =
        .done (held ŷ) (.fin (-2 + 1 / 2 * total)) := by
  intro x one
  have weigh : Multipliers.Weigh [.fin 1] one := .inr ⟨1, rfl, fun _ => rfl⟩
  have evaluates : (Problem.ofPrimitives halfLine itself).Evaluates (held x) (.fin (-2)) (held x) :=
    Problem.evaluates_ofPrimitives (itself_computes.cost x) (itself_computes.constr x)
  obtain ⟨ŷ, total, kernel, measures, merit⟩ :=
    merit_distance halfLine_meets x one (fun _ => one_pos) weigh
  exact ⟨ŷ, total, kernel, measures, (merit rfl evaluates rfl).1⟩

end AugmentedLagrangian
