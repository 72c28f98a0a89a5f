/- # AugmentedLagrangian.Proofs.Projection — one box told by three passes

A box tells whether it holds a point, moves a point into itself, and measures the offset of a point.
Each is a pass of its own over the coordinates, with its own treatment of what is no number: refused,
passed through, passed through.

In any arithmetic with an order the three agree on the set that they describe (`Box.Clamps`): the
points held are the ones that projection leaves where they are.  Projection keeps the order of
points, and a coordinate that is no number stays so and disturbs no other.  All of this is the case
distinction of `Scalar.pin_cases`, coordinate by coordinate.

In exact arithmetic the projection of a finite point is the nearest point of the box
(`Box.Projects`).  Everything there follows from the obtuse angle at which a point of the box is
seen from the projection: nearness by the detour over the projection, and nonexpansiveness by adding
the angles at two projections.
-/
import AugmentedLagrangian.Proofs.Double
import AugmentedLagrangian.Proofs.MeritDistance

namespace AugmentedLagrangian

set_option autoImplicit false

open Scalar (isNaN infinity pin Numbers Ordered)
open scoped InnerProductSpace

/-! ## One coordinate -/

namespace Scalar

variable {R : Type} [Scalar R] [Ordered R] {lo hi x y : R}

omit [Ordered R] in
theorem pin_of_nan (nan : isNaN x = true) : pin lo hi x = x := by
  rw [pin, if_pos nan]

theorem pin_of_within (above : lo ≤ x) (below : x ≤ hi) : pin lo hi x = x := by
  rw [pin, isNaN_right above, if_neg Bool.false_ne_true, larger_eq_left above, smaller_eq_left below]

theorem pin_pin (ordered : lo ≤ hi) : pin lo hi (pin lo hi x) = pin lo hi x := by
  cases nan : isNaN x with
  | true => rw [pin_of_nan nan, pin_of_nan nan]
  | false =>
      obtain ⟨above, below⟩ := pin_within ordered nan
      exact pin_of_within above below

theorem pin_le_pin (ordered : lo ≤ hi) (le : x ≤ y) : pin lo hi x ≤ pin lo hi y := by
  obtain ⟨above, below⟩ := pin_within ordered (isNaN_right le)
  rw [pin_le_iff ordered (isNaN_left le)]
  refine ⟨above, ?_⟩
  -- either the upper bound is reached from `y`, or `y` is at most what it is moved to
  rcases pin_cases ordered (isNaN_right le) with ⟨less, same⟩ | ⟨-, -, same⟩ | ⟨-, same⟩
  all_goals rw [same]
  · exact .inl (le_trans le (le_of_lt less))
  · exact .inl le
  · exact .inr (le_refl_of_number (isNaN_right ordered))

end Scalar

namespace Interval

variable {R : Type} [Scalar R] [Ordered R] {i : Interval R} {x : R}

/-- A value is held exactly if it is a number that projection does not move. -/
theorem holds_iff_fixed :
    i.holds x = true ↔ isNaN x = false ∧ i.project x ≤ x ∧ x ≤ i.project x := by
  rw [holds_eq_true]
  constructor
  · rintro ⟨above, below⟩
    have number := Scalar.isNaN_right above
    rw [project, Scalar.pin_of_within above below]
    exact ⟨number, Scalar.le_refl_of_number number, Scalar.le_refl_of_number number⟩
  · rintro ⟨number, least, most⟩
    obtain ⟨above, below⟩ := Scalar.pin_within i.ordered number
    exact ⟨Scalar.le_trans above least, Scalar.le_trans most below⟩

end Interval

/-! ## All coordinates, in any arithmetic -/

namespace Box

section Any

variable {R : Type} [Scalar R]

/-- What the passes over a box agree on, however the arithmetic rounds. -/
structure Clamps (b : Box R) : Prop where
  contains : ∀ {z : List R}, z.length = b.size → Numbers z → b.contains (b.project z) = true
  idempotent : ∀ z, b.project (b.project z) = b.project z
  monotone : ∀ {z z' : List R}, List.Forall₂ (· ≤ ·) z z' →
    List.Forall₂ (· ≤ ·) (b.project z) (b.project z')
  passes : ∀ {z : List R} {i : Nat} {x : R}, z.length = b.size → z[i]? = some x → isNaN x = true →
    (b.project z)[i]? = some x
  separate : ∀ {z z' : List R} {i : Nat}, z[i]? = z'[i]? → (b.project z)[i]? = (b.project z')[i]?
  contains_iff : ∀ z, b.contains z = true ↔
    z.length = b.size ∧ Numbers z ∧ List.Forall₂ (fun p x => p ≤ x ∧ x ≤ p) (b.project z) z

theorem getElem?_project (b : Box R) (z : List R) (i : Nat) :
    (b.project z)[i]? = Option.map₂ Interval.project b.intervals[i]? z[i]? := by
  rw [project, List.getElem?_zipWith]
  cases b.intervals[i]? <;> cases z[i]? <;> rfl

variable [Ordered R]

theorem project_project (b : Box R) (z : List R) : b.project (b.project z) = b.project z := by
  apply List.ext_getElem?
  intro i
  rw [getElem?_project, getElem?_project]
  cases b.intervals[i]? with
  | none => rfl
  | some interval =>
      cases z[i]? with
      | none => rfl
      | some x => exact congrArg some (Scalar.pin_pin interval.ordered)

theorem project_mono (b : Box R) {z z' : List R} (le : List.Forall₂ (· ≤ ·) z z') :
    List.Forall₂ (· ≤ ·) (b.project z) (b.project z') := by
  obtain ⟨is⟩ := b
  induction le generalizing is with
  | nil => cases is <;> exact .nil
  | cons first _ ih =>
      cases is with
      | nil => exact .nil
      | cons i is => exact .cons (Scalar.pin_le_pin i.ordered first) (ih is)

/-- The points that are held are the vectors of numbers that projection does not move. -/
theorem contains_iff_fixed (b : Box R) (z : List R) :
    b.contains z = true ↔
      z.length = b.size ∧ Numbers z ∧
        List.Forall₂ (fun p x => p ≤ x ∧ x ≤ p) (b.project z) z := by
  rw [contains_iff]
  obtain ⟨is⟩ := b
  induction is generalizing z with
  | nil => cases z <;> simp [size, project, Numbers]
  | cons i is ih =>
      cases z with
      | nil => simp [size]
      | cons x z =>
          have rest := ih z
          simp only [size, project, Numbers, List.length_cons, List.zipWith_cons_cons,
            List.forall₂_cons, List.forall_mem_cons, Nat.succ_inj] at rest ⊢
          rw [rest, Interval.holds_iff_fixed]
          tauto

theorem clamps (b : Box R) : b.Clamps where
  contains := contains_project
  idempotent := b.project_project
  monotone := b.project_mono
  passes {z i x} length now nan := by
    have inside : i < b.intervals.length := by
      rw [← size, ← length]
      exact (List.getElem?_eq_some_iff.1 now).1
    rw [getElem?_project, now, List.getElem?_eq_getElem inside]
    exact congrArg some (Scalar.pin_of_nan nan)
  separate same := by rw [getElem?_project, getElem?_project, same]
  contains_iff := b.contains_iff_fixed

end Any

/-! ## All coordinates, in exact arithmetic -/

variable {box : Box (Exact ℝ)}

/-- The projection of finite points as the nearest point of the box. -/
structure Projects (box : Box (Exact ℝ)) : Prop where
  project : ∀ z, box.project (held z) = held (box.nearest z)
  decomposes : ∀ z : Space box.size,
    List.zipWith (· + ·) (box.offset (held z)) (box.project (held z)) = held z
  vanishes_iff : ∀ z : Space box.size,
    (∀ d ∈ box.offset (held z), d = 0.0) ↔ box.contains (held z) = true
  least : ∀ z, IsLeast {r | ∃ w, box.contains (held w) = true ∧ dist z w = r}
    (dist z (box.nearest z))
  attained_iff : ∀ z w, box.contains (held w) = true →
    (dist z w = dist z (box.nearest z) ↔ w = box.nearest z)
  obtuse : ∀ z w, box.contains (held w) = true → ⟪z - box.nearest z, w - box.nearest z⟫_ℝ ≤ 0
  nonexpansive : ∀ z z', dist (box.nearest z) (box.nearest z') ≤ dist z z'

theorem zipWith_add_held {n : Nat} (a b : Space n) :
    List.zipWith (· + ·) (held a) (held b) = held (a + b) := by
  simp [held, zipWith_ofFn]

theorem held_eq_zero_iff {n : Nat} {v : Space n} : (∀ d ∈ held v, d = 0.0) ↔ v = 0 := by
  simp [held, PiLp.ext_iff]

section Nearest

variable (meets : ∀ i ∈ box.intervals, i.Meets) {z w : Space box.size}

include meets

/-- Seen from the nearest point, every other point of the box stands at an obtuse angle. -/
theorem inner_nearest_le (z : Space box.size) (inside : box.contains (held w) = true) :
    ⟪z - box.nearest z, w - box.nearest z⟫_ℝ ≤ 0 := by
  rw [Multipliers.inner_eq_sum]
  refine Finset.sum_nonpos fun i _ => ?_
  have meets := Multipliers.meets_intervalAt meets i
  have angle := meets.obtuse (z i) (w i)
  rw [meets.nearest_eq_iff.2 (contains_held.1 inside i)] at angle
  exact angle

/-- The way to a point of the box is at least as long as by way of the nearest one. -/
theorem dist_sq_add_le (z : Space box.size) (inside : box.contains (held w) = true) :
    dist z (box.nearest z) ^ 2 + dist (box.nearest z) w ^ 2 ≤ dist z w ^ 2 := by
  have angle := inner_nearest_le meets z inside
  have square := norm_sub_sq_real (z - box.nearest z) (w - box.nearest z)
  rw [sub_sub_sub_cancel_right] at square
  rw [dist_eq_norm, dist_comm, dist_eq_norm, dist_eq_norm]
  linarith

theorem dist_nearest_le (z : Space box.size) (inside : box.contains (held w) = true) :
    dist z (box.nearest z) ≤ dist z w := by
  refine le_of_sq_le_sq ?_ dist_nonneg
  have detour := dist_sq_add_le meets z inside
  linarith [sq_nonneg (dist (box.nearest z) w)]

theorem dist_eq_iff (z : Space box.size) (inside : box.contains (held w) = true) :
    dist z w = dist z (box.nearest z) ↔ w = box.nearest z := by
  constructor
  · intro same
    have detour := dist_sq_add_le meets z inside
    rw [same] at detour
    have square : dist (box.nearest z) w ^ 2 = 0 :=
      le_antisymm (by linarith) (sq_nonneg _)
    exact (dist_eq_zero.1 ((pow_eq_zero_iff two_ne_zero).1 square)).symm
  · rintro rfl
    rfl

/-- Two nearest points are no farther apart than the points that they are nearest to. -/
theorem dist_nearest_nearest_le (z z' : Space box.size) :
    dist (box.nearest z) (box.nearest z') ≤ dist z z' := by
  set p := box.nearest z with hp
  set p' := box.nearest z' with hp'
  have here : ⟪z - p, p' - p⟫_ℝ ≤ 0 := inner_nearest_le meets z (contains_nearest meets z')
  have there : ⟪z' - p', p - p'⟫_ℝ ≤ 0 := inner_nearest_le meets z' (contains_nearest meets z)
  rw [dist_eq_norm, dist_eq_norm]
  -- the two angles together bound the square by the product with `z - z'`
  have total : ‖p - p'‖ * ‖p - p'‖ ≤ ‖z - z'‖ * ‖p - p'‖ :=
    calc ‖p - p'‖ * ‖p - p'‖
        = ⟪p - p', p - p'⟫_ℝ := (real_inner_self_eq_norm_mul_norm _).symm
      _ = ⟪z - z', p - p'⟫_ℝ + ⟪z - p, p' - p⟫_ℝ + ⟪z' - p', p - p'⟫_ℝ := by
          simp only [inner_sub_left, inner_sub_right]
          ring
      _ ≤ ⟪z - z', p - p'⟫_ℝ := by linarith
      _ ≤ ‖z - z'‖ * ‖p - p'‖ := real_inner_le_norm _ _
  rcases (norm_nonneg (p - p')).eq_or_lt with zero | positive
  · rw [← zero]
    exact norm_nonneg _
  · exact le_of_mul_le_mul_right total positive

theorem projects : box.Projects where
  project := project_held meets
  decomposes z := by
    rw [offset_held meets, project_held meets, zipWith_add_held, sub_add_cancel]
  vanishes_iff z := by
    rw [offset_held meets, held_eq_zero_iff, sub_eq_zero, eq_comm, nearest_eq_iff meets]
  least z := by
    refine ⟨⟨box.nearest z, contains_nearest meets z, rfl⟩, ?_⟩
    rintro r ⟨w, inside, rfl⟩
    exact dist_nearest_le meets z inside
  attained_iff z _ := dist_eq_iff meets z
  obtuse z _ := inner_nearest_le meets z
  nonexpansive := dist_nearest_nearest_le meets

end Nearest

/-- Containment, projection and offset describe one set in any arithmetic, and in exact arithmetic
the projection of a finite point is the nearest point of a box that holds real points. -/
theorem projection :
    (∀ {R : Type} [Scalar R] [Ordered R] (b : Box R), b.Clamps) ∧
      ∀ {box : Box (Exact ℝ)}, (∀ i ∈ box.intervals, i.Meets) → box.Projects :=
  ⟨fun b => b.clamps, projects⟩

/-- A free end on either side, and one coordinate that may not move. -/
theorem wedge_projection :
    let wedge : Box (Exact ℝ) :=
      ⟨[⟨.fin 0, .posInf, trivial⟩, ⟨.fin 1, .fin 1, le_refl (1 : ℝ)⟩, ⟨.negInf, .fin 3, trivial⟩]⟩
    (∀ i ∈ wedge.intervals, i.Meets) ∧ wedge.Projects ∧
      wedge.contains (wedge.project [.fin (-2), .posInf, .fin 5]) = true := by
  intro wedge
  have meets : ∀ i ∈ wedge.intervals, i.Meets := by
    simp only [wedge, List.forall_mem_cons, List.not_mem_nil, false_implies, implies_true, and_true]
    exact ⟨⟨0, le_refl (0 : ℝ), trivial⟩, ⟨1, le_refl (1 : ℝ), le_refl (1 : ℝ)⟩,
      ⟨3, trivial, le_refl (3 : ℝ)⟩⟩
  refine ⟨meets, projection.2 meets, (projection.1 wedge).contains rfl ?_⟩
  intro x member
  rw [Exact.isNaN_eq_false]
  rintro rfl
  simp at member

end Box

end AugmentedLagrangian
