/- # AugmentedLagrangian.Proofs.MeritGradient — the gradient of the merit function

Let `φ(g) = ½ dᵀŷ`, half of what the kernel returns, and let `ŷ(g)` be what it leaves in the buffer.
In exact arithmetic `φ` lies above each of its tangents `φ(g) + ⟨ŷ(g), h⟩`, by at most `½ hᵀΣh`.  So
`φ` is convex and `ŷ` is its gradient, and by the chain rule what a problem composes as the gradient
of the merit function is the gradient of what it composes as the merit function.

The bounds are those of one coordinate, added up.  In one coordinate the projection of a point makes
an obtuse angle with everything in the interval (`Interval.Meets.project_fin`), which covers at once
all the ways in which the two points can lie below, inside or above the interval.
-/
import AugmentedLagrangian.Problem.Basic
import AugmentedLagrangian.Proofs.Exact
import AugmentedLagrangian.Proofs.Kernel

namespace AugmentedLagrangian

set_option autoImplicit false

open scoped InnerProductSpace

/-! ## One coordinate -/

namespace Interval

/-- The nearest value of the interval, as a real number. -/
noncomputable def nearest (i : Interval (Exact ℝ)) (z : ℝ) : ℝ :=
  match i.project (.fin z) with
  | .fin p => p
  | _ => 0

variable {i : Interval (Exact ℝ)}

theorem Meets.project_eq (meets : i.Meets) (z : ℝ) : i.project (.fin z) = .fin (i.nearest z) := by
  obtain ⟨p, same, -⟩ := meets.project_fin z
  rw [nearest, same]

theorem Meets.obtuse (meets : i.Meets) (z z' : ℝ) :
    (z - i.nearest z) * (i.nearest z' - i.nearest z) ≤ 0 := by
  obtain ⟨p, same, -, -, angle⟩ := meets.project_fin z
  obtain ⟨p', same', lower, upper, -⟩ := meets.project_fin z'
  rw [nearest, nearest, same, same']
  exact angle p' lower upper

theorem Meets.offset_eq (meets : i.Meets) (z : ℝ) : i.offset (.fin z) = .fin (z - i.nearest z) := by
  rw [offset, meets.project_eq, Exact.fin_sub]

/-- Half the square of the distance lies above its tangents, by at most half a square. -/
theorem Meets.square_bounds (meets : i.Meets) (z h : ℝ) :
    (z - i.nearest z) ^ 2 + 2 * (z - i.nearest z) * h ≤ (z + h - i.nearest (z + h)) ^ 2 ∧
      (z + h - i.nearest (z + h)) ^ 2 ≤
        (z - i.nearest z) ^ 2 + 2 * (z - i.nearest z) * h + h ^ 2 := by
  have here := meets.obtuse z (z + h)
  have there := meets.obtuse (z + h) z
  constructor
  · nlinarith [sq_nonneg (z + h - i.nearest (z + h) - (z - i.nearest z))]
  · nlinarith [sq_nonneg (i.nearest (z + h) - i.nearest z)]

end Interval

/-! ## The pass over all coordinates -/

/-- Real vectors. -/
abbrev Space (n : Nat) : Type :=
  EuclideanSpace ℝ (Fin n)

/-- The vector with these entries. -/
abbrev Space.of {n : Nat} (entries : Fin n → ℝ) : Space n :=
  WithLp.toLp 2 entries

/-- The list that holds a vector. -/
def held {n : Nat} (v : Space n) : List (Exact ℝ) :=
  List.ofFn fun i => .fin (v i)

@[simp] theorem length_held {n : Nat} (v : Space n) : (held v).length = n := by
  simp [held]

namespace Multipliers

/-- The distance of a shifted constraint value from its interval, with its sign. -/
noncomputable def distance (i : Interval (Exact ℝ)) (y σ g : ℝ) : ℝ :=
  g + y / σ - i.nearest (g + y / σ)

/-- Half of what the kernel returns. -/
noncomputable def half {m : Nat} (is : Fin m → Interval (Exact ℝ)) (y σ g : Space m) : ℝ :=
  ∑ i, σ i / 2 * distance (is i) (y i) (σ i) (g i) ^ 2

/-- What the kernel leaves in the buffer. -/
noncomputable def multipliers {m : Nat} (is : Fin m → Interval (Exact ℝ)) (y σ g : Space m) :
    Space m :=
  WithLp.toLp 2 fun i => σ i * distance (is i) (y i) (σ i) (g i)

theorem offset_shift {i : Interval (Exact ℝ)} (meets : i.Meets) (y : ℝ) {σ : ℝ} (positive : 0 < σ)
    (g : ℝ) :
    i.offset (.fin g + (1.0 / .fin σ) * .fin y) = .fin (distance i y σ g) := by
  rw [Exact.one_div_mul, Exact.fin_div _ positive.ne', Exact.fin_add, meets.offset_eq, distance]

theorem eachPass_ofFn {m : Nat} {is : Fin m → Interval (Exact ℝ)} (meets : ∀ i, (is i).Meets)
    (y : Fin m → ℝ) {σ : Fin m → ℝ} (positive : ∀ i, 0 < σ i) (g : Fin m → ℝ) (acc : ℝ) :
    eachPass (.fin acc) (List.ofFn is) (List.ofFn fun i => .fin (g i))
        (List.ofFn fun i => .fin (y i)) (List.ofFn fun i => .fin (σ i)) =
      (.fin (acc + 2 * ∑ i, σ i / 2 * distance (is i) (y i) (σ i) (g i) ^ 2),
        List.ofFn fun i => .fin (σ i * distance (is i) (y i) (σ i) (g i))) := by
  induction m generalizing acc with
  | zero => simp [eachPass]
  | succ m ih =>
      have rest := ih (fun i => meets i.succ) (fun i => y i.succ) (fun i => positive i.succ)
        (fun i => g i.succ)
        (acc + distance (is 0) (y 0) (σ 0) (g 0) * σ 0 * distance (is 0) (y 0) (σ 0) (g 0))
      simp only [List.ofFn_succ, eachPass, offset_shift (meets 0) (y 0) (positive 0) (g 0),
        Exact.fin_mul, Exact.fin_add, rest, Fin.sum_univ_succ]
      congr 2
      ring

/-- The weights as the kernel takes them: one for all constraints, or one each. -/
def Weigh {m : Nat} (weights : List (Exact ℝ)) (σ : Space m) : Prop :=
  weights = held σ ∨ ∃ s, weights = [.fin s] ∧ ∀ i, σ i = s

theorem Weigh.spread_eq {m : Nat} {weights : List (Exact ℝ)} {σ : Space m}
    (weigh : Weigh weights σ) : spread m weights = held σ := by
  rcases weigh with rfl | ⟨s, rfl, same⟩
  · exact spread_of_length (length_held σ)
  · rw [spread, held, ← List.ofFn_const]
    simp [same]

theorem Weigh.length {m : Nat} {weights : List (Exact ℝ)} {σ : Space m}
    (weigh : Weigh weights σ) : weights.length = 1 ∨ weights.length = m := by
  rcases weigh with rfl | ⟨s, rfl, -⟩
  · exact .inr (length_held σ)
  · exact .inl rfl

variable {box : Box (Exact ℝ)}

/-- The intervals of a box by their number. -/
def intervalAt (box : Box (Exact ℝ)) : Fin box.size → Interval (Exact ℝ) :=
  box.intervals.get

theorem intervals_eq_ofFn (box : Box (Exact ℝ)) : box.intervals = List.ofFn (intervalAt box) :=
  (List.ofFn_get _).symm

theorem meets_intervalAt (meets : ∀ i ∈ box.intervals, i.Meets) (i : Fin box.size) :
    (intervalAt box i).Meets :=
  meets _ (List.get_mem _ _)

theorem shifted_held (meets : ∀ i ∈ box.intervals, i.Meets) (y : Space box.size)
    {σ : Space box.size} (positive : ∀ i, 0 < σ i) {weights : List (Exact ℝ)}
    (weigh : Weigh weights σ) (g : Space box.size) :
    shifted box (held g) (held y) weights =
      .done (held (multipliers (intervalAt box) y σ g))
        (.fin (2 * half (intervalAt box) y σ g)) := by
  have pass := eachPass_ofFn (meets_intervalAt meets) y positive g 0
  rw [← intervals_eq_ofFn, zero_add] at pass
  rw [shifted_eq (length_held g) (length_held y) weigh.length, weigh.spread_eq, Exact.zero_eq]
  exact congrArg₂ Written.done (congrArg Prod.snd pass) (congrArg Prod.fst pass)

/-! ## The function and its gradient -/

variable {m : Nat} {is : Fin m → Interval (Exact ℝ)}

theorem inner_eq_sum (a b : Space m) : ⟪a, b⟫_ℝ = ∑ i, a i * b i := by
  rw [PiLp.inner_apply]
  exact Finset.sum_congr rfl fun i _ => mul_comm _ _

/-- The function lies above its tangents, by at most half the weighted square. -/
theorem half_bounds (meets : ∀ i, (is i).Meets) (y : Space m) {σ : Space m}
    (positive : ∀ i, 0 < σ i) (g h : Space m) :
    half is y σ g + ⟪multipliers is y σ g, h⟫_ℝ ≤ half is y σ (g + h) ∧
      half is y σ (g + h) ≤
        half is y σ g + ⟪multipliers is y σ g, h⟫_ℝ + 1 / 2 * ∑ i, σ i * h i ^ 2 := by
  have each : ∀ i, σ i / 2 * distance (is i) (y i) (σ i) (g i) ^ 2 +
        σ i * distance (is i) (y i) (σ i) (g i) * h i ≤
          σ i / 2 * distance (is i) (y i) (σ i) ((g + h) i) ^ 2 ∧
      σ i / 2 * distance (is i) (y i) (σ i) ((g + h) i) ^ 2 ≤
        σ i / 2 * distance (is i) (y i) (σ i) (g i) ^ 2 +
          σ i * distance (is i) (y i) (σ i) (g i) * h i + 1 / 2 * (σ i * h i ^ 2) := by
    intro i
    have shift : (g + h) i + y i / σ i = g i + y i / σ i + h i := by
      rw [PiLp.add_apply]
      ring
    obtain ⟨lower, upper⟩ := (meets i).square_bounds (g i + y i / σ i) (h i)
    have half_pos : 0 ≤ σ i / 2 := (half_pos (positive i)).le
    have lower := mul_le_mul_of_nonneg_left lower half_pos
    have upper := mul_le_mul_of_nonneg_left upper half_pos
    unfold distance
    rw [shift]
    constructor
    · linarith
    · linarith
  rw [inner_eq_sum]
  unfold half multipliers
  rw [Finset.mul_sum, ← Finset.sum_add_distrib, ← Finset.sum_add_distrib]
  exact ⟨Finset.sum_le_sum fun i _ => (each i).1, Finset.sum_le_sum fun i _ => (each i).2⟩

/-- What lies above its tangents is convex. -/
theorem convexOn_of_tangents {φ : Space m → ℝ} {slope : Space m → Space m}
    (above : ∀ g h, φ g + ⟪slope g, h⟫_ℝ ≤ φ (g + h)) : ConvexOn ℝ Set.univ φ := by
  refine ⟨convex_univ, fun a _ b _ s t hs ht one => ?_⟩
  -- both ends lie above the tangent in between, whose slope cancels out
  have ha := above (s • a + t • b) (a - (s • a + t • b))
  have hb := above (s • a + t • b) (b - (s • a + t • b))
  rw [add_sub_cancel] at ha hb
  have cancel : s • (a - (s • a + t • b)) + t • (b - (s • a + t • b)) = 0 := by
    obtain rfl : t = 1 - s := by linarith
    module
  have inner := congrArg (fun v => ⟪slope (s • a + t • b), v⟫_ℝ) cancel
  simp only [inner_add_right, inner_smul_right, inner_zero_right] at inner
  simp only [smul_eq_mul]
  calc φ (s • a + t • b)
      = s * (φ (s • a + t • b) + ⟪slope (s • a + t • b), a - (s • a + t • b)⟫_ℝ) +
          t * (φ (s • a + t • b) + ⟪slope (s • a + t • b), b - (s • a + t • b)⟫_ℝ) := by
        linear_combination -φ (s • a + t • b) * one - inner
    _ ≤ s * φ a + t * φ b :=
        add_le_add (mul_le_mul_of_nonneg_left ha hs) (mul_le_mul_of_nonneg_left hb ht)

/-- A slope whose error is at most a square is the gradient. -/
theorem hasGradientAt_of_square {φ : Space m → ℝ} {slope g : Space m} {C : ℝ}
    (lower : ∀ h, φ g + ⟪slope, h⟫_ℝ ≤ φ (g + h))
    (upper : ∀ h, φ (g + h) ≤ φ g + ⟪slope, h⟫_ℝ + C * ‖h‖ ^ 2) : HasGradientAt φ slope g := by
  rw [hasGradientAt_iff_isLittleO]
  refine Asymptotics.IsBigO.trans_isLittleO (Asymptotics.IsBigO.of_bound C ?_)
    (Asymptotics.isLittleO_pow_sub_sub g (by norm_num : 1 < 2))
  refine Filter.Eventually.of_forall fun x => ?_
  have below := lower (x - g)
  have above := upper (x - g)
  rw [add_sub_cancel] at below above
  rw [Real.norm_of_nonneg (by linarith), Real.norm_of_nonneg (by positivity)]
  linarith

theorem half_hasGradientAt (meets : ∀ i, (is i).Meets) (y : Space m) {σ : Space m}
    (positive : ∀ i, 0 < σ i) (g : Space m) :
    HasGradientAt (half is y σ) (multipliers is y σ g) g := by
  have square : ∀ h : Space m, 1 / 2 * ∑ i, σ i * h i ^ 2 ≤ 1 / 2 * (∑ i, σ i) * ‖h‖ ^ 2 := by
    intro h
    have each : ∀ i ∈ Finset.univ, σ i * h i ^ 2 ≤ (∑ j, σ j) * h i ^ 2 := fun i member =>
      mul_le_mul_of_nonneg_right (Finset.single_le_sum (fun j _ => (positive j).le) member)
        (sq_nonneg _)
    have total := Finset.sum_le_sum each
    rw [← Finset.mul_sum, ← EuclideanSpace.real_norm_sq_eq] at total
    linarith
  have upper : ∀ h, half is y σ (g + h) ≤
      half is y σ g + ⟪multipliers is y σ g, h⟫_ℝ + 1 / 2 * (∑ i, σ i) * ‖h‖ ^ 2 := fun h =>
    (half_bounds meets y positive g h).2.trans (by linarith [square h])
  exact hasGradientAt_of_square (fun h => (half_bounds meets y positive g h).1) upper

end Multipliers

/-! ## The problem -/

namespace Composed

theorem addOnto_ofFn {K : Type} [Field K] [LinearOrder K] {n : Nat} (a b : Fin n → K) :
    addOnto (List.ofFn fun i => Exact.fin (a i)) (List.ofFn fun i => Exact.fin (b i)) =
      List.ofFn fun i => Exact.fin (a i + b i) := by
  induction n with
  | zero => rfl
  | succ n ih => simp only [List.ofFn_succ, addOnto, Exact.fin_add, ih]

theorem addOnto_held {n : Nat} (a b : Space n) : addOnto (held a) (held b) = held (a + b) :=
  addOnto_ofFn a b

theorem held_of_empty {m : Nat} (empty : m = 0) {buffer : List (Exact ℝ)}
    (length : buffer.length = m) (v : Space m) : buffer = held v := by
  subst empty
  rw [List.length_eq_zero_iff.1 length]
  rfl

/-- The composed merit function adds half of what the kernel returns to the cost.  Without
constraints there is no call of the kernel, which would return zero. -/
theorem merit_eq {m : Nat} {cost : List (Exact ℝ) → Except EvalError (Exact ℝ)}
    {costWithConstr : List (Exact ℝ) → Writes (Exact ℝ) (Exact ℝ)}
    {shifted : List (Exact ℝ) → List (Exact ℝ) → List (Exact ℝ) → Written (List (Exact ℝ)) (Exact ℝ)}
    {x y g weights buffer : List (Exact ℝ)} {f total : ℝ} {ŷ : Space m}
    (costs : cost x = .ok (.fin f)) (both : m ≠ 0 → costWithConstr x buffer = .done g (.fin f))
    (kernel : shifted g y weights = .done (held ŷ) (.fin total)) (constant : m = 0 → total = 0)
    (length : buffer.length = m) :
    merit m cost costWithConstr shifted x y weights buffer =
      .done (held ŷ) (.fin (f + 1 / 2 * total)) := by
  unfold merit
  by_cases empty : m = 0
  · rw [if_pos empty, costs, constant empty, mul_zero, add_zero, ← held_of_empty empty length]
    rfl
  · rw [if_neg empty, costWithShifted, both empty, Written.andThen_done, kernel, Written.map_done,
      Exact.half_eq, Exact.fin_mul, Exact.fin_add]

end Composed

/-- What the primitives of a problem compute: the cost and its gradient, the constraint values, and
the products with the transposed Jacobian. -/
structure Computes (c : Constraints (Exact ℝ)) (prims : Primitives (Exact ℝ)) (f : Space c.n → ℝ)
    (grad : Space c.n → Space c.n) (g : Space c.n → Space c.m)
    (jacobian : Space c.n → Space c.n →L[ℝ] Space c.m) : Prop where
  cost : ∀ x, (Problem.ofPrimitives c prims).cost (held x) = .ok (.fin (f x))
  costGrad : ∀ x {buffer}, buffer.length = c.n →
    (Problem.ofPrimitives c prims).costGrad (held x) buffer = .done (held (grad x)) ()
  constr : ∀ x {buffer}, buffer.length = c.m →
    (Problem.ofPrimitives c prims).constr (held x) buffer = .done (held (g x)) ()
  constrGradProd : ∀ x y {buffer}, buffer.length = c.n →
    (Problem.ofPrimitives c prims).constrGradProd (held x) (held y) buffer =
      .done (held ((jacobian x).adjoint y)) ()

namespace Computes

variable {c : Constraints (Exact ℝ)} {prims : Primitives (Exact ℝ)} {f : Space c.n → ℝ}
  {grad : Space c.n → Space c.n} {g : Space c.n → Space c.m}
  {jacobian : Space c.n → Space c.n →L[ℝ] Space c.m}

/-- The merit function adds half of what the kernel returns to the cost. -/
theorem merit_eq (computes : Computes c prims f grad g jacobian) {y : Space c.m}
    {weights : List (Exact ℝ)} {φ : Space c.m → ℝ} {shifted : Space c.m → Space c.m}
    (kernel : ∀ v, Multipliers.shifted c.values (held v) (held y) weights =
      .done (held (shifted v)) (.fin (2 * φ v)))
    (constant : c.m = 0 → ∀ v, φ v = 0) (x : Space c.n) {buffer : List (Exact ℝ)}
    (length : buffer.length = c.m) :
    (Problem.ofPrimitives c prims).merit (held x) (held y) weights buffer =
      .done (held (shifted (g x))) (.fin (f x + φ (g x))) := by
  have both : Composed.costWithConstr (Problem.ofPrimitives c prims).cost
      (Problem.ofPrimitives c prims).constr (held x) buffer = .done (held (g x)) (.fin (f x)) := by
    rw [Composed.costWithConstr, computes.constr x length, Written.andThen_done, computes.cost]
    rfl
  have value : φ (g x) = 1 / 2 * (2 * φ (g x)) := by ring
  rw [value]
  exact Composed.merit_eq (computes.cost x) (fun _ => both) (kernel (g x))
    (fun empty => by rw [constant empty, mul_zero]) length

/-- The gradient from shifted multipliers adds their product with the transposed Jacobian to the
gradient of the cost. -/
theorem meritGradFrom_eq (computes : Computes c prims f grad g jacobian) (x : Space c.n)
    (shifted : Space c.m) {buffer work : List (Exact ℝ)} (hb : buffer.length = c.n)
    (hw : work.length = c.n) :
    ∃ work', (Problem.ofPrimitives c prims).meritGradFrom (held x) (held shifted) buffer work =
      .done (held (grad x + (jacobian x).adjoint shifted), work') () := by
  show ∃ work', Composed.meritGradFrom c.m (Problem.ofPrimitives c prims).costGrad
    (Composed.lagrGrad (Composed.gradTerms (Problem.ofPrimitives c prims).costGrad
      (Problem.ofPrimitives c prims).constrGradProd)) (held x) (held shifted) buffer work = _
  unfold Composed.meritGradFrom
  by_cases empty : c.m = 0
  · have none : shifted = 0 := by
      ext i
      exact absurd i.2 (by omega)
    refine ⟨work, ?_⟩
    rw [if_pos empty, computes.costGrad x hb, none, map_zero, add_zero]
    rfl
  · refine ⟨held ((jacobian x).adjoint shifted), ?_⟩
    rw [if_neg empty, Composed.lagrGrad, Composed.gradTerms, computes.costGrad x hb]
    simp only [Written.on_done, Written.andThen_done, computes.constrGradProd x shifted hw,
      Composed.addOnto_held]

/-- The gradient of the composed function, by the chain rule. -/
theorem hasGradientAt {n m : Nat} {f : Space n → ℝ} {φ : Space m → ℝ} {g : Space n → Space m}
    {x df : Space n} {slope : Space m} {jacobian : Space n →L[ℝ] Space m}
    (hf : HasGradientAt f df x) (hg : HasFDerivAt g jacobian x)
    (hφ : HasGradientAt φ slope (g x)) :
    HasGradientAt (fun x => f x + φ (g x)) (df + jacobian.adjoint slope) x := by
  have chain := hφ.hasFDerivAt.comp x hg
  have sum := hf.hasFDerivAt.add chain
  rw [hasGradientAt_iff_hasFDerivAt]
  refine sum.congr_fderiv ?_
  ext v
  simp [ContinuousLinearMap.adjoint_inner_left]

end Computes

/-- Half of what the kernel returns lies above its tangents by at most half the weighted square, is
convex, and has the shifted multipliers as its gradient; and the gradient that a problem composes
from them is the gradient of the merit function that it composes. -/
theorem merit_gradient {c : Constraints (Exact ℝ)} (meets : ∀ i ∈ c.values.intervals, i.Meets)
    (y : Space c.m) {σ : Space c.m} (positive : ∀ i, 0 < σ i) {weights : List (Exact ℝ)}
    (weigh : Multipliers.Weigh weights σ) :
    ∃ (φ : Space c.m → ℝ) (shifted : Space c.m → Space c.m),
      (∀ g, Multipliers.shifted c.values (held g) (held y) weights =
        .done (held (shifted g)) (.fin (2 * φ g))) ∧
      (∀ g h, φ g + ⟪shifted g, h⟫_ℝ ≤ φ (g + h) ∧
        φ (g + h) ≤ φ g + ⟪shifted g, h⟫_ℝ + 1 / 2 * ∑ i, σ i * h i ^ 2) ∧
      ConvexOn ℝ Set.univ φ ∧ (∀ g, HasGradientAt φ (shifted g) g) ∧
      ∀ {prims f grad g jacobian}, Computes c prims f grad g jacobian →
        ∀ x, HasGradientAt f (grad x) x → HasFDerivAt g (jacobian x) x →
        ∀ ŷ buffer work : List (Exact ℝ), ŷ.length = c.m → buffer.length = c.n →
          work.length = c.n →
        (Problem.ofPrimitives c prims).merit (held x) (held y) weights ŷ =
          .done (held (shifted (g x))) (.fin (f x + φ (g x))) ∧
        ∃ slope work',
          (Problem.ofPrimitives c prims).meritGradFrom (held x) (held (shifted (g x))) buffer work =
            .done (held slope, work') () ∧
          HasGradientAt (fun x => f x + φ (g x)) slope x := by
  have each : ∀ i, (Multipliers.intervalAt c.values i).Meets := fun i =>
    meets _ (List.get_mem _ _)
  let φ : Space c.m → ℝ := Multipliers.half (Multipliers.intervalAt c.values) y σ
  let shifted : Space c.m → Space c.m :=
    Multipliers.multipliers (Multipliers.intervalAt c.values) y σ
  have kernel : ∀ g, Multipliers.shifted c.values (held g) (held y) weights =
      .done (held (shifted g)) (.fin (2 * φ g)) := Multipliers.shifted_held meets y positive weigh
  have bounds := Multipliers.half_bounds each y positive
  have gradient : ∀ g, HasGradientAt φ (shifted g) g :=
    Multipliers.half_hasGradientAt each y positive
  have constant : c.m = 0 → ∀ v, φ v = 0 := by
    intro empty v
    have none : IsEmpty (Fin c.values.size) := ⟨fun i => absurd i.2 (by
      have : c.values.size = 0 := empty
      omega)⟩
    show Multipliers.half (Multipliers.intervalAt c.values) y σ v = 0
    unfold Multipliers.half
    rw [Finset.univ_eq_empty, Finset.sum_empty]
  refine ⟨φ, shifted, kernel, bounds,
    Multipliers.convexOn_of_tangents fun g h => (bounds g h).1, gradient, ?_⟩
  intro prims f grad g jacobian computes x hf hg ŷ buffer work hŷ hb hw
  obtain ⟨work', from_shifted⟩ := computes.meritGradFrom_eq x (shifted (g x)) hb hw
  exact ⟨computes.merit_eq kernel constant x hŷ, _, work', from_shifted,
    Computes.hasGradientAt hf hg (gradient (g x))⟩

/-- One variable, which must not be negative. -/
noncomputable def halfLine : Constraints (Exact ℝ) :=
  ⟨.unbounded 1, ⟨[⟨.fin 0, .posInf, trivial⟩]⟩⟩

/-- The variable is its own cost and its own constraint value. -/
noncomputable def itself : Primitives (Exact ℝ) where
  cost? := some fun x => .ok (x.headD 0.0)
  costGrad? := some fun _ => overwriteAll [1.0]
  constr? := some fun x => overwriteAll [x.headD 0.0]
  constrGradProd? := some fun _ y => overwriteAll [y.headD 0.0]

theorem overwriteAll_single {value : Exact ℝ} {v : Space 1} (same : value = .fin (v 0))
    {buffer : List (Exact ℝ)} (length : buffer.length = 1) :
    overwriteAll [value] buffer = .done (held v) () := by
  have one : [value].length = buffer.length := length.symm
  rw [overwriteAll, if_pos one, same, held]
  rfl

theorem itself_computes :
    Computes halfLine itself (fun x => x (0 : Fin 1)) (fun _ => WithLp.toLp 2 fun _ => 1)
      (fun x => x) (fun _ => .id ℝ (Space 1)) where
  cost x := rfl
  costGrad x buffer length := overwriteAll_single Exact.one_eq length
  constr x buffer length := overwriteAll_single rfl length
  constrGradProd x y buffer length := by
    have self : y = ContinuousLinearMap.adjoint (ContinuousLinearMap.id ℝ (Space 1)) y := by
      rw [ContinuousLinearMap.adjoint_id]
      rfl
    have written : overwriteAll [(held y).headD 0.0] buffer = .done (held y) () :=
      overwriteAll_single rfl length
    exact written.trans (congrArg (fun v => Written.done (held v) ()) self)

theorem itself_hasGradientAt (x : Space 1) :
    HasGradientAt (fun x : Space 1 => x 0) (WithLp.toLp 2 fun _ => 1) x := by
  have inner : (fun x : Space 1 => x 0) =
      InnerProductSpace.toDual ℝ (Space 1) (WithLp.toLp 2 fun _ => 1) := by
    funext x
    simp [PiLp.inner_apply]
  rw [hasGradientAt_iff_hasFDerivAt, inner]
  exact ContinuousLinearMap.hasFDerivAt _

theorem halfLine_merit_gradient :
    ∃ (φ : Space 1 → ℝ) (shifted : Space 1 → Space 1),
      (∀ g, Multipliers.shifted halfLine.values (held g) (held (0 : Space 1)) [.fin 1] =
        .done (held (shifted g)) (.fin (2 * φ g))) ∧
      ConvexOn ℝ Set.univ φ ∧
      ∃ slope work', (Problem.ofPrimitives halfLine itself).meritGradFrom (held (0 : Space 1))
          (held (shifted 0)) [0.0] [0.0] = .done (held slope, work') () ∧
        HasGradientAt (fun x : Space 1 => x 0 + φ x) slope 0 := by
  have meets : ∀ i ∈ halfLine.values.intervals, i.Meets := by
    intro i member
    obtain rfl := List.mem_singleton.1 member
    exact ⟨0, le_refl (0 : ℝ), trivial⟩
  have weigh : Multipliers.Weigh [.fin 1] (WithLp.toLp 2 fun _ => 1 : Space 1) :=
    .inr ⟨1, rfl, fun _ => rfl⟩
  obtain ⟨φ, shifted, kernel, -, convex, -, problem⟩ :=
    merit_gradient meets (0 : Space 1) (fun _ => one_pos) weigh
  have gradient := problem itself_computes 0 (itself_hasGradientAt 0) (hasFDerivAt_id 0)
    [0.0] [0.0] [0.0] rfl rfl rfl
  exact ⟨φ, shifted, kernel, convex, gradient.2⟩

end AugmentedLagrangian
