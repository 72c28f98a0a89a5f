/- # AugmentedLagrangian.Proofs.QuadraticFamily — the fixed quadratic as a member of the family

The cost `xᵀQx` of `Quadratic.standard` is the family's `½ xᵀQ(p)x` at `p = (3, 1, 3)`, and its
gradient the same product.  Exact arithmetic shows the two equal at every pair of coordinates,
infinite ones and those that are no number among them: where a term is infinite, both sides come to
the same infinity or both lose their value.

So the two are one problem, but for the gradient of a constraint that is not there: the quadratic
refuses its index, and in the family that is a breach.  A solve in which nobody asks for that goes
the same way against both.
-/
import AugmentedLagrangian.Proofs.Agreement
import AugmentedLagrangian.Proofs.Exact
import AugmentedLagrangian.Reference.Quadratic

namespace AugmentedLagrangian

set_option autoImplicit false
set_option linter.unusedSectionVars false

/-! ## Sums and products in exact arithmetic -/

namespace Exact

variable {K : Type} [Field K] [LinearOrder K] [IsStrictOrderedRing K]

theorem literal_fin {mantissa exponent : Nat} {negative : Bool} {a : K}
    (value : (OfScientific.ofScientific mantissa negative exponent : K) = a) :
    (OfScientific.ofScientific mantissa negative exponent : Exact K) = fin a :=
  congrArg fin value

theorem add_nan (a : Exact K) : a + nan = nan := by
  cases a <;> rfl

theorem mul_nan (a : Exact K) : a * nan = nan := by
  cases a <;> rfl

theorem infinite_cases (a : K) : infinite a = posInf ∨ infinite a = negInf ∨ infinite a = nan := by
  unfold infinite
  split
  · exact .inl rfl
  split
  · exact .inr (.inl rfl)
  · exact .inr (.inr rfl)

section Scaling

variable {s : K} (pos : 0 < s)

include pos

theorem scale_posInf : fin s * posInf = posInf :=
  infinite_of_pos pos

theorem scale_negInf : fin s * negInf = negInf :=
  infinite_of_neg (neg_lt_zero.2 pos)

theorem scale_infinite (a : K) : fin s * infinite a = infinite a := by
  rcases infinite_cases a with value | value | value
  all_goals rw [value]
  · exact scale_posInf pos
  · exact scale_negInf pos
  · rfl

theorem infinite_scale (a : K) : infinite (s * a) = infinite a := by
  have positive : 0 < s * a ↔ 0 < a := mul_pos_iff_of_pos_left pos
  have negative : s * a < 0 ↔ a < 0 := by
    rw [← not_le, ← not_le, mul_nonneg_iff_of_pos_left pos]
  simp only [infinite, positive, negative]

/-- A positive factor does not change which sums have a value. -/
theorem scale_add (a b : Exact K) : fin s * (a + b) = fin s * a + fin s * b := by
  cases a <;> cases b
  case fin.fin a b => simp only [fin_add, fin_mul, mul_add]
  all_goals try simp only [scale_posInf pos, scale_negInf pos, add_nan]
  all_goals
    first
      | rfl
      | exact scale_posInf pos
      | exact scale_negInf pos

theorem scale_mul (a b : Exact K) : fin s * a * b = fin s * (a * b) := by
  have flip (a : K) : infinite (-(s * a)) = infinite (-a) := by
    rw [neg_mul_eq_mul_neg, infinite_scale pos]
  cases a <;> cases b
  case fin.fin a b => simp only [fin_mul, mul_assoc]
  case fin.posInf a => exact (infinite_scale pos a).trans (scale_infinite pos a).symm
  case fin.negInf a => exact (flip a).trans (scale_infinite pos (-a)).symm
  case posInf.fin b =>
    rw [scale_posInf pos]
    exact (scale_infinite pos b).symm
  case negInf.fin b =>
    rw [scale_negInf pos]
    exact (scale_infinite pos (-b)).symm
  all_goals try simp only [scale_posInf pos, scale_negInf pos, mul_nan]
  all_goals
    first
      | rfl
      | exact (scale_posInf pos).symm
      | exact (scale_negInf pos).symm

end Scaling

/-- The quadratic form of a symmetric matrix with positive entries and a constant diagonal.  With
one infinite coordinate both sides come to its square plus the product of the two, which finite
terms do not change. -/
theorem form_eq {c d : K} (hc : 0 < c) (hd : 0 < d) (a b : Exact K) :
    a * (fin c * a + fin d * b) + b * (fin d * a + fin c * b) =
      fin c * (a * a) + fin (2 * d) * (a * b) + fin c * (b * b) := by
  have hdd : 0 < 2 * d := mul_pos two_pos hd
  have absorbed (x y : K) : infinite x + posInf = fin y + infinite x + posInf := by
    rcases infinite_cases x with value | value | value <;> rw [value] <;> rfl
  have absorbed' (x y : K) : posInf + infinite x = posInf + infinite x + fin y := by
    rcases infinite_cases x with value | value | value <;> rw [value] <;> rfl
  cases a <;> cases b
  case fin.fin a b =>
    simp only [fin_mul, fin_add]
    ring_nf
  case fin.posInf a =>
    show fin a * (_ + fin d * posInf) + posInf * (_ + fin c * posInf) =
      _ + fin (2 * d) * infinite a + fin c * posInf
    rw [scale_posInf hc, scale_posInf hd, scale_infinite hdd]
    exact absorbed a _
  case fin.negInf a =>
    show fin a * (_ + fin d * negInf) + negInf * (_ + fin c * negInf) =
      _ + fin (2 * d) * infinite (-a) + fin c * posInf
    rw [scale_negInf hc, scale_negInf hd, scale_posInf hc, scale_infinite hdd]
    exact absorbed (-a) _
  case posInf.fin b =>
    show posInf * (fin c * posInf + _) + fin b * (fin d * posInf + _) =
      fin c * posInf + fin (2 * d) * infinite b + _
    rw [scale_posInf hc, scale_posInf hd, scale_infinite hdd]
    exact absorbed' b _
  case negInf.fin b =>
    show negInf * (fin c * negInf + _) + fin b * (fin d * negInf + _) =
      fin c * posInf + fin (2 * d) * infinite (-b) + _
    rw [scale_negInf hc, scale_negInf hd, scale_posInf hc, scale_infinite hdd]
    exact absorbed' (-b) _
  all_goals
    have products : posInf * posInf = (posInf : Exact K) ∧ negInf * negInf = (posInf : Exact K) ∧
        posInf * negInf = (negInf : Exact K) ∧ negInf * posInf = (negInf : Exact K) :=
      ⟨rfl, rfl, rfl, rfl⟩
    simp only [scale_posInf hc, scale_posInf hd, scale_negInf hc, scale_negInf hd, products,
      add_nan, mul_nan]
  all_goals first | rw [scale_posInf hdd] | rw [scale_negInf hdd] | skip
  all_goals rfl

theorem literals : (0.5 : Exact K) = fin (1 / 2) ∧ (1.5 : Exact K) = fin (3 / 2) ∧
    (2.0 : Exact K) = fin 2 ∧ (3.0 : Exact K) = fin 3 := by
  refine ⟨half_eq, ?_, ?_, ?_⟩ <;> exact literal_fin (by norm_num)

end Exact

/-! ## Changes of parameters -/

namespace Family

variable {R : Type} [Scalar R]

/-- What a family becomes by changes of its parameters.  A change that is refused leaves it as it
is. -/
inductive Becomes (f : Family R) : Family R → Prop
  | start : Becomes f f
  | all {g h : Family R} {param : List R} (before : Becomes f g) (set : g.setParam param = .ok h) :
      Becomes f h
  | one {g h : Family R} {i : Nat} {value : R} (before : Becomes f g)
      (set : g.setEntry i value = .ok h) : Becomes f h

/-- Changes of parameters change nothing else. -/
theorem Becomes.eq_withParam {f g : Family R} (becomes : f.Becomes g) :
    g = { f with param := g.param } := by
  induction becomes with
  | start => rfl
  | @all g h param before set ih =>
      rw [setParam] at set
      split at set
      all_goals cases set
      rw [ih]
  | @one g h i value before set ih =>
      rw [setEntry] at set
      split at set
      all_goals cases set
      rw [ih]

end Family

/-! ## Problems that are the same -/

/-- The call does not ask for the gradient of a constraint from `m` on. -/
def Call.InRange {R : Type} (m : Nat) : Call R → Prop
  | .constrGrad _ i _ => i < m
  | _ => True

/-- Two problems that are the same to whoever stays in range: they have equal constraints and answer
every call alike, and solves against them go the same way and are counted alike. -/
structure Problem.Same {R : Type} [Scalar R] (p p' : Problem R) : Prop where
  constraints : p'.constraints = p.constraints
  answers : ∀ c : Call R, c.InRange p.m → p'.answer c = p.answer c
  runs : ∀ {S O : Type} {settings : OuterSettings R} {inner : InnerSolver R S}
    {watch : Observer O (Event R) Action} {clock : Nat → Nat} {x y : List R} {solver : S}
    {watcher : O}, (minimize settings p.constraints inner watch clock x y solver watcher).Asks p
      (Call.InRange p.m) → ∀ layers,
        (minimize settings p'.constraints inner watch clock x y solver watcher).through p' layers =
          (minimize settings p.constraints inner watch clock x y solver watcher).through p layers

/-- The runs follow from the answers. -/
theorem Problem.same_of_answers {R : Type} [Scalar R] {p p' : Problem R}
    (constraints : p'.constraints = p.constraints)
    (answers : ∀ c : Call R, c.InRange p.m → p'.answer c = p.answer c) : p.Same p' where
  constraints
  answers
  runs asks layers := by
    rw [constraints]
    exact Consult.through_congr (asks.mono answers) layers

namespace Quadratic

/-! ## The two costs and gradients -/

/-- A combined evaluation of the quadratic is the composed one. -/
theorem costWithGrad_eq {R : Type} [Scalar R] (q : Quadratic R) :
    q.costWithGrad = Composed.costWithGrad (Planar.value q.cost) (Planar.write q.twiceProd) := by
  funext x buffer
  match x with
  | [] | [_] => rfl
  | x₀ :: x₁ :: rest =>
      simp only [costWithGrad, Composed.costWithGrad, Planar.write, Planar.value, twiceProd]
      rw [overwrite]
      split <;> rfl

section Exact

variable {K : Type} [Field K] [LinearOrder K] [IsStrictOrderedRing K]

instance : OrdersBounds (Exact K) where
  second := trivial

open Exact (fin)

theorem twiceProd_standard (v₀ v₁ : Exact K) :
    standard.twiceProd v₀ v₁ = Planar.symmProd (3.0, 1.0, 3.0) v₀ v₁ := by
  obtain ⟨half, more, two, three⟩ := Exact.literals (K := K)
  have pos : (0 : K) < 2 := two_pos
  simp only [twiceProd, prod₀, prod₁, standard, Planar.symmProd, half, more, two, three,
    Exact.one_eq]
  simp only [Exact.scale_add pos, ← Exact.scale_mul pos, Exact.fin_mul]
  norm_num

theorem cost_standard (x₀ x₁ : Exact K) :
    standard.cost x₀ x₁ = paramCost 3.0 1.0 3.0 x₀ x₁ := by
  obtain ⟨half, more, two, three⟩ := Exact.literals (K := K)
  have halves : (0 : K) < 1 / 2 := one_half_pos
  have twos : (0 : K) < 2 := two_pos
  have threes : (0 : K) < 3 := three_pos
  have factors : (1 : K) / 2 * 3 = 3 / 2 ∧ (1 : K) / 2 * 2 = 2 * (1 / 2) := by norm_num
  calc standard.cost x₀ x₁
      = fin (3 / 2) * (x₀ * x₀) + fin (2 * (1 / 2)) * (x₀ * x₁) + fin (3 / 2) * (x₁ * x₁) := by
        simp only [cost, prod₀, prod₁, standard, half, more]
        exact Exact.form_eq (by norm_num) halves x₀ x₁
    _ = fin (1 / 2) * (fin 3 * x₀ * x₀ + fin 2 * x₀ * x₁ + fin 3 * x₁ * x₁) := by
        simp only [Exact.scale_add halves, Exact.scale_mul threes, Exact.scale_mul twos,
          ← Exact.scale_mul halves, Exact.fin_mul, factors]
    _ = paramCost 3.0 1.0 3.0 x₀ x₁ := by
        simp only [paramCost, half, two, three, Exact.one_eq, Exact.fin_mul, mul_one]

/-! ## The two problems -/

theorem lagrHess_standard (buffer : List (List (Exact K))) :
    writeMatrix (2.0 * standard.row₀.1, 2.0 * standard.row₀.2)
        (2.0 * standard.row₁.1, 2.0 * standard.row₁.2) buffer =
      Planar.writeSymm (3.0, 1.0, 3.0) buffer := by
  have doubled : (2.0 * 1.5 : Exact K) = 3.0 ∧ (2.0 * 0.5 : Exact K) = 1.0 := by
    obtain ⟨half, more, two, three⟩ := Exact.literals (K := K)
    simp only [half, more, two, three, Exact.one_eq, Exact.fin_mul]
    norm_num
  simp only [standard, doubled]
  rfl

/-- As primitives, the two differ in the gradient of a constraint alone. -/
theorem prims_standard : (standard : Quadratic (Exact K)).prims =
    { paramPrims 3.0 1.0 3.0 with
      constrGrad? := (standard : Quadratic (Exact K)).prims.constrGrad? } := by
  have cost : (standard : Quadratic (Exact K)).cost = paramCost 3.0 1.0 3.0 :=
    funext₂ cost_standard
  have product : (standard : Quadratic (Exact K)).twiceProd = Planar.symmProd (3.0, 1.0, 3.0) :=
    funext₂ twiceProd_standard
  rw [paramPrims, ← cost, ← product, ← funext lagrHess_standard]
  rfl

theorem problem_standard : (standard : Quadratic (Exact K)).problem =
    { (family : Family (Exact K)).problem with
      constrGrad := (standard : Quadratic (Exact K)).problem.constrGrad } := by
  have same : (standard : Quadratic (Exact K)).problem =
      .ofPrimitives halfPlane (standard : Quadratic (Exact K)).prims := by
    rw [problem, costWithGrad_eq]
    rfl
  rw [same, prims_standard]
  rfl

theorem same_standard : (family : Family (Exact K)).problem.Same standard.problem := by
  refine Problem.same_of_answers rfl fun c inRange => ?_
  rw [problem_standard]
  cases c with
  | constrGrad x i grad => exact if_pos inRange
  | _ => rfl

/-- The family is the fixed quadratic whenever its parameters are `(3, 1, 3)`, however they came
about. -/
theorem family_same {f : Family (Exact K)} (becomes : family.Becomes f)
    (ends : f.param = [3.0, 1.0, 3.0]) : f.problem.Same standard.problem := by
  rw [becomes.eq_withParam, ends]
  exact same_standard

end Exact

/-- A family that leaves `(3, 1, 3)` and comes back is the fixed quadratic again, and two iterations
with the projected gradient are the same against both. -/
theorem returned_family_same :
    ∃ g f : Family (Exact ℚ), family.setParam [5.0, 1.0, 3.0] = .ok g ∧
      g.setEntry 0 3.0 = .ok f ∧ f.param = [3.0, 1.0, 3.0] ∧ f.problem.Same standard.problem ∧
      let settings : OuterSettings (Exact ℚ) := { OuterSettings.default with maxIter := 2 }
      let solve := minimize settings halfPlane (ProjectedGradient.solver 4.0 5)
        (.silent : Observer Unit _ _) quickClock [0.0, 0.0] [0.0, 0.0] () ()
      solve.through standard.problem [.counted .zero] = solve.through f.problem [.counted .zero] ∧
        (solve.through standard.problem [.counted .zero]).1.rounds.length = 2 := by
  let away : Family (Exact ℚ) := { family with param := [5.0, 1.0, 3.0] }
  have left : family.setParam [5.0, 1.0, 3.0] = .ok away := rfl
  have back : away.setEntry 0 3.0 = .ok family := rfl
  have same := family_same (.one (.all .start left) back) rfl
  refine ⟨away, family, left, back, rfl, same, ?_, by decide +kernel⟩
  refine same.runs (minimize_asks ?_ (fun _ _ => ProjectedGradient.solver_asks ?_ ..) ..) _
  · rintro ⟨⟩ ofLoop <;> trivial
  · exact fun _ _ _ _ _ _ => trivial

end Quadratic

end AugmentedLagrangian
