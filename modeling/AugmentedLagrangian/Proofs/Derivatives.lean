/- # AugmentedLagrangian.Proofs.Derivatives — the derivatives of the reference problems

In exact arithmetic the evaluations of a reference problem are values of polynomials in the point.
`Problem.Derives` says which: its cost and its constraint values are given, and everything else is
made of their partial derivatives.  The gradient of the Lagrangian is that of the polynomial
`f + Σᵢ yᵢ gᵢ`, and the Hessian has the partial derivatives of its entries.

Partial derivatives are taken of polynomials, so this holds over every ordered field.  Each
reference problem then only has to show the few formulas that it writes down.
-/
import AugmentedLagrangian.Proofs.MeritGradient
import AugmentedLagrangian.Proofs.QuadraticFamily
import AugmentedLagrangian.Reference.Himmelblau
import AugmentedLagrangian.Reference.Rosenbrock

namespace AugmentedLagrangian

set_option autoImplicit false
set_option linter.unusedSectionVars false

open MvPolynomial (C X eval pderiv)

/-! ## Partial derivatives -/

section Polynomials

variable {K : Type} [Field K] {n m : Nat}

@[simp] theorem pderiv_ofNat (i : Fin n) (a : Nat) [a.AtLeastTwo] :
    pderiv i (ofNat(a) : MvPolynomial (Fin n) K) = 0 :=
  Derivation.map_natCast _ a

theorem pderiv_comm (i j : Fin n) (f : MvPolynomial (Fin n) K) :
    pderiv i (pderiv j f) = pderiv j (pderiv i f) := by
  induction f using MvPolynomial.induction_on with
  | C a => simp
  | add f g hf hg => simp only [map_add, hf, hg]
  | mul_X f k ih =>
      have constant (i j : Fin n) : pderiv i (pderiv j (X k : MvPolynomial (Fin n) K)) = 0 := by
        rw [MvPolynomial.pderiv_X, Pi.single_apply]
        split <;> simp
      simp only [MvPolynomial.pderiv_mul, map_add, ih, constant]
      ring

/-- The gradient of a polynomial at a point. -/
noncomputable def gradient (f : MvPolynomial (Fin n) K) (x : Fin n → K) : Fin n → K :=
  fun j => eval x (pderiv j f)

/-- The Jacobian of the gradient: row `i` belongs to its entry `i`. -/
noncomputable def hessian (f : MvPolynomial (Fin n) K) (x : Fin n → K) : Matrix (Fin n) (Fin n) K :=
  fun i => gradient (pderiv i f) x

theorem hessian_symmetric (f : MvPolynomial (Fin n) K) (x : Fin n → K) : (hessian f x).IsSymm := by
  ext i j
  exact congrArg (eval x) (pderiv_comm i j f)

/-- The Lagrangian of a cost and constraint values at multipliers `y`. -/
noncomputable def lagrangian (f : MvPolynomial (Fin n) K) (g : Fin m → MvPolynomial (Fin n) K)
    (y : Fin m → K) : MvPolynomial (Fin n) K :=
  f + ∑ i, C (y i) * g i

variable (f : MvPolynomial (Fin n) K) (g : Fin m → MvPolynomial (Fin n) K) (y : Fin m → K)

theorem gradient_lagrangian (x : Fin n → K) :
    gradient (lagrangian f g y) x = gradient f x + ∑ i, y i • gradient (g i) x := by
  ext j
  simp [gradient, lagrangian]

end Polynomials

/-! ## Vectors and matrices in the buffers -/

section Vectors

variable {K : Type} [Field K] [LinearOrder K] {n : Nat}

/-- The list that holds a vector of the field. -/
def vector (v : Fin n → K) : List (Exact K) :=
  List.ofFn fun i => .fin (v i)

/-- The rows that hold a matrix. -/
def rows (a : Matrix (Fin n) (Fin n) K) : List (List (Exact K)) :=
  List.ofFn fun i => vector (a i)

@[simp] theorem length_vector (v : Fin n → K) : (vector v).length = n :=
  List.length_ofFn

theorem addOnto_vector (u v : Fin n → K) :
    Composed.addOnto (vector u) (vector v) = vector (u + v) :=
  Composed.addOnto_ofFn u v

theorem vector_pair (v : Fin 2 → K) : vector v = [.fin (v 0), .fin (v 1)] :=
  rfl

theorem rows_pair (a : Matrix (Fin 2) (Fin 2) K) :
    rows a = [[.fin (a 0 0), .fin (a 0 1)], [.fin (a 1 0), .fin (a 1 1)]] :=
  rfl

end Vectors

namespace Problem

variable {K : Type} [Field K] [LinearOrder K] [IsStrictOrderedRing K] {n m : Nat}

open Exact (fin)

/-- The problem evaluates the polynomials `f` and `g` and their derivatives, into buffers of the
right size. -/
structure Derives (p : Problem (Exact K)) (f : MvPolynomial (Fin n) K)
    (g : Fin m → MvPolynomial (Fin n) K) : Prop where
  n_eq : p.n = n
  m_eq : p.m = m
  cost : ∀ x, p.cost (vector x) = .ok (fin (eval x f))
  costGrad : ∀ x {buffer}, buffer.length = n →
    p.costGrad (vector x) buffer = .done (vector (gradient f x)) ()
  constr : ∀ x {buffer}, buffer.length = m →
    p.constr (vector x) buffer = .done (vector fun i => eval x (g i)) ()
  constrGrad : ∀ x (i : Fin m) {buffer}, buffer.length = n →
    p.constrGrad (vector x) i buffer = .done (vector (gradient (g i) x)) ()
  constrGradProd : ∀ x y {buffer}, buffer.length = n →
    p.constrGradProd (vector x) (vector y) buffer =
      .done (vector (∑ i, y i • gradient (g i) x)) ()
  lagrGrad : ∀ x y {grad work}, grad.length = n → work.length = n →
    ∃ left, p.lagrGrad (vector x) (vector y) grad work =
      .done (vector (gradient (lagrangian f g y) x), left) ()
  lagrHess : ∀ x y {buffer}, buffer.length = n → (∀ row ∈ buffer, row.length = n) →
    p.lagrHess (vector x) (vector y) buffer = .done (rows (hessian (lagrangian f g y) x)) ()
  symmetric : ∀ x y, (hessian (lagrangian f g y) x).IsSymm
  lagrHessProd : ∀ x y v {buffer}, buffer.length = n →
    p.lagrHessProd (vector x) (vector y) (vector v) buffer =
      .done (vector ((hessian (lagrangian f g y) x).mulVec v)) ()

variable {f : MvPolynomial (Fin n) K} {g : Fin m → MvPolynomial (Fin n) K}

/-- The composed gradient of the Lagrangian is that of its polynomial. -/
theorem lagrGrad_of_terms {p : Problem (Exact K)}
    (lagrGrad : p.lagrGrad = Composed.lagrGrad (Composed.gradTerms p.costGrad p.constrGradProd))
    (costGrad : ∀ x {buffer}, buffer.length = n →
      p.costGrad (vector x) buffer = .done (vector (gradient f x)) ())
    (constrGradProd : ∀ x y {buffer}, buffer.length = n →
      p.constrGradProd (vector x) (vector y) buffer =
        .done (vector (∑ i, y i • gradient (g i) x)) ())
    (x : Fin n → K) (y : Fin m → K) {grad work : List (Exact K)} (hgrad : grad.length = n)
    (hwork : work.length = n) :
    ∃ left, p.lagrGrad (vector x) (vector y) grad work =
      .done (vector (gradient (lagrangian f g y) x), left) () := by
  refine ⟨vector (∑ i, y i • gradient (g i) x), ?_⟩
  rw [lagrGrad, gradient_lagrangian, ← addOnto_vector, Composed.lagrGrad, Composed.gradTerms,
    costGrad x hgrad, Written.on_done, Written.andThen_done]
  show ((p.constrGradProd (vector x) (vector y) work).on _).andThen _ = _
  rw [constrGradProd x y hwork]
  rfl

/-- Problems that are the same have the same derivatives. -/
theorem Same.derives {p p' : Problem (Exact K)} (same : p.Same p') (derives : p.Derives f g) :
    p'.Derives f g where
  n_eq := (congrArg Constraints.n same.constraints).trans derives.n_eq
  m_eq := (congrArg Constraints.m same.constraints).trans derives.m_eq
  cost x := (congrArg Written.outcome (same.answers (.cost (vector x)) trivial)).trans
    (derives.cost x)
  costGrad x buffer length :=
    (same.answers (.costGrad (vector x) buffer) trivial).trans (derives.costGrad x length)
  constr x buffer length :=
    (same.answers (.constr (vector x) buffer) trivial).trans (derives.constr x length)
  constrGrad x i buffer length :=
    (same.answers (.constrGrad (vector x) i buffer)
      (i.isLt.trans_eq derives.m_eq.symm)).trans (derives.constrGrad x i length)
  constrGradProd x y buffer length :=
    (same.answers (.constrGradProd (vector x) (vector y) buffer) trivial).trans
      (derives.constrGradProd x y length)
  lagrGrad x y grad work hgrad hwork := by
    obtain ⟨left, written⟩ := derives.lagrGrad x y hgrad hwork
    exact ⟨left, (same.answers (.lagrGrad (vector x) (vector y) grad work) trivial).trans written⟩
  lagrHess x y buffer length square :=
    (same.answers (.lagrHess (vector x) (vector y) buffer) trivial).trans
      (derives.lagrHess x y length square)
  symmetric := derives.symmetric
  lagrHessProd x y v buffer length :=
    (same.answers (.lagrHessProd (vector x) (vector y) (vector v) buffer) trivial).trans
      (derives.lagrHessProd x y v length)

end Problem

/-! ## The plane -/

namespace Planar

variable {K : Type} [Field K] [LinearOrder K] [IsStrictOrderedRing K]

open Exact (fin)

theorem value_vector {cost : Exact K → Exact K → Exact K} {f : (Fin 2 → K) → K}
    (values : ∀ x, cost (fin (x 0)) (fin (x 1)) = fin (f x)) (x : Fin 2 → K) :
    value cost (vector x) = .ok (fin (f x)) :=
  congrArg _ (values x)

theorem overwrite_vector {n : Nat} (v : Fin n → K) {buffer : List (Exact K)}
    (length : buffer.length = n) : overwrite (vector v) buffer = .done (vector v) () := by
  rw [overwrite, length_vector, if_pos length.ge, List.drop_of_length_le length.le,
    List.append_nil]

theorem write_vector {grad : Exact K → Exact K → List (Exact K)} {df : (Fin 2 → K) → Fin 2 → K}
    (values : ∀ x, grad (fin (x 0)) (fin (x 1)) = vector (df x)) (x : Fin 2 → K)
    {buffer : List (Exact K)} (length : buffer.length = 2) :
    write grad (vector x) buffer = .done (vector (df x)) () := by
  rw [← overwrite_vector (df x) length, ← values x]
  rfl

/-- The upper triangle of a symmetric matrix. -/
def upper (a : Matrix (Fin 2) (Fin 2) K) : Exact K × Exact K × Exact K :=
  (fin (a 0 0), fin (a 0 1), fin (a 1 1))

variable {a : Matrix (Fin 2) (Fin 2) K} (symmetric : a.IsSymm)

include symmetric

theorem symmProd_upper (v : Fin 2 → K) :
    symmProd (upper a) (fin (v 0)) (fin (v 1)) = vector (a.mulVec v) := by
  have mirrored : a 1 0 = a 0 1 := symmetric.apply 0 1
  simp [symmProd, upper, vector_pair, mirrored]

theorem writeSymm_upper {buffer : List (List (Exact K))} (length : buffer.length = 2)
    (square : ∀ row ∈ buffer, row.length = 2) :
    writeSymm (upper a) buffer = .done (rows a) () := by
  have mirrored : a 1 0 = a 0 1 := symmetric.apply 0 1
  obtain ⟨row₀, row₁, rfl⟩ := List.length_eq_two.1 length
  obtain ⟨_, _, rfl⟩ := List.length_eq_two.1 (square row₀ (by simp))
  obtain ⟨_, _, rfl⟩ := List.length_eq_two.1 (square row₁ (by simp))
  rw [rows_pair, mirrored]
  rfl

omit symmetric in
/-- A problem in the plane without constraints has the derivatives that its formulas are. -/
theorem unconstrained_derives {c : Constraints (Exact K)} (n_eq : c.n = 2) (m_eq : c.m = 0)
    {cost : Exact K → Exact K → Exact K} {grad : Exact K → Exact K → List (Exact K)}
    {hess : Exact K → Exact K → Exact K × Exact K × Exact K} {f : MvPolynomial (Fin 2) K}
    (costs : ∀ x, cost (fin (x 0)) (fin (x 1)) = fin (eval x f))
    (grads : ∀ x, grad (fin (x 0)) (fin (x 1)) = vector (gradient f x))
    (hesses : ∀ x, hess (fin (x 0)) (fin (x 1)) = upper (hessian f x)) :
    (Problem.ofPrimitives c (unconstrained cost grad hess)).Derives f
      (Fin.elim0 : Fin 0 → MvPolynomial (Fin 2) K) := by
  have lagrangian_eq (y : Fin 0 → K) : lagrangian f Fin.elim0 y = f := by
    rw [lagrangian, Finset.univ_eq_empty, Finset.sum_empty, add_zero]
  have none (x : Fin 2 → K) (y : Fin 0 → K) {buffer : List (Exact K)} (length : buffer.length = 2) :
      (Problem.ofPrimitives c (unconstrained cost grad hess)).constrGradProd (vector x) (vector y)
        buffer = .done (vector (∑ i, y i • gradient i.elim0 x)) () := by
    obtain ⟨a, b, rfl⟩ := List.length_eq_two.1 length
    show Written.done [0.0, 0.0] () = _
    simp [vector_pair]
  exact
    { n_eq
      m_eq
      cost := value_vector costs
      costGrad := write_vector grads
      constr := fun x buffer length => by
        rw [List.length_eq_zero_iff.1 length]
        rfl
      constrGrad := fun _ i => i.elim0
      constrGradProd := none
      lagrGrad := Problem.lagrGrad_of_terms rfl (write_vector grads) none
      lagrHess := fun x y buffer length square => by
        rw [lagrangian_eq, ← writeSymm_upper (hessian_symmetric f x) length square, ← hesses x]
        rfl
      symmetric := fun x y => hessian_symmetric _ x
      lagrHessProd := fun x y v buffer length => by
        have product : ∀ v : Fin 2 → K,
            symmProd (upper (hessian f x)) (fin (v 0)) (fin (v 1)) = _ :=
          symmProd_upper (hessian_symmetric f x)
        rw [lagrangian_eq, ← write_vector product v length, ← hesses x]
        rfl }

end Planar

/-! ## The reference problems -/

section References

variable {K : Type} [Field K] [LinearOrder K] [IsStrictOrderedRing K]

open Exact (fin)
open Planar (upper)

namespace Himmelblau

instance : OrdersBounds (Exact K) where
  first := by
    show fin (-1.0 : K) ≤ fin 4.0
    norm_num
  second := by
    show fin (-1.0 : K) ≤ fin 1.8
    norm_num

/-- The cost. -/
noncomputable def polynomial : MvPolynomial (Fin 2) K :=
  (X 0 ^ 2 + X 1 - 11) ^ 2 + (X 0 + X 1 ^ 2 - 7) ^ 2

theorem literals : (11.0 : Exact K) = fin 11 ∧ (7.0 : Exact K) = fin 7 ∧
    (2.0 : Exact K) = fin 2 ∧ (4.0 : Exact K) = fin 4 ∧ (8.0 : Exact K) = fin 8 := by
  refine ⟨?_, ?_, ?_, ?_, ?_⟩ <;> exact Exact.literal_fin (by norm_num)

theorem derives : (Problem.ofPrimitives constraints prims : Problem (Exact K)).Derives polynomial
    (Fin.elim0 : Fin 0 → MvPolynomial (Fin 2) K) := by
  refine Planar.unconstrained_derives rfl rfl (fun x => ?_) (fun x => ?_) fun x => ?_
  · simp [polynomial, cost, sq, literals]
    ring
  · simp [polynomial, gradient, vector_pair, grad, sq, literals, MvPolynomial.pderiv_X]
    constructor <;> ring
  · simp [polynomial, hessian, gradient, upper, hess, sq, literals, MvPolynomial.pderiv_X]
    refine ⟨?_, ?_, ?_⟩ <;> ring

end Himmelblau

namespace Rosenbrock

instance : OrdersBounds (Exact K) where
  first := by
    show fin (-0.25 : K) ≤ fin 0.9
    norm_num
  second := by
    show fin (-0.5 : K) ≤ fin 0.8
    norm_num

/-- The cost at the curvature `p`. -/
noncomputable def polynomial (p : K) : MvPolynomial (Fin 2) K :=
  (1 - X 0) ^ 2 + C p * (X 1 - X 0 ^ 2) ^ 2

theorem literals : (2.0 : Exact K) = fin 2 ∧ (4.0 : Exact K) = fin 4 ∧
    (12.0 : Exact K) = fin 12 := by
  refine ⟨?_, ?_, ?_⟩ <;> exact Exact.literal_fin (by norm_num)

theorem derives (p : K) : (Problem.ofPrimitives constraints (prims (fin p))).Derives
    (polynomial p) (Fin.elim0 : Fin 0 → MvPolynomial (Fin 2) K) := by
  refine Planar.unconstrained_derives rfl rfl (fun x => ?_) (fun x => ?_) fun x => ?_
  · simp [polynomial, cost]
    ring
  · simp [polynomial, gradient, vector_pair, grad, literals, MvPolynomial.pderiv_X]
    constructor <;> ring
  · simp [polynomial, hessian, gradient, upper, hess, literals, MvPolynomial.pderiv_X]
    refine ⟨?_, ?_, ?_⟩ <;> ring

end Rosenbrock

namespace Quadratic

/-- The quadratic form with these coefficients. -/
noncomputable def polynomial (a b c : K) : MvPolynomial (Fin 2) K :=
  C a * X 0 ^ 2 + C b * X 0 * X 1 + C c * X 1 ^ 2

section Entries

variable (p₀ p₁ p₂ : K) (x : Fin 2 → K)

/-- The matrix of the quadratic. -/
def matrix : Matrix (Fin 2) (Fin 2) K :=
  !![p₀, p₁; p₁, p₂]

theorem matrix_symmetric : (matrix p₀ p₁ p₂).IsSymm := by
  ext i j
  fin_cases i <;> fin_cases j <;> rfl

theorem paramCost_eq : paramCost (fin p₀) (fin p₁) (fin p₂) (fin (x 0)) (fin (x 1)) =
    fin (eval x (polynomial (p₀ / 2) p₁ (p₂ / 2))) := by
  have two : (2.0 : Exact K) = fin 2 := Exact.literals.2.2.1
  simp [paramCost, polynomial, two]
  ring

theorem gradient_polynomial :
    gradient (polynomial (p₀ / 2) p₁ (p₂ / 2)) x = (matrix p₀ p₁ p₂).mulVec x := by
  ext j
  fin_cases j
  all_goals
    simp [gradient, polynomial, matrix, MvPolynomial.pderiv_X, Matrix.vecHead, Matrix.vecTail]
    ring

/-- Linear constraints leave the Hessian of the cost alone. -/
theorem hessian_lagrangian (y : Fin 2 → K) :
    hessian (lagrangian (polynomial (p₀ / 2) p₁ (p₂ / 2)) X y) x = matrix p₀ p₁ p₂ := by
  ext i j
  fin_cases i <;> fin_cases j
  all_goals
    simp [hessian, gradient, lagrangian, polynomial, matrix, MvPolynomial.pderiv_X]
    try ring

end Entries

theorem overwriteAll_vector {n : Nat} (v : Fin n → K) {buffer : List (Exact K)}
    (length : buffer.length = n) : overwriteAll (vector v) buffer = .done (vector v) () :=
  if_pos ((length_vector v).trans length.symm)

theorem sum_gradient_X {n : Nat} (x y : Fin n → K) :
    ∑ i, y i • gradient (X i : MvPolynomial (Fin n) K) x = y := by
  ext j
  simp [gradient, MvPolynomial.pderiv_X, Pi.single_apply]

theorem derives (p₀ p₁ p₂ : K) :
    (Problem.ofPrimitives halfPlane (paramPrims (fin p₀) (fin p₁) (fin p₂))).Derives
      (polynomial (p₀ / 2) p₁ (p₂ / 2)) (X : Fin 2 → MvPolynomial (Fin 2) K) := by
  have product : ∀ v : Fin 2 → K, Planar.symmProd (fin p₀, fin p₁, fin p₂) (fin (v 0)) (fin (v 1)) =
      vector ((matrix p₀ p₁ p₂).mulVec v) := Planar.symmProd_upper (matrix_symmetric p₀ p₁ p₂)
  have grads (x : Fin 2 → K) := (product x).trans
    (congrArg vector (gradient_polynomial p₀ p₁ p₂ x).symm)
  have terms (x y : Fin 2 → K) {buffer : List (Exact K)} (length : buffer.length = 2) :
      overwriteAll (vector y) buffer =
        .done (vector (∑ i, y i • gradient (X i : MvPolynomial (Fin 2) K) x)) () := by
    rw [sum_gradient_X, overwriteAll_vector y length]
  exact
    { n_eq := rfl
      m_eq := rfl
      cost := Planar.value_vector (paramCost_eq p₀ p₁ p₂)
      costGrad := Planar.write_vector grads
      constr := fun x buffer length => by
        simp only [MvPolynomial.eval_X]
        exact overwriteAll_vector x length
      constrGrad := fun x i buffer length => by
        obtain ⟨a, b, rfl⟩ := List.length_eq_two.1 length
        fin_cases i
        · show Written.done [1.0, 0.0] () = _
          simp [vector_pair, gradient, MvPolynomial.pderiv_X]
        · show Written.done [0.0, 1.0] () = _
          simp [vector_pair, gradient, MvPolynomial.pderiv_X]
      constrGradProd := fun x y _ length => terms x y length
      lagrGrad := Problem.lagrGrad_of_terms rfl (Planar.write_vector grads) terms
      lagrHess := fun x y buffer length square => by
        rw [hessian_lagrangian, ← Planar.writeSymm_upper (matrix_symmetric p₀ p₁ p₂) length square]
        rfl
      symmetric := fun x y => hessian_symmetric _ x
      lagrHessProd := fun x y v buffer length => by
        rw [hessian_lagrangian, ← Planar.write_vector product v length]
        rfl }

theorem derives_standard : (standard : Quadratic (Exact K)).problem.Derives
    (polynomial (3 / 2) 1 (3 / 2)) (X : Fin 2 → MvPolynomial (Fin 2) K) := by
  have three : (3.0 : Exact K) = fin 3 := Exact.literals.2.2.2
  have family := derives (3 : K) 1 3
  rw [← three, ← Exact.one_eq] at family
  exact same_standard.derives family

end Quadratic

/-- The reference problems evaluate exact derivatives. -/
theorem reference_derives :
    (Problem.ofPrimitives Himmelblau.constraints Himmelblau.prims : Problem (Exact K)).Derives
        Himmelblau.polynomial (Fin.elim0 : Fin 0 → MvPolynomial (Fin 2) K) ∧
      (∀ p : K, ∃ f, Rosenbrock.family.setParam [fin p] = .ok f ∧
        f.problem.Derives (Rosenbrock.polynomial p)
          (Fin.elim0 : Fin 0 → MvPolynomial (Fin 2) K)) ∧
      (Quadratic.standard : Quadratic (Exact K)).problem.Derives
        (Quadratic.polynomial (3 / 2) 1 (3 / 2)) X ∧
      (∀ p₀ p₁ p₂ : K, ∃ f, Quadratic.family.setParam [fin p₀, fin p₁, fin p₂] = .ok f ∧
        f.problem.Derives (Quadratic.polynomial (p₀ / 2) p₁ (p₂ / 2)) X) ∧
      ∀ {R : Type} [Scalar R] (q : Quadratic R) (x grad : List R),
        q.problem.costWithGrad x grad =
          (q.problem.costGrad x grad).andThen fun grad _ => ⟨grad, q.problem.cost x⟩ := by
  refine ⟨Himmelblau.derives, fun p => ⟨_, rfl, Rosenbrock.derives p⟩, Quadratic.derives_standard,
    fun p₀ p₁ p₂ => ⟨_, rfl, Quadratic.derives p₀ p₁ p₂⟩, fun q x grad => ?_⟩
  exact congrFun₂ q.costWithGrad_eq x grad

/-- At `(3, 2)`, a global minimum of Himmelblau's function, the gradient vanishes, and the Hessian
is what is evaluated there. -/
theorem himmelblau_minimum_derives :
    vector (gradient (Himmelblau.polynomial : MvPolynomial (Fin 2) ℚ) ![3, 2]) = [fin 0, fin 0] ∧
      rows (hessian (lagrangian (Himmelblau.polynomial : MvPolynomial (Fin 2) ℚ) Fin.elim0
        Fin.elim0) ![3, 2]) = [[fin 74, fin 20], [fin 20, fin 34]] := by
  have derives := (reference_derives (K := ℚ)).1
  let p : Problem (Exact ℚ) := .ofPrimitives Himmelblau.constraints Himmelblau.prims
  let row : List (Exact ℚ) := [.nan, .nan]
  have slope : p.costGrad (vector ![3, 2]) row = _ := derives.costGrad ![3, 2] rfl
  have curvature : p.lagrHess (vector ![3, 2]) (vector Fin.elim0) [row, row] = _ :=
    derives.lagrHess ![3, 2] Fin.elim0 rfl (by simp [row])
  have slopes : (p.costGrad (vector ![3, 2]) row).kept = [fin 0, fin 0] := by
    decide +kernel
  have curvatures : (p.lagrHess (vector ![3, 2]) (vector Fin.elim0) [row, row]).kept =
      [[fin 74, fin 20], [fin 20, fin 34]] := by
    decide +kernel
  rw [slope] at slopes
  rw [curvature] at curvatures
  exact ⟨slopes, curvatures⟩

end References

end AugmentedLagrangian
