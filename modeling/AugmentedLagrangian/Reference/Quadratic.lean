/- # AugmentedLagrangian.Reference.Quadratic — a convex quadratic with one constraint

    minimize xᵀQx    subject to x₁ ≥ ½    where    Q = [1.5 0.5; 0.5 1.5]

written as `g(x) = x ∈ ℝ × [0.5, ∞)`.  The solution is `(-1/6, 1/2)` with multipliers `(0, -4/3)`.

`Quadratic` is the problem with this matrix; it shares the product `Qx` between its cost and the
gradient.  `Quadratic.family` is the quadratic `½ xᵀQ(p)x` with `Q(p) = [p₀ p₁; p₁ p₂]` under the
same constraint, and starts at `p = (3, 1, 3)`, where the two are the same problem.
-/
import AugmentedLagrangian.Problem.Family
import AugmentedLagrangian.Problem.Planar

namespace AugmentedLagrangian

set_option autoImplicit false

variable {R : Type} [Scalar R]

/-- The matrix of a quadratic, row by row, and its boxes. -/
structure Quadratic (R : Type) [Scalar R] where
  row₀ : R × R
  row₁ : R × R
  constraints : Constraints R

namespace Quadratic

/-- In this arithmetic the constant bounds are ordered. -/
class OrdersBounds (R : Type) [Scalar R] : Prop where
  second : (0.5 : R) ≤ Scalar.infinity

instance : OrdersBounds Float where
  second := by decide

/-- Free variables, of which the second is constrained to `[0.5, ∞)`. -/
def halfPlane [OrdersBounds R] : Constraints R :=
  ⟨.unbounded 2, ⟨[.line, .between 0.5 Scalar.infinity OrdersBounds.second]⟩⟩

/-- The quadratic with the matrix above. -/
def standard [OrdersBounds R] : Quadratic R :=
  ⟨(1.5, 0.5), (0.5, 1.5), halfPlane⟩

/-- The first entry of `Qv`. -/
def prod₀ (q : Quadratic R) (v₀ v₁ : R) : R :=
  q.row₀.1 * v₀ + q.row₀.2 * v₁

/-- The second entry of `Qv`. -/
def prod₁ (q : Quadratic R) (v₀ v₁ : R) : R :=
  q.row₁.1 * v₀ + q.row₁.2 * v₁

/-- The cost `xᵀQx`. -/
def cost (q : Quadratic R) (x₀ x₁ : R) : R :=
  x₀ * q.prod₀ x₀ x₁ + x₁ * q.prod₁ x₀ x₁

/-- Twice the product `Qv`: the gradient at `v`, and the Hessian times `v`. -/
def twiceProd (q : Quadratic R) (v₀ v₁ : R) : List R :=
  [2.0 * q.prod₀ v₀ v₁, 2.0 * q.prod₁ v₀ v₁]

/-- Writes the unit vector of a constraint; a buffer without that entry is a breach. -/
def writeUnit (i : Nat) (buffer : List R) : Written (List R) Unit :=
  let cleared := fill 0.0 buffer
  if i < buffer.length then .done (cleared.set i 1.0) () else .failed cleared .breach

/-- Writes a matrix into the first rows and columns. -/
def writeMatrix (row₀ row₁ : R × R) (buffer : List (List R)) : Written (List (List R)) Unit :=
  match buffer with
  | (_ :: _ :: rest₀) :: (_ :: _ :: rest₁) :: rows =>
    .done ((row₀.1 :: row₀.2 :: rest₀) :: (row₁.1 :: row₁.2 :: rest₁) :: rows) ()
  | _ => .failed buffer .breach

def prims (q : Quadratic R) : Primitives R where
  cost? := some (Planar.value q.cost)
  costGrad? := some (Planar.write q.twiceProd)
  constr? := some fun x => overwriteAll x
  constrGradProd? := some fun _ y => overwriteAll y
  constrGrad? := some fun _ i buffer =>
    if i < q.constraints.m then writeUnit i buffer
    else .failed buffer (.rejected (.constraintIndex i))
  lagrHessProd? := some fun _ _ v => Planar.write q.twiceProd v
  lagrHess? := some fun _ _ =>
    writeMatrix (2.0 * q.row₀.1, 2.0 * q.row₀.2) (2.0 * q.row₁.1, 2.0 * q.row₁.2)

/-- Cost and gradient from one product `Qx`. -/
def costWithGrad (q : Quadratic R) (x buffer : List R) : Written (List R) R :=
  match x with
  | x₀ :: x₁ :: _ =>
    let a := q.prod₀ x₀ x₁
    let b := q.prod₁ x₀ x₁
    (overwrite [2.0 * a, 2.0 * b] buffer).map fun _ => x₀ * a + x₁ * b
  | _ => .failed buffer .breach

def problem (q : Quadratic R) : Problem R :=
  .assemble q.constraints (.ok ()) q.prims { costWithGrad? := some q.costWithGrad }

/-! ## The family -/

/-- The cost `½ xᵀQ(p)x`. -/
def paramCost (p₀ p₁ p₂ x₀ x₁ : R) : R :=
  0.5 * (p₀ * x₀ * x₀ + 2.0 * p₁ * x₀ * x₁ + p₂ * x₁ * x₁)

/-- The primitives at three parameters. -/
def paramPrims (p₀ p₁ p₂ : R) : Primitives R where
  cost? := some (Planar.value (paramCost p₀ p₁ p₂))
  costGrad? := some (Planar.write (Planar.symmProd (p₀, p₁, p₂)))
  constr? := some fun x => overwriteAll x
  constrGradProd? := some fun _ y => overwriteAll y
  constrGrad? := some fun _ i => writeUnit i
  lagrHessProd? := some fun _ _ v => Planar.write (Planar.symmProd (p₀, p₁, p₂)) v
  lagrHess? := some fun _ _ => Planar.writeSymm (p₀, p₁, p₂)

/-- The family, at `(3, 1, 3)`. -/
def family [OrdersBounds R] : Family R :=
  ⟨halfPlane, [3.0, 1.0, 3.0], fun param =>
    paramPrims (param.getD 0 Scalar.nan) (param.getD 1 Scalar.nan) (param.getD 2 Scalar.nan)⟩

end Quadratic

end AugmentedLagrangian
