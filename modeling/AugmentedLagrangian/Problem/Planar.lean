/- # AugmentedLagrangian.Problem.Planar — primitives in the plane

Problems in two variables are given by functions of the two coordinates.  What they write goes into
the first entries of the buffers; points and buffers with fewer than two entries are a breach.
-/
import AugmentedLagrangian.Problem.Basic

namespace AugmentedLagrangian

set_option autoImplicit false

namespace Planar

variable {R : Type} [Scalar R]

/-- The evaluation at a point of the plane; a shorter point is a breach. -/
def value (f : R → R → R) : List R → Except EvalError R
  | x₀ :: x₁ :: _ => .ok (f x₀ x₁)
  | _ => .error .breach

/-- Writes the values at a point of the plane; a shorter point is a breach. -/
def write (f : R → R → List R) (x buffer : List R) : Written (List R) Unit :=
  match x with
  | x₀ :: x₁ :: _ => overwrite (f x₀ x₁) buffer
  | _ => .failed buffer .breach

/-- The product of a symmetric matrix, given by its upper triangle, with a vector. -/
def symmProd (h : R × R × R) (v₀ v₁ : R) : List R :=
  [h.1 * v₀ + h.2.1 * v₁, h.2.1 * v₀ + h.2.2 * v₁]

/-- Writes a symmetric matrix, given by its upper triangle, into the first rows and columns. -/
def writeSymm (h : R × R × R) (buffer : List (List R)) : Written (List (List R)) Unit :=
  match buffer with
  | (_ :: _ :: row₀) :: (_ :: _ :: row₁) :: rows =>
    .done ((h.1 :: h.2.1 :: row₀) :: (h.2.1 :: h.2.2 :: row₁) :: rows) ()
  | _ => .failed buffer .breach

/-- The primitives of a cost in the plane without constraints, given with its gradient and the upper
triangle of its Hessian. -/
def unconstrained (cost : R → R → R) (grad : R → R → List R) (hess : R → R → R × R × R) :
    Primitives R where
  cost? := some (value cost)
  costGrad? := some (write grad)
  constr? := some fun _ g => .done g ()
  constrGradProd? := some fun _ _ prod => .done (fill 0.0 prod) ()
  constrGrad? := some fun _ _ grad => .done (fill 0.0 grad) ()
  lagrHessProd? := some fun x _ v buffer =>
    match x with
    | x₀ :: x₁ :: _ => write (symmProd (hess x₀ x₁)) v buffer
    | _ => .failed buffer .breach
  lagrHess? := some fun x _ buffer =>
    match x with
    | x₀ :: x₁ :: _ => writeSymm (hess x₀ x₁) buffer
    | _ => .failed buffer .breach

end Planar

end AugmentedLagrangian
