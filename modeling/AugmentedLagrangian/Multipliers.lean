/- # AugmentedLagrangian.Multipliers — the shifted constraint and its multipliers

With constraint values `g`, multipliers `y` and penalty weights `Σ`, the merit function is

    ψ = f + ½ dist²_Σ(ζ, D) = f + ½ dᵀŷ    where    ζ = g + Σ⁻¹y,  d = ζ − Π_D(ζ),  ŷ = Σd.

`shifted` turns `g` into `ŷ` and returns `dᵀŷ`.  The weights are given as one weight for
all constraints or as one each; the two passes perform the same operations on each coordinate, the
first inverting its weight once.  `residual` is the constraint violation `g − Π_D(g + Σ⁻¹y)`, whose
shift divides by the weight instead of multiplying with its inverse.  `clip` moves multipliers into
the set that they can occupy at a solution.
-/
import AugmentedLagrangian.Constraints
import AugmentedLagrangian.Problem.Evaluation

namespace AugmentedLagrangian

set_option autoImplicit false

open Scalar (isNaN infinity larger smaller)

variable {R : Type} [Scalar R]

namespace Multipliers

/-- The pass with one weight and its inverse: the multipliers, with the terms of `dᵀŷ` added to
`acc` in order. -/
def sharedPass (σ inverse : R) : R → List (Interval R) → List R → List R → R × List R
  | acc, i :: is, g :: gs, y :: ys =>
    let d := i.offset (g + inverse * y)
    let (total, rest) := sharedPass σ inverse (acc + d * σ * d) is gs ys
    (total, σ * d :: rest)
  | acc, _, gs, _ => (acc, gs)

/-- The pass with a weight for each constraint: the multipliers, with the terms of `dᵀŷ` added to
`acc` in order. -/
def eachPass : R → List (Interval R) → List R → List R → List R → R × List R
  | acc, i :: is, g :: gs, y :: ys, σ :: σs =>
    let d := i.offset (g + (1.0 / σ) * y)
    let (total, rest) := eachPass (acc + d * σ * d) is gs ys σs
    (total, σ * d :: rest)
  | acc, _, gs, _, _ => (acc, gs)

/-- Turns constraint values into shifted multipliers and returns `dᵀŷ`.  It is a breach if the
values or multipliers lack a constraint, or if the weights are neither one nor one per
constraint. -/
def shifted (values : Box R) (g y weights : List R) : Written (List R) R :=
  if g.length < values.size ∨ y.length < values.size then .failed g .breach
  else
    match weights with
    | [σ] =>
      let (total, ŷ) := sharedPass σ (1.0 / σ) 0.0 values.intervals g y
      .done ŷ total
    | _ =>
      if weights.length = values.size then
        let (total, ŷ) := eachPass 0.0 values.intervals g y weights
        .done ŷ total
      else .failed g .breach

/-- How far constraint values lie from where their shift is projected to. -/
def residual : List (Interval R) → List R → List R → List R → List R
  | i :: is, g :: gs, y :: ys, σ :: σs => (g - i.project (g + y / σ)) :: residual is gs ys σs
  | _, _, _, _ => []

/-- The bounds of a multiplier: none below zero without a lower bound on the constraint, none above
zero without an upper, and none beyond the limit. -/
def range (limit : R) (lower upper : R) : R × R :=
  (if lower ≤ -infinity then 0.0 else -limit, if infinity ≤ upper then 0.0 else limit)

/-- The multiplier moved into its range.  What is no number stays so. -/
def clipOne (limit lower upper y : R) : R :=
  let (lo, hi) := range limit lower upper
  if isNaN y then y else smaller (larger y lo) hi

/-- Every multiplier moved into the range that the bounds of its constraint leave it. -/
def clip (limit : R) : List R → List R → List R → List R
  | lo :: lowers, hi :: uppers, y :: ys => clipOne limit lo hi y :: clip limit lowers uppers ys
  | _, _, ys => ys

end Multipliers

end AugmentedLagrangian
