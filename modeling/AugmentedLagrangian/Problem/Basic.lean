/- # AugmentedLagrangian.Problem.Basic — problems and the evaluations composed for them

A problem supplies `Primitives`: its cost `f`, the constraint values `g`, their gradients, and the
Hessian of the Lagrangian.  Every primitive is optional, and one that is absent fails and writes
nothing.  The combined evaluations, and those of the merit function, are composed of the primitives
by the definitions in `Composed`, each in terms of the evaluations it calls.  A problem that can
share work between them supplies its own in `Overrides`.

`Problem.assemble` ties these together.  An override takes the place of the composed evaluation
everywhere, so it also serves the compositions above it.
-/
import AugmentedLagrangian.Multipliers

namespace AugmentedLagrangian

set_option autoImplicit false

/-- Evaluations of the point, and of what else their names say, into a buffer. -/
abbrev Writes (R α : Type) : Type := List R → Written (List R) α

/-- What a problem supplies of its own. -/
structure Primitives (R : Type) where
  /-- The cost `f(x)`. -/
  cost? : Option (List R → Except EvalError R) := none
  /-- The gradient `∇f(x)`. -/
  costGrad? : Option (List R → Writes R Unit) := none
  /-- The constraint values `g(x)`. -/
  constr? : Option (List R → Writes R Unit) := none
  /-- The product `∇g(x) y`. -/
  constrGradProd? : Option (List R → List R → Writes R Unit) := none
  /-- The gradient of one constraint. -/
  constrGrad? : Option (List R → Nat → Writes R Unit) := none
  /-- The product of the Lagrangian's Hessian at `x`, `y` with `v`. -/
  lagrHessProd? : Option (List R → List R → List R → Writes R Unit) := none
  /-- The Lagrangian's Hessian at `x`, `y`, row by row. -/
  lagrHess? : Option (List R → List R → List (List R) → Written (List (List R)) Unit) := none

/-- Combined evaluations that a problem performs in its own way. -/
structure Overrides (R : Type) where
  costWithGrad? : Option (List R → Writes R R) := none
  costWithConstr? : Option (List R → Writes R R) := none
  costWithGradConstr? : Option (List R → List R → List R → Written (List R × List R) R) := none
  gradTerms? : Option (List R → List R → List R → List R → Written (List R × List R) Unit) := none
  lagrGrad? : Option (List R → List R → List R → List R → Written (List R × List R) Unit) := none
  merit? : Option (List R → List R → List R → Writes R R) := none
  meritGradFrom? : Option (List R → List R → List R → List R → Written (List R × List R) Unit) :=
    none
  meritGrad? : Option (List R → List R → List R → List R → List R → List R →
    Written (List R × List R × List R) Unit) := none
  meritWithGrad? : Option (List R → List R → List R → List R → List R → List R →
    Written (List R × List R × List R) R) := none
  shifted? : Option (List R → List R → List R → Written (List R) R) := none

/-- A problem with all its evaluations.  Buffers are named for what they hold after success; the
last arguments of an evaluation are the buffers it is handed. -/
structure Problem (R : Type) [Scalar R] where
  constraints : Constraints R
  /-- Whether the problem can be duplicated, and why not. -/
  duplicable : Except EvalError Unit
  cost : List R → Except EvalError R
  costGrad : (x grad : List R) → Written (List R) Unit
  constr : (x g : List R) → Written (List R) Unit
  constrGradProd : (x y prod : List R) → Written (List R) Unit
  constrGrad : (x : List R) → (i : Nat) → (grad : List R) → Written (List R) Unit
  lagrHessProd : (x y v prod : List R) → Written (List R) Unit
  lagrHess : (x y : List R) → (hess : List (List R)) → Written (List (List R)) Unit
  /-- `f(x)` and `∇f(x)`. -/
  costWithGrad : (x grad : List R) → Written (List R) R
  /-- `f(x)` and `g(x)`. -/
  costWithConstr : (x g : List R) → Written (List R) R
  /-- `f(x)`, `∇f(x)` and `g(x)`. -/
  costWithGradConstr : (x grad g : List R) → Written (List R × List R) R
  /-- `∇f(x)` and `∇g(x) y`, the two terms of the Lagrangian's gradient. -/
  gradTerms : (x y grad prod : List R) → Written (List R × List R) Unit
  /-- `∇f(x) + ∇g(x) y`, with a work vector. -/
  lagrGrad : (x y grad work : List R) → Written (List R × List R) Unit
  /-- `ψ(x)`, and the shifted multipliers `ŷ`. -/
  merit : (x y weights shifted : List R) → Written (List R) R
  /-- `∇ψ(x)` from `ŷ` at the same `x`, with a work vector. -/
  meritGradFrom : (x shifted grad work : List R) → Written (List R × List R) Unit
  /-- `∇ψ(x)`, with a work vector and one that holds `ŷ`. -/
  meritGrad : (x y weights grad work shifted : List R) → Written (List R × List R × List R) Unit
  /-- `ψ(x)` and `∇ψ(x)`, with a work vector and one that holds `ŷ`. -/
  meritWithGrad : (x y weights grad work shifted : List R) →
    Written (List R × List R × List R) R
  /-- Turns `g(x)` into `ŷ` and returns `dᵀŷ`. -/
  shifted : (g y weights : List R) → Written (List R) R

/-! ## The composed evaluations -/

namespace Composed

variable {R : Type} [Scalar R]

/-- The gradient first, then the cost. -/
def costWithGrad (cost : List R → Except EvalError R) (costGrad : List R → Writes R Unit)
    (x grad : List R) : Written (List R) R :=
  (costGrad x grad).andThen fun grad _ => ⟨grad, cost x⟩

/-- The constraint values first, then the cost. -/
def costWithConstr (cost : List R → Except EvalError R) (constr : List R → Writes R Unit)
    (x g : List R) : Written (List R) R :=
  (constr x g).andThen fun g _ => ⟨g, cost x⟩

/-- The constraint values first, then the cost with its gradient. -/
def costWithGradConstr (constr : List R → Writes R Unit) (costWithGrad : List R → Writes R R)
    (x grad g : List R) : Written (List R × List R) R :=
  ((constr x g).on (grad, ·)).andThen fun (grad, g) _ => (costWithGrad x grad).on (·, g)

/-- The gradient of the cost first, then the constraints' term. -/
def gradTerms (costGrad : List R → Writes R Unit) (constrGradProd : List R → List R → Writes R Unit)
    (x y grad prod : List R) : Written (List R × List R) Unit :=
  ((costGrad x grad).on (·, prod)).andThen fun (grad, prod) _ =>
    (constrGradProd x y prod).on (grad, ·)

/-- Adds the second vector to the first, entry by entry. -/
def addOnto : List R → List R → List R
  | a :: as, b :: bs => (a + b) :: addOnto as bs
  | as, _ => as

/-- The two terms, then their sum in place of the first. -/
def lagrGrad (gradTerms : List R → List R → List R → List R → Written (List R × List R) Unit)
    (x y grad work : List R) : Written (List R × List R) Unit :=
  (gradTerms x y grad work).andThen fun (grad, work) _ => .done (addOnto grad work, work) ()

/-- Cost and constraint values, then the shifted multipliers in the latter's place. -/
def costWithShifted (costWithConstr : List R → Writes R R)
    (shifted : List R → List R → List R → Written (List R) R)
    (x y weights buffer : List R) : Written (List R) R :=
  (costWithConstr x buffer).andThen fun g f =>
    (shifted g y weights).map fun distance => f + 0.5 * distance

/-- The merit function.  Without constraints it is the cost, and the buffer is not touched. -/
def merit (m : Nat) (cost : List R → Except EvalError R) (costWithConstr : List R → Writes R R)
    (shifted : List R → List R → List R → Written (List R) R)
    (x y weights buffer : List R) : Written (List R) R :=
  if m = 0 then ⟨buffer, cost x⟩
  else costWithShifted costWithConstr shifted x y weights buffer

/-- The merit function's gradient is the Lagrangian's at the shifted multipliers; without
constraints, the cost's. -/
def meritGradFrom (m : Nat) (costGrad : List R → Writes R Unit)
    (lagrGrad : List R → List R → List R → List R → Written (List R × List R) Unit)
    (x shifted grad work : List R) : Written (List R × List R) Unit :=
  if m = 0 then (costGrad x grad).on (·, work) else lagrGrad x shifted grad work

/-- The shifted multipliers, then the gradient from them. -/
def meritGrad (m : Nat) (costGrad constr : List R → Writes R Unit)
    (shifted : List R → List R → List R → Written (List R) R)
    (meritGradFrom : List R → List R → List R → List R → Written (List R × List R) Unit)
    (x y weights grad work buffer : List R) : Written (List R × List R × List R) Unit :=
  if m = 0 then (costGrad x grad).on (·, work, buffer)
  else
    (((constr x buffer).andThen fun g _ => shifted g y weights).on (grad, work, ·)).andThen
      fun (grad, work, ŷ) _ =>
        (meritGradFrom x ŷ grad work).on fun (grad, work) => (grad, work, ŷ)

/-- The merit function, then its gradient from the shifted multipliers that this left. -/
def meritWithGrad (m : Nat) (costWithGrad costWithConstr : List R → Writes R R)
    (shifted : List R → List R → List R → Written (List R) R)
    (lagrGrad : List R → List R → List R → List R → Written (List R × List R) Unit)
    (x y weights grad work buffer : List R) : Written (List R × List R × List R) R :=
  if m = 0 then (costWithGrad x grad).on (·, work, buffer)
  else
    ((costWithShifted costWithConstr shifted x y weights buffer).on (grad, work, ·)).andThen
      fun (grad, work, ŷ) ψ =>
        ((lagrGrad x ŷ grad work).map fun _ => ψ).on fun (grad, work) => (grad, work, ŷ)

end Composed

/-! ## Assembling a problem -/

namespace Problem

variable {R : Type} [Scalar R]

/-- The number of variables. -/
def n (p : Problem R) : Nat :=
  p.constraints.n

/-- The number of constraints. -/
def m (p : Problem R) : Nat :=
  p.constraints.m

/-- A primitive that is absent fails and leaves its buffer alone. -/
def orMissing {B : Type} (p : Primitive) (given : Option (B → Written B Unit)) (buffer : B) :
    Written B Unit :=
  match given with
  | some f => f buffer
  | none => .failed buffer (.missing p)

/-- The problem with these primitives and overrides. -/
def assemble (constraints : Constraints R) (duplicable : Except EvalError Unit)
    (prims : Primitives R) (own : Overrides R) : Problem R :=
  let m := constraints.m
  let cost x := match prims.cost? with
    | some f => f x
    | none => .error (.missing .cost)
  let costGrad x := orMissing .costGrad (prims.costGrad?.map (· x))
  let constr x := orMissing .constr (prims.constr?.map (· x))
  let constrGradProd x y := orMissing .constrGradProd (prims.constrGradProd?.map (· x y))
  let constrGrad x i := orMissing .constrGrad (prims.constrGrad?.map (· x i))
  let lagrHessProd x y v := orMissing .lagrHessProd (prims.lagrHessProd?.map (· x y v))
  let lagrHess x y := orMissing .lagrHess (prims.lagrHess?.map (· x y))
  let shifted := own.shifted?.getD (Multipliers.shifted constraints.values)
  let costWithGrad := own.costWithGrad?.getD (Composed.costWithGrad cost costGrad)
  let costWithConstr := own.costWithConstr?.getD (Composed.costWithConstr cost constr)
  let costWithGradConstr :=
    own.costWithGradConstr?.getD (Composed.costWithGradConstr constr costWithGrad)
  let gradTerms := own.gradTerms?.getD (Composed.gradTerms costGrad constrGradProd)
  let lagrGrad := own.lagrGrad?.getD (Composed.lagrGrad gradTerms)
  let merit := own.merit?.getD (Composed.merit m cost costWithConstr shifted)
  let meritGradFrom := own.meritGradFrom?.getD (Composed.meritGradFrom m costGrad lagrGrad)
  let meritGrad := own.meritGrad?.getD (Composed.meritGrad m costGrad constr shifted meritGradFrom)
  let meritWithGrad := own.meritWithGrad?.getD
    (Composed.meritWithGrad m costWithGrad costWithConstr shifted lagrGrad)
  { constraints, duplicable, cost, costGrad, constr, constrGradProd, constrGrad, lagrHessProd,
    lagrHess, costWithGrad, costWithConstr, costWithGradConstr, gradTerms, lagrGrad, merit,
    meritGradFrom, meritGrad, meritWithGrad, shifted }

/-- The problem with these primitives and nothing of its own beside them. -/
def ofPrimitives (constraints : Constraints R) (prims : Primitives R) : Problem R :=
  assemble constraints (.ok ()) prims {}

end Problem

end AugmentedLagrangian
