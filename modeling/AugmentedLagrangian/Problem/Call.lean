/- # AugmentedLagrangian.Problem.Call — evaluations as requests

A `Call` names an evaluation together with its arguments and the buffers handed over, and
`Problem.answer` performs it.  Sixteen of the seventeen calls are `Operation`s, the ones that can be
counted; turning constraint values into shifted multipliers is arithmetic and is no evaluation.
-/
import AugmentedLagrangian.Problem.Basic

namespace AugmentedLagrangian

set_option autoImplicit false

/-- The evaluations that can be counted. -/
inductive Operation where
  | cost
  | costGrad
  | costWithGrad
  | costWithConstr
  | costWithGradConstr
  | gradTerms
  | constr
  | constrGradProd
  | constrGrad
  | lagrGrad
  | lagrHessProd
  | lagrHess
  | merit
  | meritGrad
  | meritGradFrom
  | meritWithGrad
  deriving DecidableEq, Repr

namespace Operation

/-- Every operation, in the order of reports. -/
def all : List Operation :=
  [.cost, .costGrad, .costWithGrad, .costWithConstr, .costWithGradConstr, .gradTerms, .constr,
    .constrGradProd, .constrGrad, .lagrGrad, .lagrHessProd, .lagrHess, .merit, .meritGrad,
    .meritGradFrom, .meritWithGrad]

theorem mem_all (op : Operation) : op ∈ all := by
  cases op <;> decide

end Operation

/-- An evaluation with its arguments and buffers. -/
inductive Call (R : Type) where
  | cost (x : List R)
  | costGrad (x grad : List R)
  | constr (x g : List R)
  | constrGradProd (x y prod : List R)
  | constrGrad (x : List R) (i : Nat) (grad : List R)
  | lagrHessProd (x y v prod : List R)
  | lagrHess (x y : List R) (hess : List (List R))
  | costWithGrad (x grad : List R)
  | costWithConstr (x g : List R)
  | costWithGradConstr (x grad g : List R)
  | gradTerms (x y grad prod : List R)
  | lagrGrad (x y grad work : List R)
  | merit (x y weights shifted : List R)
  | meritGradFrom (x shifted grad work : List R)
  | meritGrad (x y weights grad work shifted : List R)
  | meritWithGrad (x y weights grad work shifted : List R)
  | shifted (g y weights : List R)

namespace Call

variable {R : Type}

/-- The buffers of a call. -/
def Kept : Call R → Type
  | cost .. => Unit
  | costGrad .. | constr .. | constrGradProd .. | constrGrad .. | lagrHessProd .. => List R
  | lagrHess .. => List (List R)
  | costWithGrad .. | costWithConstr .. | merit .. | shifted .. => List R
  | costWithGradConstr .. | gradTerms .. | lagrGrad .. | meritGradFrom .. => List R × List R
  | meritGrad .. | meritWithGrad .. => List R × List R × List R

/-- What a call returns beside its buffers. -/
def Value : Call R → Type
  | cost .. | costWithGrad .. | costWithConstr .. | costWithGradConstr .. | merit ..
  | meritWithGrad .. | shifted .. => R
  | _ => Unit

/-- The reply to a call. -/
abbrev Reply (c : Call R) : Type := Written c.Kept c.Value

/-- The operation that a call counts as. -/
def operation : Call R → Option Operation
  | cost .. => some .cost
  | costGrad .. => some .costGrad
  | constr .. => some .constr
  | constrGradProd .. => some .constrGradProd
  | constrGrad .. => some .constrGrad
  | lagrHessProd .. => some .lagrHessProd
  | lagrHess .. => some .lagrHess
  | costWithGrad .. => some .costWithGrad
  | costWithConstr .. => some .costWithConstr
  | costWithGradConstr .. => some .costWithGradConstr
  | gradTerms .. => some .gradTerms
  | lagrGrad .. => some .lagrGrad
  | merit .. => some .merit
  | meritGradFrom .. => some .meritGradFrom
  | meritGrad .. => some .meritGrad
  | meritWithGrad .. => some .meritWithGrad
  | shifted .. => none

end Call

/-- Performs a call. -/
def Problem.answer {R : Type} [Scalar R] (p : Problem R) : (c : Call R) → c.Reply
  | .cost x => ⟨(), p.cost x⟩
  | .costGrad x grad => p.costGrad x grad
  | .constr x g => p.constr x g
  | .constrGradProd x y prod => p.constrGradProd x y prod
  | .constrGrad x i grad => p.constrGrad x i grad
  | .lagrHessProd x y v prod => p.lagrHessProd x y v prod
  | .lagrHess x y hess => p.lagrHess x y hess
  | .costWithGrad x grad => p.costWithGrad x grad
  | .costWithConstr x g => p.costWithConstr x g
  | .costWithGradConstr x grad g => p.costWithGradConstr x grad g
  | .gradTerms x y grad prod => p.gradTerms x y grad prod
  | .lagrGrad x y grad work => p.lagrGrad x y grad work
  | .merit x y weights shifted => p.merit x y weights shifted
  | .meritGradFrom x shifted grad work => p.meritGradFrom x shifted grad work
  | .meritGrad x y weights grad work shifted => p.meritGrad x y weights grad work shifted
  | .meritWithGrad x y weights grad work shifted => p.meritWithGrad x y weights grad work shifted
  | .shifted g y weights => p.shifted g y weights

end AugmentedLagrangian
