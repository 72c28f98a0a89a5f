/- # AugmentedLagrangian.Problem.Text — problems and their errors in words

`EvalError.message` says how an evaluation failed; for a problem that cannot be duplicated the words
are not settled, and a breach has none.  `Handle.summary?` shows a problem of the kinds that can be
shown, as long as no layer around it counts.
-/
import AugmentedLagrangian.Box.Text
import AugmentedLagrangian.Problem.Handle

namespace AugmentedLagrangian

set_option autoImplicit false

/-- The name of the evaluation in messages. -/
def Primitive.name : Primitive → String
  | cost => "eval_f"
  | costGrad => "eval_grad_f"
  | constr => "eval_g"
  | constrGradProd => "eval_grad_g_prod"
  | constrGrad => "eval_grad_gi"
  | lagrHessProd => "eval_hess_l_prod"
  | lagrHess => "eval_hess_l"

/-- The name of the vector in messages. -/
def Start.name : Start → String
  | point => "x0"
  | multipliers => "y0"

/-- What is wrong with an argument, in words. -/
def Rejection.text : Rejection → String
  | parameterCount given expected =>
    s!"parameter has length {given} but the problem expects {expected}"
  | constraintIndex index => s!"constraint index {index} out of range"
  | startLength which given expected =>
    s!"{which.name} has length {given} but the problem expects {expected}"
  | stated reason => reason

/-- The message about an argument that is refused for this reason. -/
def invalidArgument (reason : String) : String :=
  "invalid argument: " ++ reason

def EvalError.message? : EvalError → Option String
  | missing p => some (p.name ++ " is not implemented")
  | rejected reason => some (invalidArgument reason.text)
  | notDuplicable | breach => none

/-! ## Summaries -/

/-- Which primitives are given, by their names. -/
def Primitives.summary {R : Type} (prims : Primitives R) : List (String × String) :=
  let given {α : Type} (name : String) (p : Option α) : String × String :=
    (name, if p.isSome then "true" else "false")
  [given "f" prims.cost?, given "grad_f" prims.costGrad?, given "g" prims.constr?,
    given "grad_g_prod" prims.constrGradProd?, given "grad_gi" prims.constrGrad?,
    given "hess_l_prod" prims.lagrHessProd?, given "hess_l" prims.lagrHess?]

def Quadratic.summary (q : Quadratic Float) : String :=
  let row (r : Float × Float) : String := Summary.reals [r.1, r.2]
  Summary.record "Quadratic"
    [("q", Summary.list [row q.row₀, row q.row₁]), ("constraints", q.constraints.summary)]

/-- The model with all that can be shown of it, unless it is given whole. -/
def Model.summary? : Model Float → Option String
  | primitives constraints prims =>
    some (Summary.record "FnProblem" (("constraints", constraints.summary) :: prims.summary))
  | family f =>
    some (Summary.excerpt "FnParamProblem"
      [("constraints", f.constraints.summary), ("param", Summary.reals f.param)])
  | quadratic q => some q.summary
  | whole _ _ => none

/-- The summary of the problem, unless it or a counting layer hides it. -/
def Handle.summary? (h : Handle Float) : Option String :=
  if h.erased || !(Layer.counters h.layers).isEmpty then none else h.model.summary?

end AugmentedLagrangian
