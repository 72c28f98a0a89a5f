/- # AugmentedLagrangian.Problem.Layers — counting layers around a problem

A problem can be wrapped in layers, of which some count.  A call goes through all of them to the
problem at the bottom and the reply comes back unchanged; on its way each counting layer counts it
as the operation that was called.  Calls that the problem makes to its own evaluations do not pass
through the layers, so they are not counted.  A call that breaks a rule has no outcome and is not
counted either.

`Consult.through` performs a computation under layers, and `Layer.pass` takes a single call from one
layer to the next.  `Layered` is a problem under layers with all its evaluations, each of them
written out for each kind of layer.

A layer's times belong to a clock, which nothing here reads.
-/
import AugmentedLagrangian.Consult
import AugmentedLagrangian.Count.Counter

namespace AugmentedLagrangian

set_option autoImplicit false

/-- What is put around a problem. -/
inductive Layer where
  /-- A layer that only passes calls on. -/
  | passing
  /-- A layer that counts calls. -/
  | counted (counter : Counter)

/-- The counter after a call with this reply. -/
def Counter.noted {R : Type} (counter : Counter) (c : Call R) (reply : c.Reply) : Counter :=
  match c.operation with
  | some op => if reply.happened then counter.tick op else counter
  | none => counter

namespace Layer

/-- The layer after a call of the operation. -/
def tick (op : Operation) : Layer → Layer
  | passing => passing
  | counted counter => counted (counter.tick op)

/-- The layer with nothing counted. -/
def fresh : Layer → Layer
  | passing => passing
  | counted _ => counted .zero

/-- The counters of the layers, outermost first. -/
def counters (layers : List Layer) : List Counter :=
  layers.filterMap fun
    | passing => none
    | counted counter => some counter

/-- The layers after a call with this reply. -/
def after {R : Type} (layers : List Layer) (c : Call R) (reply : c.Reply) : List Layer :=
  match c.operation with
  | some op => if reply.happened then layers.map (tick op) else layers
  | none => layers

/-- The layers with the outermost counter set back to zero, for which other layers make way. -/
def reset : List Layer → List Layer
  | [] => []
  | passing :: layers => passing :: reset layers
  | counted _ :: layers => counted .zero :: layers

/-- A call made of the outermost layer. -/
def pass {R : Type} [Scalar R] (p : Problem R) (c : Call R) : List Layer → c.Reply × List Layer
  | [] => (p.answer c, [])
  | passing :: layers =>
    let (reply, layers) := pass p c layers
    (reply, passing :: layers)
  | counted counter :: layers =>
    let (reply, layers) := pass p c layers
    (reply, counted (counter.noted c reply) :: layers)

/-- Duplicates a problem under layers from inside out.  The duplicate at the bottom and that of each
counting layer are owned, and being owned is a layer that passes calls on. -/
def duplicate {R : Type} [Scalar R] (p : Problem R) : List Layer → Except EvalError (List Layer)
  | [] => p.duplicable.map fun _ => [passing]
  | passing :: layers => duplicate p layers
  | counted _ :: layers =>
    match duplicate p layers with
    | .ok inner => .ok (passing :: counted .zero :: inner)
    | .error .notDuplicable => .error .notDuplicable
    | .error e => .error e

end Layer

/-! ## Evaluation by evaluation -/

/-- What comes of an evaluation under layers: the reply, and the layers afterwards. -/
abbrev Passed (B α : Type) : Type := Written B α × List Layer

namespace Passed

variable {B α : Type}

/-- The same under one layer more. -/
def under (layer : Layer) (inner : Passed B α) : Passed B α :=
  (inner.1, layer :: inner.2)

/-- The same under one more counter, which counts what came to an outcome as this operation. -/
def timed (op : Operation) (counter : Counter) (inner : Passed B α) : Passed B α :=
  inner.under (.counted (if inner.1.happened then counter.tick op else counter))

end Passed

/-- A problem under layers, with its evaluations as they are called from outside. -/
structure Layered (R : Type) [Scalar R] where
  constraints : Constraints R
  cost : (x : List R) → Passed Unit R
  costGrad : (x grad : List R) → Passed (List R) Unit
  constr : (x g : List R) → Passed (List R) Unit
  constrGradProd : (x y prod : List R) → Passed (List R) Unit
  constrGrad : (x : List R) → (i : Nat) → (grad : List R) → Passed (List R) Unit
  lagrHessProd : (x y v prod : List R) → Passed (List R) Unit
  lagrHess : (x y : List R) → (hess : List (List R)) → Passed (List (List R)) Unit
  costWithGrad : (x grad : List R) → Passed (List R) R
  costWithConstr : (x g : List R) → Passed (List R) R
  costWithGradConstr : (x grad g : List R) → Passed (List R × List R) R
  gradTerms : (x y grad prod : List R) → Passed (List R × List R) Unit
  lagrGrad : (x y grad work : List R) → Passed (List R × List R) Unit
  merit : (x y weights shifted : List R) → Passed (List R) R
  meritGradFrom : (x shifted grad work : List R) → Passed (List R × List R) Unit
  meritGrad : (x y weights grad work shifted : List R) → Passed (List R × List R × List R) Unit
  meritWithGrad : (x y weights grad work shifted : List R) →
    Passed (List R × List R × List R) R
  shifted : (g y weights : List R) → Passed (List R) R

namespace Layered

variable {R : Type} [Scalar R]

/-- The problem without a layer. -/
def bare (p : Problem R) : Layered R where
  constraints := p.constraints
  cost x := (⟨(), p.cost x⟩, [])
  costGrad x grad := (p.costGrad x grad, [])
  constr x g := (p.constr x g, [])
  constrGradProd x y prod := (p.constrGradProd x y prod, [])
  constrGrad x i grad := (p.constrGrad x i grad, [])
  lagrHessProd x y v prod := (p.lagrHessProd x y v prod, [])
  lagrHess x y hess := (p.lagrHess x y hess, [])
  costWithGrad x grad := (p.costWithGrad x grad, [])
  costWithConstr x g := (p.costWithConstr x g, [])
  costWithGradConstr x grad g := (p.costWithGradConstr x grad g, [])
  gradTerms x y grad prod := (p.gradTerms x y grad prod, [])
  lagrGrad x y grad work := (p.lagrGrad x y grad work, [])
  merit x y weights shifted := (p.merit x y weights shifted, [])
  meritGradFrom x shifted grad work := (p.meritGradFrom x shifted grad work, [])
  meritGrad x y weights grad work shifted := (p.meritGrad x y weights grad work shifted, [])
  meritWithGrad x y weights grad work shifted := (p.meritWithGrad x y weights grad work shifted, [])
  shifted g y weights := (p.shifted g y weights, [])

/-- A layer that only passes calls on. -/
def boxed (inner : Layered R) : Layered R where
  constraints := inner.constraints
  cost x := (inner.cost x).under .passing
  costGrad x grad := (inner.costGrad x grad).under .passing
  constr x g := (inner.constr x g).under .passing
  constrGradProd x y prod := (inner.constrGradProd x y prod).under .passing
  constrGrad x i grad := (inner.constrGrad x i grad).under .passing
  lagrHessProd x y v prod := (inner.lagrHessProd x y v prod).under .passing
  lagrHess x y hess := (inner.lagrHess x y hess).under .passing
  costWithGrad x grad := (inner.costWithGrad x grad).under .passing
  costWithConstr x g := (inner.costWithConstr x g).under .passing
  costWithGradConstr x grad g := (inner.costWithGradConstr x grad g).under .passing
  gradTerms x y grad prod := (inner.gradTerms x y grad prod).under .passing
  lagrGrad x y grad work := (inner.lagrGrad x y grad work).under .passing
  merit x y weights shifted := (inner.merit x y weights shifted).under .passing
  meritGradFrom x shifted grad work := (inner.meritGradFrom x shifted grad work).under .passing
  meritGrad x y weights grad work shifted :=
    (inner.meritGrad x y weights grad work shifted).under .passing
  meritWithGrad x y weights grad work shifted :=
    (inner.meritWithGrad x y weights grad work shifted).under .passing
  shifted g y weights := (inner.shifted g y weights).under .passing

/-- A layer that counts calls.  Turning constraint values into shifted multipliers is not counted. -/
def counted (counter : Counter) (inner : Layered R) : Layered R where
  constraints := inner.constraints
  cost x := (inner.cost x).timed .cost counter
  costGrad x grad := (inner.costGrad x grad).timed .costGrad counter
  constr x g := (inner.constr x g).timed .constr counter
  constrGradProd x y prod := (inner.constrGradProd x y prod).timed .constrGradProd counter
  constrGrad x i grad := (inner.constrGrad x i grad).timed .constrGrad counter
  lagrHessProd x y v prod := (inner.lagrHessProd x y v prod).timed .lagrHessProd counter
  lagrHess x y hess := (inner.lagrHess x y hess).timed .lagrHess counter
  costWithGrad x grad := (inner.costWithGrad x grad).timed .costWithGrad counter
  costWithConstr x g := (inner.costWithConstr x g).timed .costWithConstr counter
  costWithGradConstr x grad g :=
    (inner.costWithGradConstr x grad g).timed .costWithGradConstr counter
  gradTerms x y grad prod := (inner.gradTerms x y grad prod).timed .gradTerms counter
  lagrGrad x y grad work := (inner.lagrGrad x y grad work).timed .lagrGrad counter
  merit x y weights shifted := (inner.merit x y weights shifted).timed .merit counter
  meritGradFrom x shifted grad work :=
    (inner.meritGradFrom x shifted grad work).timed .meritGradFrom counter
  meritGrad x y weights grad work shifted :=
    (inner.meritGrad x y weights grad work shifted).timed .meritGrad counter
  meritWithGrad x y weights grad work shifted :=
    (inner.meritWithGrad x y weights grad work shifted).timed .meritWithGrad counter
  shifted g y weights := (inner.shifted g y weights).under (.counted counter)

/-- The problem under these layers. -/
def wrap (p : Problem R) : List Layer → Layered R
  | [] => bare p
  | .passing :: layers => boxed (wrap p layers)
  | .counted counter :: layers => counted counter (wrap p layers)

/-- Performs a call. -/
def call (l : Layered R) : (c : Call R) → Passed c.Kept c.Value
  | .cost x => l.cost x
  | .costGrad x grad => l.costGrad x grad
  | .constr x g => l.constr x g
  | .constrGradProd x y prod => l.constrGradProd x y prod
  | .constrGrad x i grad => l.constrGrad x i grad
  | .lagrHessProd x y v prod => l.lagrHessProd x y v prod
  | .lagrHess x y hess => l.lagrHess x y hess
  | .costWithGrad x grad => l.costWithGrad x grad
  | .costWithConstr x g => l.costWithConstr x g
  | .costWithGradConstr x grad g => l.costWithGradConstr x grad g
  | .gradTerms x y grad prod => l.gradTerms x y grad prod
  | .lagrGrad x y grad work => l.lagrGrad x y grad work
  | .merit x y weights shifted => l.merit x y weights shifted
  | .meritGradFrom x shifted grad work => l.meritGradFrom x shifted grad work
  | .meritGrad x y weights grad work shifted => l.meritGrad x y weights grad work shifted
  | .meritWithGrad x y weights grad work shifted => l.meritWithGrad x y weights grad work shifted
  | .shifted g y weights => l.shifted g y weights

end Layered

/-! ## Whole computations -/

/-- The outcome of a computation against a problem under layers, and the layers afterwards. -/
def Consult.through {R α : Type} [Scalar R] (p : Problem R) : Consult R α → List Layer →
    α × List Layer
  | .done a, layers => (a, layers)
  | .ask c next, layers =>
    let reply := p.answer c
    (next reply).through p (Layer.after layers c reply)

namespace Consult

variable {R α β : Type} [Scalar R] (p : Problem R)

/-- Layers do not show in the outcome. -/
@[simp] theorem fst_through (c : Consult R α) (layers : List Layer) :
    (c.through p layers).1 = c.against p := by
  induction c generalizing layers with
  | done a => rfl
  | ask c next ih => exact ih (p.answer c) (Layer.after layers c (p.answer c))

/-- The second computation meets the layers as the first leaves them. -/
theorem through_bind (c : Consult R α) (f : α → Consult R β) (layers : List Layer) :
    (c.bind f).through p layers = (f (c.against p)).through p (c.through p layers).2 := by
  induction c generalizing layers with
  | done a => rfl
  | ask c next ih => exact ih (p.answer c) (Layer.after layers c (p.answer c))

end Consult

end AugmentedLagrangian
