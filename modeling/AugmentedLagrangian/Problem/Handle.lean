/- # AugmentedLagrangian.Problem.Handle — problems that are held and changed

A `Handle` holds a problem under its layers.  A problem in primitives can have its boxes changed in
place; a family also its parameters; a problem that is given whole is what it is.  What a kind of
problem does not offer is `none`.

`Handle.duplicate` makes an owned duplicate, of which only the evaluations can be seen; whether it
can be made is for the problem at the bottom to say.  `Handle.copy?` keeps the kind.  Either way the
layers of the new handle start to count afresh, and those of the old one are left alone.
-/
import AugmentedLagrangian.Problem.Family
import AugmentedLagrangian.Problem.Layers
import AugmentedLagrangian.Reference.Quadratic

namespace AugmentedLagrangian

set_option autoImplicit false

/-- The kinds of problem. -/
inductive Model (R : Type) [Scalar R] where
  /-- A problem in primitives. -/
  | primitives (constraints : Constraints R) (prims : Primitives R)
  | family (f : Family R)
  | quadratic (q : Quadratic R)
  /-- A problem that is given whole, and whether it can be copied with its kind. -/
  | whole (p : Problem R) (copyable : Bool)

variable {R : Type} [Scalar R]

namespace Model

/-- The problem as it stands. -/
def problem : Model R → Problem R
  | primitives constraints prims => .ofPrimitives constraints prims
  | family f => f.problem
  | quadratic q => q.problem
  | whole p _ => p

/-- Whether the model can be copied with its kind. -/
def copyable : Model R → Bool
  | whole _ copyable => copyable
  | _ => true

/-- The boxes, where they can be changed, and the model with others. -/
def boxes? : Model R → Option (Constraints R × (Constraints R → Model R))
  | primitives constraints prims => some (constraints, fun c => primitives c prims)
  | family f => some (f.constraints, fun constraints => family { f with constraints })
  | _ => none

/-- The parametric family, where the model is one. -/
def family? : Model R → Option (Family R)
  | family f => some f
  | _ => none

end Model

/-- A problem under layers, outermost first. -/
structure Handle (R : Type) [Scalar R] where
  model : Model R
  layers : List Layer := []
  /-- Whether only the evaluations can be seen. -/
  erased : Bool := false

namespace Handle

def problem (h : Handle R) : Problem R :=
  h.model.problem

/-- The outcome of a computation with the handle's problem, and the handle afterwards. -/
def consult {α : Type} (h : Handle R) (c : Consult R α) : α × Handle R :=
  let (a, layers) := c.through h.problem h.layers
  (a, { h with layers })

/-- An owned duplicate. -/
def duplicate (h : Handle R) : Except EvalError (Handle R) :=
  h.problem.duplicable.map fun _ => ⟨h.model, h.layers.map .fresh, true⟩

/-- A copy of the same kind. -/
def copy? (h : Handle R) : Option (Handle R) :=
  if h.erased || !h.model.copyable then none else some ⟨h.model, h.layers.map .fresh, false⟩

/-- What the outermost layer counts, if that is a counting layer. -/
def peel? (h : Handle R) : Option (Handle R) :=
  match h.erased, h.layers with
  | false, .counted _ :: layers => some { h with layers }
  | _, _ => none

/-- The counters that can be seen, outermost first. -/
def counters (h : Handle R) : List Counter :=
  if h.erased then [] else Layer.counters h.layers

/-- The handle with its outermost counter at zero. -/
def reset (h : Handle R) : Handle R :=
  if h.erased then h else { h with layers := Layer.reset h.layers }

/-- The family whose parameters can be seen. -/
def family? (h : Handle R) : Option (Family R) :=
  if h.erased then none else h.model.family?

/-- The handle with another family. -/
def withFamily (h : Handle R) (f : Family R) : Handle R :=
  { h with model := .family f }

/-- The boxes, where they can be changed, and the handle with others. -/
def boxes? (h : Handle R) : Option (Constraints R × (Constraints R → Handle R)) :=
  if h.erased then none
  else h.model.boxes?.map fun (c, put) => (c, fun c => { h with model := put c })

end Handle

end AugmentedLagrangian
