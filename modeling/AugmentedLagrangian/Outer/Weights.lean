/- # AugmentedLagrangian.Outer.Weights — penalty weights

`choose` takes the first weight from the problem's scale at the starting point,

    σ = σ₀ · max(1, |f|) / max(1, ½‖g‖²),    moved into [Σ_min, Σ_max].

`update` lets weights grow after an outer iteration.  A weight grows unless the violation of its
constraint shrank by the factor `θ`, by up to the factor `Δ` and never beyond `Σ_max`; while the
whole violation is within `δ`, all weights stay as they are.
-/
import AugmentedLagrangian.Consult
import AugmentedLagrangian.Outer.Settings

namespace AugmentedLagrangian.Weights

set_option autoImplicit false

open Scalar (larger smaller magnitude sum)

variable {R : Type} [Scalar R]

/-- The first weight for cost `f` and constraint values `g`. -/
def initial (s : OuterSettings R) (f : R) (g : List R) : R :=
  let halfSquare := 0.5 * sum (g.map fun v => v * v)
  let value := s.initialPenaltyFactor * larger (magnitude f) 1.0 / larger halfSquare 1.0
  smaller (larger value s.minPenalty) s.maxPenalty

/-- Writes the first weight of a problem with `m` constraints to every entry, from its cost and
constraint values at the starting point.  If either fails, the entries are left alone. -/
def choose (s : OuterSettings R) (m : Nat) (x weights : List R) :
    Consult R (Written (List R) Unit) := do
  let f ← Consult.call (.cost x)
  match f.outcome with
  | .error e => return .failed weights e
  | .ok f =>
    let g ← Consult.call (.constr x (List.replicate m 0.0))
    match g.outcome with
    | .error e => return .failed weights e
    | .ok _ => return .done (fill (initial s f g.kept) weights) ()

/-- Whether a weight grows after the violation `e`: every weight does in the first iteration, and
later those whose violation did not shrink by `θ` since `old?`.  Later there has to be one to compare
with. -/
def grows? (s : OuterSettings R) (first : Bool) (e : R) (old? : Option R) : Option Bool :=
  if first then some true
  else old?.map fun old => decide (s.relPenaltyIncreaseThreshold * magnitude old < magnitude e)

/-- A weight that has grown by its share of the violation. -/
def grown (s : OuterSettings R) (factor normE e weight : R) : R :=
  let scale := larger (factor * magnitude e / normE) 1.0
  smaller s.maxPenalty (scale * weight)

/-- The weights' growth one by one, into a buffer of which as many entries are written as there are
violations.  Each violation has to have its weight and its entry in the buffer. -/
def growEach? (s : OuterSettings R) (factor : R) (first : Bool) (normE : R) :
    (e old weights buffer : List R) → Option (List R)
  | [], _, _, buffer => some buffer
  | e :: es, old, weight :: weights, _ :: buffer => do
    let grows ← grows? s first e old.head?
    let rest ← growEach? s factor first normE es old.tail weights buffer
    return (if grows then grown s factor normE e weight else weight) :: rest
  | _, _, _, _ => none

/-- The weights after an iteration with violation `e` of norm `normE`, after one with violation
`old` of norm `oldNormE`.  With a single weight for all, that is the first.  Vectors that lack an
entry that is read or written are a breach. -/
def update (s : OuterSettings R) (factor : R) (first : Bool) (e old : List R) (normE oldNormE : R)
    (weights buffer : List R) : Written (List R) Unit :=
  if normE ≤ s.delta then overwriteAll weights buffer
  else if s.singlePenaltyFactor then
    if first || decide (s.relPenaltyIncreaseThreshold * oldNormE < normE) then
      match weights with
      | [] => .failed buffer .breach
      | weight :: _ => .done (fill (smaller s.maxPenalty (factor * weight)) buffer) ()
    else overwriteAll weights buffer
  else
    match growEach? s factor first normE e old weights buffer with
    | some kept => .done kept ()
    | none => .failed buffer .breach

end AugmentedLagrangian.Weights
