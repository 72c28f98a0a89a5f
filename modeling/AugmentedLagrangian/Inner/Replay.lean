/- # AugmentedLagrangian.Inner.Replay — an inner solver that plays back answers

Instead of solving anything, a replay answers the subproblems from a list, and repeats the last
answer when the list has run out.  An answer may first make a call of its own, and may fail.  An
error of that call is kept and passed over, but a breach ends the solve, and so does a point that is
not as long as the incoming one.  The replay's state keeps what it was asked and what its own calls
were answered.
-/
import AugmentedLagrangian.Duration
import AugmentedLagrangian.Inner.Solver

namespace AugmentedLagrangian

set_option autoImplicit false

/-- One answer of a replay. -/
structure ReplayEntry (R : Type) where
  /-- How long the answer takes. -/
  takes : Duration := .zero
  /-- A call to make first. -/
  call? : Option (Call R) := none
  /-- The reason to fail with. -/
  fail? : Option String := none
  /-- Whether to evaluate the cost at the incoming point, and fail if that does. -/
  needsCost : Bool := false
  /-- The point to return; the incoming one, if absent. -/
  x? : Option (List R) := none
  report : InnerReport R

/-- What a replay has seen. -/
inductive ReplayNote (R : Type) where
  | asked (q : Subproblem R)
  | answered (c : Call R) (reply : c.Reply)

/-- How many subproblems a replay has seen, and its notes, last first. -/
structure ReplayState (R : Type) where
  asked : Nat := 0
  notes : List (ReplayNote R) := []

namespace Replay

variable {R : Type} [Scalar R]

/-- The entry for the `k`-th subproblem; an empty list leaves the point alone and reports
convergence. -/
def entryAt (entries : List (ReplayEntry R)) (k : Nat) : ReplayEntry R :=
  entries[min k (entries.length - 1)]?.getD { report := ⟨.converged, 0.0, 0⟩ }

/-- Makes the entry's own call, if it has one: whether the replay can go on, and the notes with the
reply. -/
def consultFirst (entry : ReplayEntry R) (notes : List (ReplayNote R)) :
    Consult R (Bool × List (ReplayNote R)) :=
  match entry.call? with
  | none => return (true, notes)
  | some c => do
    let reply ← Consult.call c
    return (reply.happened, .answered c reply :: notes)

/-- The point and the report of an entry, for an incoming point. -/
def conclude (entry : ReplayEntry R) (x : List R) : Except EvalError (List R × InnerReport R) :=
  let next := entry.x?.getD x
  if next.length = x.length then .ok (next, entry.report) else .error .breach

/-- The answer of an entry to a subproblem, once its own call is made. -/
def respond (entry : ReplayEntry R) (q : Subproblem R) :
    Consult R (Except EvalError (List R × InnerReport R)) :=
  match entry.fail? with
  | some reason => return .error (.rejected (.stated reason))
  | none =>
    if entry.needsCost then do
      match (← Consult.call (.cost q.x)).outcome with
      | .error e => return .error e
      | .ok _ => return conclude entry q.x
    else return conclude entry q.x

/-- The solver that plays these entries. -/
def solver (entries : List (ReplayEntry R)) : InnerSolver R (ReplayState R) where
  solve _ s q := do
    let entry := entryAt entries s.asked
    let (goesOn, notes) ← consultFirst entry (.asked q :: s.notes)
    let answer ← if goesOn then respond entry q else pure (.error .breach)
    return (⟨s.asked + 1, notes⟩, answer)

/-- The nanoseconds until the end of outer iteration `k`, of a solve whose first subproblem is number
`asked`: those of the entries played by then, of which the last may have been repeated, beside the
least that the iterations take. -/
def clock (entries : List (ReplayEntry R)) (asked k : Nat) : Nat :=
  let time (entry : ReplayEntry R) := entry.takes.nanoseconds
  let played := (entries.drop asked).take (k + 1)
  let repeated := (k + 1 - played.length) * (entries.getLast?.map time).getD 0
  (played.map time).foldl (· + ·) 0 + repeated + quickClock k

end Replay

end AugmentedLagrangian
