/- # AugmentedLagrangian.Proofs.Agreement — problems that give the same answers

A computation sees a problem only through the answers to its calls.  So what it returns, and what
layers count of it, is the same for every problem that gives the same answers to the calls it comes
to; those that it does not come to are no matter.  `Consult.Asks` speaks of the calls that a
computation comes to, and `Consult.through_congr` says this.

Of its own a solve calls for nothing but the cost, the constraint values and the shifted
multipliers.  All other calls are the inner solver's (`minimize_asks`).
-/
import AugmentedLagrangian.Inner.ProjectedGradient
import AugmentedLagrangian.Outer.Loop
import AugmentedLagrangian.Problem.Layers

namespace AugmentedLagrangian

set_option autoImplicit false

variable {R S O α β : Type} [Scalar R]

/-! ## The calls of a computation -/

namespace Consult

/-- Against the problem, every call that the computation comes to is allowed. -/
def Asks (p : Problem R) (allowed : Call R → Prop) : Consult R α → Prop
  | .done _ => True
  | .ask c next => allowed c ∧ (next (p.answer c)).Asks p allowed

variable {p p' : Problem R} {allowed : Call R → Prop}

@[simp] theorem asks_call {c : Call R} : (call c).Asks p allowed ↔ allowed c :=
  and_iff_left trivial

/-- The second computation is the one that follows the outcome of the first. -/
theorem asks_bind {c : Consult R α} {f : α → Consult R β} :
    (c.bind f).Asks p allowed ↔ c.Asks p allowed ∧ (f (c.against p)).Asks p allowed := by
  induction c with
  | done a => exact (iff_of_eq (true_and _)).symm
  | ask c next ih => exact (and_congr_right' (ih _)).trans and_assoc.symm

theorem Asks.ite {P : Prop} [Decidable P] {c d : Consult R α} (yes : c.Asks p allowed)
    (no : d.Asks p allowed) : (if P then c else d).Asks p allowed := by
  split
  · exact yes
  · exact no

theorem Asks.mono {allowed' : Call R → Prop} {c : Consult R α} (asks : c.Asks p allowed)
    (weaker : ∀ call, allowed call → allowed' call) : c.Asks p allowed' := by
  induction c with
  | done a => trivial
  | ask c next ih => exact ⟨weaker c asks.1, ih _ asks.2⟩

/-- Problems that answer the calls alike cannot be told apart, by the outcome or by a count. -/
theorem through_congr {c : Consult R α}
    (same : c.Asks p fun call => p'.answer call = p.answer call) (layers : List Layer) :
    c.through p' layers = c.through p layers := by
  induction c generalizing layers with
  | done a => rfl
  | ask c next ih =>
      rw [through, through, same.1]
      exact ih _ same.2 _

end Consult

/-! ## The calls of a solve -/

/-- The calls that the outer loop makes itself. -/
def Call.OfLoop : Call R → Prop
  | .cost _ | .constr .. | .shifted .. => True
  | _ => False

section Loop

variable {p : Problem R} {allowed : Call R → Prop} (loop : ∀ c : Call R, c.OfLoop → allowed c)
  {settings : OuterSettings R} {c : Constraints R}

include loop

theorem Loop.updateMultipliers_asks (s : LoopState R) :
    (updateMultipliers settings c s).Asks p allowed := by
  unfold updateMultipliers
  split
  · trivial
  refine Consult.asks_bind.2 ⟨Consult.asks_call.2 (loop _ trivial), ?_⟩
  split
  · trivial
  refine Consult.asks_bind.2 ⟨Consult.asks_call.2 (loop _ trivial), ?_⟩
  split <;> trivial

theorem Loop.firstWeights_asks (x : List R) : (firstWeights settings c x).Asks p allowed := by
  unfold firstWeights
  split
  · trivial
  split
  · trivial
  refine Consult.asks_bind.2 ⟨Consult.asks_call.2 (loop _ trivial), ?_⟩
  split
  · trivial
  refine Consult.asks_bind.2 ⟨Consult.asks_call.2 (loop _ trivial), ?_⟩
  split <;> trivial

variable {inner : InnerSolver R S}
  (solves : ∀ solver asked, (inner.solve c solver asked).Asks p allowed)
  (watch : Observer O (Event R) Action) (clock : Nat → Nat)

include solves

theorem Loop.iterate_asks (remaining k : Nat) (s : LoopState R) (past : List (Round R))
    (solver : S) (watcher : O) :
    (iterate settings c inner watch clock remaining k s past solver watcher).Asks p allowed := by
  induction remaining generalizing k s past solver watcher with
  | zero => trivial
  | succ remaining ih =>
      refine Consult.asks_bind.2 ⟨solves solver s.subproblem, ?_⟩
      rcases (inner.solve c solver s.subproblem).against p with ⟨solver, e | ⟨x, report⟩⟩
      · trivial
      refine .ite trivial (Consult.asks_bind.2 ⟨updateMultipliers_asks loop _, ?_⟩)
      split
      · trivial
      -- The calls after the event are those of later iterations.
      refine .ite trivial (.ite trivial (.ite trivial ?_))
      split
      · trivial
      · exact ih ..

/-- The calls of a solve are allowed if the outer loop's are, and the inner solver's. -/
theorem minimize_asks (x y : List R) (solver : S) (watcher : O) :
    (minimize settings c inner watch clock x y solver watcher).Asks p allowed := by
  unfold minimize
  split
  · trivial
  refine Consult.asks_bind.2 ⟨Loop.firstWeights_asks loop x, ?_⟩
  split
  · trivial
  · exact Loop.iterate_asks loop solves watch clock ..

end Loop

/-! ## The projected gradient -/

namespace ProjectedGradient

variable {p : Problem R} {allowed : Call R → Prop}
  (merits : ∀ x y weights grad work shifted : List R,
    allowed (.meritWithGrad x y weights grad work shifted))

include merits

theorem iterate_asks (c : Constraints R) (q : Subproblem R) (step : R) (fuel taken : Nat)
    (x grad work shifted : List R) :
    (iterate c q step fuel taken x grad work shifted).Asks p allowed := by
  induction fuel generalizing taken x grad work shifted with
  | zero => trivial
  | succ fuel ih =>
      refine Consult.asks_bind.2 ⟨Consult.asks_call.2 (merits ..), ?_⟩
      rw [Consult.against_call]
      rcases p.answer (.meritWithGrad x q.y q.weights grad work shifted) with
        ⟨⟨grad, work, shifted⟩, e | ψ⟩
      · trivial
      · exact .ite (.ite trivial (ih ..)) trivial

/-- The solver calls for nothing but the merit function with its gradient. -/
theorem solver_asks (lipschitz : R) (maxIter : Nat) (c : Constraints R) (s : Unit)
    (q : Subproblem R) : ((solver lipschitz maxIter).solve c s q).Asks p allowed :=
  Consult.asks_bind.2 ⟨iterate_asks merits .., trivial⟩

end ProjectedGradient

end AugmentedLagrangian
