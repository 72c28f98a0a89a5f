/- # AugmentedLagrangian.Proofs.SharedWeight — one weight for all constraints

With a single penalty factor, all weights that a run shows are one value: they start so, and an
update fills the vector with what the first of them has grown to.  The values of the constraints
have no part in this.

A kernel that is given this vector, and one that is given its first entry alone, perform the same
operations on each coordinate (`Multipliers.shifted_replicate`).  The merit function and its
gradient depend on the weights through the kernel and in no other way, so they cannot tell the two
apart either (`Problem.interchanges_of_kernel`).
-/
import AugmentedLagrangian.Inner.Replay
import AugmentedLagrangian.Proofs.Kernel
import AugmentedLagrangian.Proofs.PenaltyWeights

namespace AugmentedLagrangian

set_option autoImplicit false

open Scalar (Growing)

/-! ## Weights that evaluations cannot tell apart -/

namespace Problem

variable {R : Type} [Scalar R]

/-- The kernel, and those evaluations of the merit function that are composed, give the same for
these weights: what they return and what they leave. -/
structure Interchanges (p : Problem R) (weights weights' : List R) : Prop where
  kernel : ∀ g y, p.shifted g y weights = p.shifted g y weights'
  merit : p.merit = Composed.merit p.m p.cost p.costWithConstr p.shifted →
    ∀ x y buffer, p.merit x y weights buffer = p.merit x y weights' buffer
  meritGrad : p.meritGrad =
      Composed.meritGrad p.m p.costGrad p.constr p.shifted p.meritGradFrom →
    ∀ x y grad work buffer,
      p.meritGrad x y weights grad work buffer = p.meritGrad x y weights' grad work buffer
  meritWithGrad : p.meritWithGrad =
      Composed.meritWithGrad p.m p.costWithGrad p.costWithConstr p.shifted p.lagrGrad →
    ∀ x y grad work buffer,
      p.meritWithGrad x y weights grad work buffer = p.meritWithGrad x y weights' grad work buffer

variable {p : Problem R} {weights weights' : List R}

theorem interchanges_of_kernel (kernel : ∀ g y, p.shifted g y weights = p.shifted g y weights') :
    p.Interchanges weights weights' where
  kernel := kernel
  merit := by
    intro composed x y buffer
    rw [composed]
    simp only [Composed.merit, Composed.costWithShifted, kernel]
  meritGrad := by
    intro composed x y grad work buffer
    rw [composed]
    simp only [Composed.meritGrad, kernel]
  meritWithGrad := by
    intro composed x y grad work buffer
    rw [composed]
    simp only [Composed.meritWithGrad, Composed.costWithShifted, kernel]

/-- Weights that are all the same can be replaced by the first of them. -/
theorem interchanges_first (usual : p.shifted = Multipliers.shifted p.constraints.values) (σ : R) :
    p.Interchanges (List.replicate p.m σ) ((List.replicate p.m σ).take 1) := by
  apply interchanges_of_kernel
  intro g y
  rcases Nat.eq_zero_or_pos p.m with none | some
  · simp [none]
  · have first : (List.replicate p.m σ).take 1 = [σ] := by
      rw [List.take_replicate, Nat.min_eq_left some, List.replicate_one]
    rw [first, usual]
    exact Multipliers.shifted_replicate p.constraints.values g y σ

end Problem

/-! ## The weights that a run shows -/

namespace Task

variable {R S O : Type} [Scalar R] {t : Task R S O}

theorem Reaches.shown_weighted [Growing R] (good : t.settings.Admissible) {first a : Snapshot R S O}
    {k : Nat} (reached : t.Reaches first k a) (start : ∀ weights ∈ first.shown, t.Weighted weights) :
    ∀ weights ∈ a.shown, t.Weighted weights := by
  induction reached with
  | start => exact start
  | @step k a b _ continues ih =>
      have here : t.Weighted a.state.weights := ih _ (List.mem_append_right _ (.head _))
      intro weights member
      rw [continues.shown] at member
      simp only [List.mem_append, List.mem_singleton] at member
      rcases member with (before | rfl) | rfl
      · exact ih weights before
      · exact here
      · exact continues.weighted good here

variable (t)

/-- Every vector of weights that a run shows has a positive weight for each constraint. -/
theorem weighted_of_shown [Growing R] {layers : List Layer} {x y : List R} {solver : S} {watcher : O}
    {weights : List R} (shown : weights ∈ (t.run layers x y solver watcher).shown) :
    t.Weighted weights := by
  have solves := t.run_solves layers x y solver watcher
  generalize t.run layers x y solver watcher = run at shown solves
  cases solves with
  | refused => cases shown
  | unweighted => cases shown
  | iterated accepted chosen concludes =>
      have good := (Loop.accept_eq_ok.1 accepted).1
      obtain ⟨k, a, n, reached, same⟩ := concludes.shown
      have all : ∀ weights ∈ a.shown, t.Weighted weights := by
        apply reached.shown_weighted good
        intro weights member
        rw [List.mem_singleton.1 member]
        exact first_weighted good chosen
      rw [same, List.mem_append] at shown
      rcases shown with before | repeated
      · exact all weights before
      · rw [List.eq_of_mem_replicate repeated]
        exact all _ (List.mem_append_right _ (.head _))

/-- With a single penalty factor, all weights that a run shows at one time are one value, and under
the usual kernel that value alone can take their place. -/
theorem single_weight [Growing R] (single : t.settings.singlePenaltyFactor = true)
    {layers : List Layer} {x y : List R} {solver : S} {watcher : O} {weights : List R}
    (shown : weights ∈ (t.run layers x y solver watcher).shown) :
    (∃ σ, weights = List.replicate t.problem.m σ) ∧
      (t.problem.shifted = Multipliers.shifted t.problem.constraints.values →
        t.problem.Interchanges weights (weights.take 1)) := by
  have weighted := t.weighted_of_shown shown
  obtain ⟨σ, same⟩ := weighted.uniform single
  rw [weighted.length] at same
  rw [same]
  exact ⟨⟨σ, rfl⟩, fun usual => Problem.interchanges_first usual σ⟩

/-- Two constraints, of which one has no number for its value, under one weight. -/
def sharing : Task Float (ReplayState Float) Unit where
  problem := .ofPrimitives
    ⟨.unbounded 1, ⟨[.between 0.0 0.0 Scalar.zero_le_zero, .between 0.0 1.0 Scalar.zero_le_one]⟩⟩
    { constr? := some fun x _ => .done [0.0 / 0.0, x.headD 0.0] () }
  settings :=
    { OuterSettings.default with
      initialPenalty := some 10.0, maxIter := 2, singlePenaltyFactor := true }
  inner := Replay.solver []
  watch := .silent
  clock := quickClock

theorem sharing_single_weight :
    sharing.settings.singlePenaltyFactor = true ∧
      [100.0, 100.0] ∈ (sharing.run [] [2.0] [0.0, 0.0] {} ()).shown ∧
      (∃ σ, [100.0, 100.0] = List.replicate sharing.problem.m σ) ∧
      sharing.problem.Interchanges [100.0, 100.0] [100.0] := by
  have shown : [100.0, 100.0] ∈ (sharing.run [] [2.0] [0.0, 0.0] {} ()).shown := by
    have all : (sharing.run [] [2.0] [0.0, 0.0] {} ()).shown =
        [[10.0, 10.0], [10.0, 10.0], [100.0, 100.0], [100.0, 100.0], [100.0, 100.0]] := by
      decide +kernel
    simp [all]
  obtain ⟨one, interchanges⟩ := sharing.single_weight rfl shown
  exact ⟨rfl, shown, one, interchanges rfl⟩

end Task

end AugmentedLagrangian
