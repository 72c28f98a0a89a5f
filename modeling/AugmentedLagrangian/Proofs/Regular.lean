/- # AugmentedLagrangian.Proofs.Regular — problems that fill their buffers

A solve keeps its constraint values in a buffer that it hands to the problem again and again, and
an evaluation may leave entries as they were.  Of a `Task.Regular` problem nothing is left over: the
values are a function of the point.  Then the vectors of every state have an entry for each
constraint, and the multipliers that an iteration ends with are the clipped ones of one pass of the
kernel, from the values at its point (`Task.Updates.multipliers`).
-/
import AugmentedLagrangian.Proofs.Kernel
import AugmentedLagrangian.Proofs.WeightGrowth

namespace AugmentedLagrangian.Task

set_option autoImplicit false

open Scalar (Growing)

variable {R S O : Type} [Scalar R] {t : Task R S O} {g : List R → List R}

/-- The problem uses the kernel of the library, and its constraint values are the function `g` of
the point, which has an entry for each constraint, wherever they can be evaluated. -/
structure Regular (t : Task R S O) (g : List R → List R) : Prop where
  kernel : t.problem.shifted = Multipliers.shifted t.problem.constraints.values
  constr : ∀ {x buffer values}, buffer.length = t.problem.m →
    t.problem.constr x buffer = .done values () → values = g x
  full : ∀ x, (g x).length = t.problem.m

/-- The vectors of a state have an entry for each constraint. -/
structure Sized (t : Task R S O) (s : LoopState R) : Prop where
  y : s.y.length = t.problem.m
  values : s.values.length = t.problem.m

theorem Sized.moved {s : LoopState R} (sized : t.Sized s) (x : List R) (report : InnerReport R) :
    t.Sized (s.moved x report) :=
  ⟨sized.y, sized.values⟩

/-- The multipliers that replace others are the clipped ones of the pass. -/
theorem Updates.multipliers (regular : t.Regular g) {s s' : LoopState R}
    {violation : List R} (sized : t.Sized s) (weighted : t.Weighted s.weights)
    (updates : t.Updates s s' violation) (some : s.y ≠ []) :
    s'.values = g s.x ∧
      s'.normE = Scalar.normInf
        (Multipliers.residual t.problem.constraints.values.intervals (g s.x) s.y s.weights) ∧
      s'.y = Multipliers.clip t.settings.maxMultiplier
        (t.problem.constraints.values.intervals.map Interval.lower)
        (t.problem.constraints.values.intervals.map Interval.upper)
        (Multipliers.eachPass 0.0 t.problem.constraints.values.intervals (g s.x) s.y
          s.weights).2 := by
  cases updates with
  | unconstrained none => exact absurd none some
  | evaluated _ constr kernel residual =>
      obtain rfl := regular.constr sized.values constr
      rw [regular.kernel, Multipliers.shifted_each (regular.full s.x) sized.y weighted.length]
        at kernel
      cases kernel
      exact ⟨rfl, by rw [residual], rfl⟩

theorem Updates.sized (regular : t.Regular g) {s s' : LoopState R}
    {violation : List R} (sized : t.Sized s) (weighted : t.Weighted s.weights)
    (updates : t.Updates s s' violation) : t.Sized s' := by
  by_cases none : s.y = []
  · cases updates with
    | unconstrained none => exact ⟨sized.y, sized.values⟩
    | evaluated some => exact absurd none some
  · obtain ⟨values, -, y⟩ := updates.multipliers regular sized weighted none
    constructor
    · rw [y, Multipliers.length_clip, Multipliers.length_eachPass, regular.full]
    · rw [values, regular.full]

theorem Continues.sized (regular : t.Regular g) {k : Nat} {a b : Snapshot R S O}
    (continues : t.Continues k a b) (sized : t.Sized a.state)
    (weighted : t.Weighted a.state.weights) : t.Sized b.state := by
  cases continues with
  | next v converges stops timesOut advanced =>
      obtain ⟨weights, -, rfl⟩ := Loop.advance_eq_ok advanced
      have after := v.updates.sized regular (sized.moved v.x v.report) weighted
      exact ⟨after.y, after.values⟩

theorem Reaches.sized [Growing R] (regular : t.Regular g) (good : t.settings.Admissible)
    {first a : Snapshot R S O} {k : Nat} (reached : t.Reaches first k a)
    (sized : t.Sized first.state) (weighted : t.Weighted first.state.weights) :
    t.Sized a.state := by
  induction reached with
  | start => exact sized
  | step reached continues ih => exact continues.sized regular ih (reached.weighted good weighted)

end AugmentedLagrangian.Task
