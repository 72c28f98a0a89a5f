/- # AugmentedLagrangian.Proofs.WeightGrowth — what an update may do to penalty weights

An update keeps a weight or scales it up and caps it (`Weights.Grows`), in both modes; in the one
with a single weight this needs all weights to be the same, which they are and stay.  So weights
stay positive, and weights up to the cap rise and stay up to the cap.

Along a solve there is a weight for each constraint, and all are positive (`Task.Weighted`).
-/
import Mathlib.Data.List.Forall2
import AugmentedLagrangian.Proofs.Admissible
import AugmentedLagrangian.Proofs.Iteration
import AugmentedLagrangian.Proofs.Order

namespace AugmentedLagrangian

set_option autoImplicit false

open Scalar (smaller Ordered Growing)

/-! ## One update -/

namespace Weights

variable {R : Type} [Scalar R] {s : OuterSettings R}

omit [Scalar R] in
/-- What a relation carries over holds of every entry on its other side. -/
theorem forall_carried {r : R → R → Prop} {good : R → Prop} {weights kept : List R}
    (related : List.Forall₂ r weights kept)
    (carries : ∀ weight weight', r weight weight' → good weight → good weight')
    (all : ∀ weight ∈ weights, good weight) : ∀ weight ∈ kept, good weight := by
  induction related with
  | nil => exact List.forall_mem_nil _
  | cons head _ ih =>
      rw [List.forall_mem_cons] at all ⊢
      exact ⟨carries _ _ head all.1, ih all.2⟩

/-- What an update may do to a weight. -/
inductive Grows (s : OuterSettings R) (weight : R) : R → Prop
  | kept : Grows s weight weight
  | scaled {scale : R} (least : 1.0 ≤ scale) :
      Grows s weight (smaller s.maxPenalty (scale * weight))

/-- All constraints share one weight. -/
def Uniform (weights : List R) : Prop :=
  ∃ weight, weights = List.replicate weights.length weight

omit [Scalar R] in
theorem fill_eq_replicate (value : R) (buffer : List R) :
    fill value buffer = List.replicate buffer.length value := by
  simp [fill, List.map_const']

omit [Scalar R] in
theorem uniform_fill (value : R) (buffer : List R) : Uniform (fill value buffer) :=
  ⟨value, by rw [length_fill, fill_eq_replicate]⟩

theorem all_kept (weights : List R) : List.Forall₂ (Grows s) weights weights :=
  List.forall₂_same.2 fun _ _ => .kept

theorem replicate_grows (n : Nat) {weight weight' : R} (grows : Grows s weight weight') :
    List.Forall₂ (Grows s) (List.replicate n weight) (List.replicate n weight') := by
  induction n with
  | zero => exact .nil
  | succ n ih => exact .cons grows ih

theorem grown_grows [Ordered R] (factor normE e weight : R) :
    Grows s weight (grown s factor normE e weight) :=
  .scaled (Scalar.le_larger_right Scalar.number_one)

theorem growEach?_grows [Ordered R] {factor normE : R} {first : Bool} {e old weights kept : List R}
    (grew : growEach? s factor first normE e old weights weights = some kept) :
    List.Forall₂ (Grows s) weights kept := by
  induction e generalizing old weights kept with
  | nil =>
      cases grew
      exact all_kept weights
  | cons e es ih =>
      cases weights with
      | nil => cases grew
      | cons weight weights =>
          simp only [growEach?, Option.bind_eq_bind, Option.bind_eq_some_iff] at grew
          obtain ⟨grows, -, rest, grewRest, same⟩ := grew
          cases same
          refine .cons ?_ (ih grewRest)
          cases grows with
          | true => exact grown_grows factor normE e weight
          | false => exact .kept

/-- An update keeps each weight or lets it grow, and weights that are shared stay so. -/
theorem update_grows [Ordered R] (good : s.Admissible) {first : Bool} {e old : List R}
    {normE oldNormE : R} {weights kept : List R}
    (uniform : s.singlePenaltyFactor = true → Uniform weights)
    (updated : update s s.penaltyUpdateFactor first e old normE oldNormE weights weights =
      .done kept ()) :
    List.Forall₂ (Grows s) weights kept ∧ (s.singlePenaltyFactor = true → Uniform kept) := by
  have stays : overwriteAll weights weights = .done kept () →
      List.Forall₂ (Grows s) weights kept ∧ (s.singlePenaltyFactor = true → Uniform kept) := by
    intro same
    rw [overwriteAll, if_pos rfl] at same
    cases same
    exact ⟨all_kept weights, uniform⟩
  unfold update at updated
  split at updated
  · exact stays updated
  cases single : s.singlePenaltyFactor with
  | true =>
      rw [single, if_pos rfl] at updated
      split at updated
      · obtain ⟨weight, shared⟩ := uniform single
        cases weights with
        | nil => cases updated
        | cons head tail =>
            cases updated
            obtain ⟨rfl, -⟩ := List.cons.inj (shared.trans List.replicate_succ)
            refine ⟨?_, fun _ => uniform_fill _ _⟩
            rw [shared, fill_eq_replicate, List.length_replicate]
            exact replicate_grows _ (.scaled (Scalar.le_of_lt good.penaltyUpdateFactor))
      · obtain ⟨grows, shared⟩ := stays updated
        exact ⟨grows, fun _ => shared single⟩
  | false =>
      rw [single, if_neg Bool.false_ne_true] at updated
      split at updated
      · rename_i kept' grew
        cases updated
        exact ⟨growEach?_grows grew, fun contrary => by cases contrary⟩
      · cases updated

section Growing

variable [Growing R] {weight weight' : R}

theorem Grows.positive (good : s.Admissible) (grows : Grows s weight weight')
    (positive : 0.0 < weight) : 0.0 < weight' := by
  cases grows with
  | kept => exact positive
  | scaled least =>
      exact Scalar.lt_smaller (Scalar.lt_of_lt_of_le good.minPenalty good.maxPenalty)
        (Scalar.lt_of_lt_of_le positive (Growing.le_scaled least positive))

theorem Grows.rises (grows : Grows s weight weight') (positive : 0.0 < weight)
    (capped : weight ≤ s.maxPenalty) : weight ≤ weight' := by
  cases grows with
  | kept => exact Scalar.le_refl_of_number (Scalar.isNaN_left capped)
  | scaled least => exact Scalar.le_smaller capped (Growing.le_scaled least positive)

omit [Growing R] in
theorem Grows.capped [Ordered R] (grows : Grows s weight weight') (capped : weight ≤ s.maxPenalty) :
    weight' ≤ s.maxPenalty := by
  cases grows with
  | kept => exact capped
  | scaled least => exact Scalar.smaller_le_left (Scalar.isNaN_right capped)

end Growing

/-- Choosing the first weight evaluates the cost, and then the constraints. -/
theorem choose_against (p : Problem R) (m : Nat) (x weights : List R) :
    (choose s m x weights).against p =
      match p.cost x, p.constr x (List.replicate m 0.0) with
      | .error e, _ => .failed weights e
      | .ok _, ⟨_, .error e⟩ => .failed weights e
      | .ok f, ⟨g, .ok _⟩ => .done (fill (initial s f g) weights) () := by
  simp only [choose, Consult.bind_eq, Consult.against_bind, Consult.against_call, Problem.answer]
  rcases p.cost x with e | f
  · rfl
  simp only [Consult.against_bind, Consult.against_call, Problem.answer]
  rcases p.constr x (List.replicate m 0.0) with ⟨g, e | u⟩
  · rfl
  · rfl

/-- A first weight that can be chosen is chosen from some cost and constraint values. -/
theorem choose_eq_done {p : Problem R} {m : Nat} {x weights kept : List R}
    (chosen : (choose s m x weights).against p = .done kept ()) :
    ∃ f g, kept = fill (initial s f g) weights := by
  rw [choose_against] at chosen
  split at chosen
  · cases chosen
  · cases chosen
  · cases chosen
    exact ⟨_, _, rfl⟩

/-- A first weight that is chosen lies between its bounds. -/
theorem initial_bounds [Ordered R] (good : s.Admissible) (f : R) (g : List R) :
    s.minPenalty ≤ initial s f g ∧ initial s f g ≤ s.maxPenalty := by
  have least := Scalar.isNaN_left good.maxPenalty
  have most := Scalar.isNaN_right good.maxPenalty
  exact ⟨Scalar.le_smaller (Scalar.le_larger_right least) good.maxPenalty,
    Scalar.smaller_le_right most⟩

end Weights

/-! ## The weights of a solve -/

namespace Task

variable {R S O : Type} [Scalar R] {t : Task R S O}

/-- What holds of the weights of every iteration. -/
structure Weighted (t : Task R S O) (weights : List R) : Prop where
  length : weights.length = t.problem.m
  positive : ∀ weight ∈ weights, 0.0 < weight
  uniform : t.settings.singlePenaltyFactor = true → Weights.Uniform weights

/-- Where the weights start: as given, or between their bounds. -/
inductive FirstWeight (s : OuterSettings R) (weight : R) : Prop
  | given (given : s.initialPenalty = some weight)
  | chosen (none : s.initialPenalty = none) (least : s.minPenalty ≤ weight)
      (most : weight ≤ s.maxPenalty)

/-- The first weights, by the settings. -/
theorem firstWeights_eq_choose {x : List R} : t.firstWeights x =
    if t.problem.constraints.m = 0 then .done (List.replicate t.problem.constraints.m 0.0) ()
    else
      match t.settings.initialPenalty with
      | some σ => .done (fill σ (List.replicate t.problem.constraints.m 0.0)) ()
      | none =>
        (Weights.choose t.settings t.problem.constraints.m x
          (List.replicate t.problem.constraints.m 0.0)).against t.problem := by
  unfold firstWeights Loop.firstWeights
  by_cases none : t.problem.constraints.m = 0
  · rw [if_pos none, if_pos none]
    rfl
  · rw [if_neg none, if_neg none]
    cases t.settings.initialPenalty <;> rfl

theorem firstWeights_eq [Ordered R] (good : t.settings.Admissible) {x weights : List R}
    (chosen : t.firstWeights x = .done weights ()) :
    ∃ weight, weights = List.replicate t.problem.m weight ∧
      (t.problem.m = 0 ∨ FirstWeight t.settings weight) := by
  have full : ∀ weight : R, fill weight (List.replicate t.problem.m 0.0) =
      List.replicate t.problem.m weight := fun weight => by
    rw [Weights.fill_eq_replicate, List.length_replicate]
  rw [firstWeights_eq_choose] at chosen
  by_cases none : t.problem.constraints.m = 0
  · rw [if_pos none] at chosen
    cases chosen
    exact ⟨0.0, rfl, .inl none⟩
  rw [if_neg none] at chosen
  cases initial : t.settings.initialPenalty with
  | some σ =>
      rw [initial] at chosen
      cases chosen
      exact ⟨σ, full σ, .inr (.given initial)⟩
  | none =>
      rw [initial] at chosen
      obtain ⟨f, g, same⟩ := Weights.choose_eq_done chosen
      obtain ⟨least, most⟩ := Weights.initial_bounds good f g
      exact ⟨_, same.trans (full _), .inr (.chosen initial least most)⟩

/-- Only a weight that has to be chosen can be missing. -/
theorem firstWeights_failed {x weights : List R} {e : EvalError}
    (failed : t.firstWeights x = .failed weights e) : t.settings.initialPenalty = none := by
  rw [firstWeights_eq_choose] at failed
  split at failed
  · cases failed
  split at failed
  · cases failed
  · assumption

theorem first_weighted [Ordered R] (good : t.settings.Admissible) {x weights : List R}
    (chosen : t.firstWeights x = .done weights ()) : t.Weighted weights := by
  obtain ⟨weight, rfl, none | first⟩ := firstWeights_eq good chosen
  · rw [none]
    exact ⟨none.symm, List.forall_mem_nil _, fun _ => ⟨weight, rfl⟩⟩
  · refine ⟨List.length_replicate, fun w member => ?_, fun _ => ⟨weight, ?_⟩⟩
    · obtain rfl := List.eq_of_mem_replicate member
      cases first with
      | given given => exact good.initialPenalty _ given
      | chosen _ least _ => exact Scalar.lt_of_lt_of_le good.minPenalty least
    · rw [List.length_replicate]

theorem advance_grows [Ordered R] (good : t.settings.Admissible) {first : Bool} {s s' : LoopState R}
    {violation : List R} (weighted : t.Weighted s.weights)
    (advanced : Loop.advance t.settings first s violation = .ok s') :
    List.Forall₂ (Weights.Grows t.settings) s.weights s'.weights ∧
      (t.settings.singlePenaltyFactor = true → Weights.Uniform s'.weights) := by
  obtain ⟨weights, updated, rfl⟩ := Loop.advance_eq_ok advanced
  exact Weights.update_grows good weighted.uniform updated

theorem Weighted.advanced [Growing R] (good : t.settings.Admissible) {first : Bool}
    {s s' : LoopState R} {violation : List R} (weighted : t.Weighted s.weights)
    (advanced : Loop.advance t.settings first s violation = .ok s') : t.Weighted s'.weights := by
  obtain ⟨grow, uniform⟩ := advance_grows good weighted advanced
  exact ⟨grow.length_eq ▸ weighted.length,
    Weights.forall_carried grow (fun _ _ grows => grows.positive good) weighted.positive, uniform⟩

theorem Evaluated.weighted {a : Snapshot R S O} (v : t.Evaluated a)
    (weighted : t.Weighted a.state.weights) : t.Weighted v.state.weights := by
  rw [v.state_weights]
  exact weighted

/-- From one iteration to the next each weight is kept or grows. -/
theorem Continues.weights_grow [Ordered R] (good : t.settings.Admissible) {k : Nat}
    {a b : Snapshot R S O} (continues : t.Continues k a b) (weighted : t.Weighted a.state.weights) :
    List.Forall₂ (Weights.Grows t.settings) a.state.weights b.state.weights ∧
      (t.settings.singlePenaltyFactor = true → Weights.Uniform b.state.weights) := by
  cases continues with
  | next v converges stops timesOut advanced =>
      rw [← v.state_weights]
      exact advance_grows good (v.weighted weighted) advanced

theorem Continues.weighted [Growing R] (good : t.settings.Admissible) {k : Nat}
    {a b : Snapshot R S O} (continues : t.Continues k a b) (weighted : t.Weighted a.state.weights) :
    t.Weighted b.state.weights := by
  cases continues with
  | next v converges stops timesOut advanced =>
      exact (v.weighted weighted).advanced good advanced

theorem Reaches.weighted [Growing R] (good : t.settings.Admissible) {first a : Snapshot R S O}
    {k : Nat} (reached : t.Reaches first k a) (weighted : t.Weighted first.state.weights) :
    t.Weighted a.state.weights := by
  induction reached with
  | start => exact weighted
  | step _ continues ih => exact continues.weighted good ih

end Task

end AugmentedLagrangian
