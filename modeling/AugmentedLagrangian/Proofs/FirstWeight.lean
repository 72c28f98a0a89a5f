/- # AugmentedLagrangian.Proofs.FirstWeight — the first weight is usable

The first weight is chosen from the problem's scale at the starting point.  The cost and the
constraint values there may be infinite or no number, the sum of squares may overflow, and the
settings may be infinite as well, so the quotient may be no number.  What makes the weight usable all
the same is the order of the last two operations: the larger of the quotient and the least weight is a
number, whatever the quotient is, and so is the smaller of that and the cap.

In exact arithmetic with finite evaluations the quotient is a number, and the weight is the quotient
moved between its bounds.
-/
import AugmentedLagrangian.Proofs.Double
import AugmentedLagrangian.Proofs.Exact
import AugmentedLagrangian.Proofs.WeightGrowth

namespace AugmentedLagrangian

set_option autoImplicit false
set_option linter.unusedSectionVars false

open Scalar (isNaN larger magnitude pin Ordered)

namespace Weights

/-! ## Any arithmetic -/

section Any

variable {R : Type} [Scalar R]

/-- What choosing the first weight comes to, by the evaluations at the starting point.  The cost is
evaluated first, and a failure leaves the entries as they are. -/
structure Usable (s : OuterSettings R) (p : Problem R) (x weights : List R)
    (chosen : Written (List R) Unit) : Prop where
  unpriced : ∀ {e : EvalError}, p.cost x = .error e → chosen = .failed weights e
  unevaluated : ∀ {f : R} {kept : List R} {e : EvalError}, p.cost x = .ok f →
    p.constr x (List.replicate p.m 0.0) = .failed kept e → chosen = .failed weights e
  evaluated : ∀ {f : R} {g : List R}, p.cost x = .ok f →
    p.constr x (List.replicate p.m 0.0) = .done g () →
      ∃ σ, chosen = .done (List.replicate weights.length σ) () ∧ isNaN σ = false ∧
        s.minPenalty ≤ σ ∧ σ ≤ s.maxPenalty

variable {s : OuterSettings R} {p : Problem R} {x : List R}

/-- The weight that is chosen from a cost and constraint values is written to every entry. -/
theorem choose_of_evaluated {f : R} {g : List R} (cost : p.cost x = .ok f)
    (constr : p.constr x (List.replicate p.m 0.0) = .done g ()) (layers : List Layer)
    (weights : List R) :
    ((choose s p.m x weights).through p layers).1 =
      .done (List.replicate weights.length (initial s f g)) () := by
  rw [Consult.fst_through, choose_against, cost, constr, ← fill_eq_replicate]
  rfl

theorem choose_usable [Ordered R] (good : s.Admissible) (layers : List Layer) (weights : List R) :
    Usable s p x weights ((choose s p.m x weights).through p layers).1 where
  unpriced failed := by rw [Consult.fst_through, choose_against, failed]
  unevaluated cost failed := by
    rw [Consult.fst_through, choose_against, cost, failed]
    rfl
  evaluated {f g} cost constr := by
    obtain ⟨least, most⟩ := initial_bounds good f g
    exact ⟨initial s f g, choose_of_evaluated cost constr layers weights, Scalar.isNaN_right least,
      least, most⟩

end Any

/-! ## Exact arithmetic -/

section Exactly

variable {K : Type} [Field K] [LinearOrder K] [IsStrictOrderedRing K]

/-- The magnitude of the cost over a measure of the violation, each counted as one at least. -/
def balance (cost violation : K) : K :=
  max 1 |cost| / max 1 violation

theorem balance_pos (cost violation : K) : 0 < balance cost violation :=
  div_pos (zero_lt_one.trans_le (le_max_left 1 _)) (zero_lt_one.trans_le (le_max_left 1 _))

theorem sum_squares (g : List K) :
    Scalar.sum ((g.map Exact.fin).map fun v => v * v) = .fin (g.map (· ^ 2)).sum := by
  rw [Scalar.sum, Exact.zero_eq, List.map_map]
  -- for the induction the fold starts anywhere
  suffices ∀ start : K, (g.map ((fun v => v * v) ∘ Exact.fin)).foldl (· + ·) (.fin start) =
      .fin (start + (g.map (· ^ 2)).sum) by
    rw [this 0, zero_add]
  induction g with
  | nil => intro start; simp
  | cons v g ih =>
      intro start
      rw [List.map_cons, List.foldl_cons, Function.comp_apply, Exact.fin_mul, Exact.fin_add, ih,
        List.map_cons, List.sum_cons, ← add_assoc, sq]

/-- The first weight is the balance of the cost and half the square of the constraint values, scaled
and moved between its bounds. -/
theorem initial_fin {s : OuterSettings (Exact K)} (good : s.Admissible) (f : K) (g : List K) :
    initial s (.fin f) (g.map .fin) =
      pin s.minPenalty s.maxPenalty
        (s.initialPenaltyFactor * .fin (balance f (1 / 2 * (g.map (· ^ 2)).sum))) := by
  have top : 0 < max |f| 1 := zero_lt_one.trans_le (le_max_right _ 1)
  have bottom : 0 < max (1 / 2 * (g.map (· ^ 2)).sum) 1 := zero_lt_one.trans_le (le_max_right _ 1)
  have positive := good.initialPenaltyFactor
  have value : s.initialPenaltyFactor * larger (magnitude (.fin f)) 1.0 /
      larger (0.5 * Scalar.sum ((g.map Exact.fin).map fun v => v * v)) 1.0 =
        s.initialPenaltyFactor * .fin (balance f (1 / 2 * (g.map (· ^ 2)).sum)) := by
    rw [sum_squares, Exact.magnitude_fin, Exact.half_eq, Exact.one_eq, Exact.fin_mul,
      Exact.larger_fin, Exact.larger_fin, Exact.mul_div_fin positive top bottom, balance,
      max_comm 1 |f|, max_comm 1 (1 / 2 * _)]
  have number := Exact.number_mul_fin positive (balance_pos f (1 / 2 * (g.map (· ^ 2)).sum))
  rw [initial, value, pin, number, if_neg Bool.false_ne_true]

end Exactly

/-- Whatever the evaluations at the starting point come to, the first weight is a number between its
bounds, the same for all constraints, unless an evaluation fails; and in exact arithmetic it is told
by the balance of cost and violation there. -/
theorem first_weight :
    (∀ {R : Type} [Scalar R] [Ordered R] {s : OuterSettings R},
        Requirement.check s.requirements = .ok () →
      ∀ (p : Problem R) (layers : List Layer) (x weights : List R),
        Usable s p x weights ((choose s p.m x weights).through p layers).1) ∧
      ∀ {K : Type} [Field K] [LinearOrder K] [IsStrictOrderedRing K]
        {s : OuterSettings (Exact K)}, Requirement.check s.requirements = .ok () →
      ∀ {p : Problem (Exact K)} {x : List (Exact K)} {f : K} {g : List K}, p.cost x = .ok (.fin f) →
        p.constr x (List.replicate p.m 0.0) = .done (g.map .fin) () →
      ∀ (layers : List Layer) (weights : List (Exact K)),
        ∃ σ, ((choose s p.m x weights).through p layers).1 =
            .done (List.replicate weights.length σ) () ∧
          σ = pin s.minPenalty s.maxPenalty
            (s.initialPenaltyFactor * .fin (balance f (1 / 2 * (g.map (· ^ 2)).sum))) ∧
          ∀ {c lo hi : K}, s.initialPenaltyFactor = .fin c → s.minPenalty = .fin lo →
            s.maxPenalty = .fin hi →
            σ = .fin (min (max (c * balance f (1 / 2 * (g.map (· ^ 2)).sum)) lo) hi) := by
  constructor
  · intro R _ _ s accepted p layers x weights
    exact choose_usable (OuterSettings.check_requirements.1 accepted) layers weights
  · intro K _ _ _ s accepted p x f g cost constr layers weights
    have good := OuterSettings.check_requirements.1 accepted
    refine ⟨_, choose_of_evaluated cost constr layers weights, initial_fin good f g, ?_⟩
    intro c lo hi factor least most
    rw [initial_fin good, factor, least, most, Exact.fin_mul, Exact.pin_fin]

/-- Infinite cost and infinite constraint values. -/
def boundless : Problem Float :=
  .ofPrimitives ⟨.unbounded 1, ⟨[.between 0.0 0.0 Scalar.zero_le_zero]⟩⟩
    { cost? := some fun _ => .ok Scalar.infinity
      constr? := some fun _ => overwriteAll [Scalar.infinity] }

/-- A cost of `-50`, and constraint values with a square of `25`. -/
def measured : Problem (Exact ℚ) :=
  .ofPrimitives ⟨.unbounded 1, ⟨List.replicate 2 (.between 0.0 0.0 Exact.zero_le_zero)⟩⟩
    { cost? := some fun _ => .ok (.fin (-50))
      constr? := some fun _ => overwriteAll ([3, 4].map Exact.fin) }

theorem measured_first_weight :
    (∃ σ, ((choose .default boundless.m [0.0] [7.0]).through boundless []).1 = .done [σ] () ∧
        isNaN σ = false ∧ (1e-9 : Float) ≤ σ ∧ σ ≤ 1e9) ∧
      ((choose .default measured.m [0.0] [0.0, 0.0]).through measured []).1 =
        .done [.fin 80, .fin 80] () := by
  constructor
  · exact (first_weight.1 (by decide +kernel) boundless [] [0.0] [7.0]).evaluated rfl rfl
  · obtain ⟨σ, chosen, -, finite⟩ :=
      first_weight.2 (s := .default) (by decide +kernel) (p := measured) (x := [0.0]) rfl rfl []
        [0.0, 0.0]
    have value : σ = .fin 80 := by
      rw [finite (c := 20) (by decide +kernel) rfl rfl]
      decide +kernel
    rw [chosen, value]
    rfl

end Weights

end AugmentedLagrangian
